import BinaryAtlas.Session.Create
import BinaryAtlas.Session.Records
import BinaryAtlas.Session.Spaces
import BinaryAtlas.Session.Tables

namespace BinaryAtlas

open Session (Source AnalyserChoice)

inductive Command where
  | makeType (handle : String) (id : Option Uuid) (name : String) (kind : TypeKind)
  | makeSymbol (handle : String) (id : Option Uuid) (name : String) (kind : SymbolKind)
      (type : String)
  | makeTable (handle : String) (id : Option Uuid) (name : String)
  | makeSpace (handle : String) (id : Option Uuid) (name : String)
  | makeImage (handle : String) (id : Option Uuid) (name : String) (table : String)
      (source : Source) (analyser : AnalyserChoice)
  | createImage (handle name analyser : String) (source : Source)
  | holdGlobals (handle image : String)
  | drop (handle : String)
  | setName (object name : String)
  | setComment (object comment : String)
  | setTemporary (object : String) (value : Bool)
  | restore (object : String) (record : Json)
  | register (object : String)
  | setKind (type : String) (kind : TypeKind)
  | measure (type : String)
  | setType (symbol type : String)
  | extent (symbol : String)
  | addSymbol (table : String) (offset : Nat) (symbol : String)
  | removeSymbol (table : String) (offset : Nat)
  | lookup (table : String) (offset : Nat)
  | span (table : String)
  | setSymbols (table : String) (entries : List (Nat × String))
  | addChild (table child : String)
  | removeChild (table : String) (child : HashId)
  | render (table : String) (indent levels : Nat)
  | analyse (image : String)
  | writeRaw (image : String) (file : Nat) (data : Bytes)
  | flush (image : String)
  | addAnalyser (analyser : Analyser)
  | outside (disk : Disk)
  | addImage (space image : String)
  | removeImage (space : String) (image : HashId)
  | find (id : HashId)
  | findAs (id : HashId) (class_ : ObjectClass)
  | remove (id : HashId)
  | discard (id : HashId)
  | prune
  | subscribe (observer : Observer)
  | unsubscribe (subscription : Nat)

inductive Answer where
  | done
  | bound (id : HashId) (name : String)
  | flag (value : Bool)
  | count (value : Nat)
  | text (value : String)
  | name (value : Option String)
  | object (class_ : ObjectClass) (name : String)
  | extent (value : Option Nat)
  | span (value : Option (Nat × Nat))
  | symbol (name : String) (entry displacement : Nat) (table : String)
  | unbound
deriving DecidableEq

namespace Session

abbrev Outcome := Except Error Answer × Session

def nameOf (s : Session) (r : Ref) : String := (s.heap.name? r).getD ""

def withHandle (s : Session) (handle : String) (next : Ref → Outcome) : Outcome :=
  match s.handle? handle with
  | some r => next r
  | none => (.ok .unbound, s)

def hold (s : Session) (handle : String) (r : Ref) : Outcome :=
  match s.heap.get? r with
  | some o => (.ok (.bound o.id o.name), s.bind handle r)
  | none => (.ok .unbound, s)

def holdResult (handle : String) : Except Error Ref × Session → Outcome
  | (.ok r, s) => s.hold handle r
  | (.error e, s) => (.error e, s)

def answerUnit : Except Error Unit × Session → Outcome
  | (.ok _, s) => (.ok .done, s)
  | (.error e, s) => (.error e, s)

def answerName (result : Option Ref × Session) : Outcome :=
  (.ok (.name (result.1.map result.2.nameOf)), result.2)

def answerFlag (result : Bool × Session) : Outcome := (.ok (.flag result.1), result.2)

def answerObject : Except LookupError Ref × Session → Outcome
  | (.ok r, s) =>
    match s.heap.get? r with
    | some o => (.ok (.object o.classOf o.name), s)
    | none => (.ok .unbound, s)
  | (.error e, s) => (.error (.lookup e), s)

def perform (s : Session) : Command → Outcome
  | .makeType handle id name kind =>
    let (r, s) := s.create id name (.dataType kind)
    s.hold handle r
  | .makeSymbol handle id name kind type =>
    s.withHandle type fun type =>
      let (r, s) := s.create id name (.symbol { kind, type })
      s.hold handle r
  | .makeTable handle id name =>
    let (r, s) := s.create id name (.table {})
    s.hold handle r
  | .makeSpace handle id name =>
    let (r, s) := s.create id name (.space [])
    s.hold handle r
  | .makeImage handle id name table source analyser =>
    s.withHandle table fun globals =>
      holdResult handle (s.makeImage id name globals source analyser)
  | .createImage handle name analyser source =>
    holdResult handle (s.createImage name analyser source)
  | .holdGlobals handle image =>
    s.withHandle image fun r =>
      match s.heap.image? r with
      | some i => s.hold handle i.globals
      | none => (.ok .unbound, s)
  | .drop handle => (.ok (.flag (s.handle? handle).isSome), s.unbind handle)
  | .setName object name =>
    s.withHandle object fun r => (.ok .done, s.update r fun o => { o with name })
  | .setComment object comment =>
    s.withHandle object fun r => (.ok .done, s.update r fun o => { o with comment })
  | .setTemporary object temporary =>
    s.withHandle object fun r =>
      (.ok .done, { s with heap := s.heap.modify r fun o => { o with temporary } })
  | .restore object record => s.withHandle object fun r => answerUnit (s.restore r record)
  | .register object =>
    s.withHandle object fun r =>
      let (registered, s) := s.reregister r
      (.ok (.flag (registered == r)), s)
  | .setKind type kind =>
    s.withHandle type fun r =>
      match s.heap.kind? r with
      | some _ => (.ok .done, s.updateBody r (.dataType kind))
      | none => (.ok .unbound, s)
  | .measure type =>
    s.withHandle type fun r => (.ok (.count (s.sizeOf r)), s.measured [r])
  | .setType symbol type =>
    s.withHandle symbol fun r => s.withHandle type fun type =>
      match s.heap.symbol? r with
      | some sym => (.ok .done, s.updateBody r (.symbol { sym with type }))
      | none => (.ok .unbound, s)
  | .extent symbol =>
    s.withHandle symbol fun r => (.ok (.extent (s.extent r)), s.surveyed [r])
  | .addSymbol table offset symbol =>
    s.withHandle table fun t => s.withHandle symbol fun r =>
      answerName (s.addSymbol t offset r)
  | .removeSymbol table offset =>
    s.withHandle table fun t =>
      match s.removeSymbol t offset with
      | (.ok r, s) => (.ok (.name (s.heap.name? r)), s)
      | (.error e, s) => (.error e, s)
  | .lookup table offset =>
    s.withHandle table fun t =>
      match s.lookup t offset with
      | (.ok found, s) =>
        (.ok (.symbol (s.nameOf found.hit.symbol) found.hit.entry found.hit.displacement
          (s.nameOf found.table)), s)
      | (.error e, s) => (.error e, s)
  | .span table =>
    s.withHandle table fun t =>
      let (range, s) := s.span t
      (.ok (.span range), s)
  | .setSymbols table entries =>
    s.withHandle table fun t =>
      match entries.mapM fun (offset, handle) => (s.handle? handle).map fun r => (offset, r) with
      | some entries => (.ok .done, s.setSymbols t (.ofList entries))
      | none => (.ok .unbound, s)
  | .addChild table child =>
    s.withHandle table fun t => s.withHandle child fun c => answerFlag (s.addChild t c)
  | .removeChild table child => s.withHandle table fun t => answerName (s.removeChild t child)
  | .render table indent levels =>
    s.withHandle table fun t =>
      let (text, s) := s.render indent levels t
      (.ok (.text text), s)
  | .analyse image => s.withHandle image fun r => answerUnit (s.analyse r)
  | .writeRaw image file data =>
    s.withHandle image fun r => answerUnit (s.writeRaw r file data)
  | .flush image => s.withHandle image fun r => answerUnit (s.flush r)
  | .addAnalyser analyser =>
    (.ok .done, { s with analysers := s.analysers.register analyser })
  | .outside disk => (.ok .done, { s with disk })
  | .addImage space image =>
    s.withHandle space fun r => s.withHandle image fun i => answerFlag (s.addImage r i)
  | .removeImage space image => s.withHandle space fun r => answerName (s.removeImage r image)
  | .find id => answerObject (s.find id)
  | .findAs id c => answerObject (s.fetch id c)
  | .remove id => answerObject (s.unregister id)
  | .discard id =>
    match s.discard id with
    | (.ok b, s) => (.ok (.flag b), s)
    | (.error e, s) => (.error (.lookup e), s)
  | .prune =>
    let (count, registry) := s.registry.prune s.live
    (.ok (.count count), { s with registry })
  | .subscribe observer =>
    let (_, chain) := s.chain.subscribe observer
    (.ok (.count chain.size), { s with chain })
  | .unsubscribe subscription =>
    let (ended, chain) := s.chain.unsubscribe subscription
    (.ok (.flag ended), { s with chain })

def run (s : Session) (c : Command) : Outcome :=
  let (answer, s) := s.perform c
  (answer, s.settle)

end Session

end BinaryAtlas
