import BinaryAtlas.Session.Notify

namespace BinaryAtlas.Session

def idJson (s : Session) (r : Ref) : Json := .natural ((s.heap.id? r).getD 0)

def bodyFields (s : Session) : Body → List (String × Json)
  | .dataType kind => [("kind", kind.toJson)]
  | .symbol sym => [("data_type", s.idJson sym.type), ("kind", .str sym.kind.name)]
  | .table t => [
      ("children", .arr (t.children.map s.idJson)),
      ("symbols", .arr (t.symbols.toList.map fun (offset, symbol) =>
        .obj [("offset", .natural offset), ("symbol", s.idJson symbol)]))]
  | .image i => [
      ("analyser", .str i.analyser.name), ("global_symbol_table", s.idJson i.globals),
      ("store", i.store.toJson)] ++ (i.layout.map fun l => ("layout", l.toJson)).toList
  | .space images => [("images", .arr (images.map s.idJson))]

def recordOf (s : Session) (o : Object) : Json :=
  .obj ([("class", .str o.classOf.name), ("comment", .str o.comment), ("name", .str o.name),
    ("uuid", .str o.uuid.text)] ++ s.bodyFields o.body)

def record (s : Session) (r : Ref) : Json := ((s.heap.get? r).map s.recordOf).getD .null

def records (s : Session) : List Json := s.permanent.map s.record

def idText (o : Object) : String := "HashId(" ++ Text.decimal o.id ++ ")"

def describe (o : Object) : String :=
  let head := [("hash_id", idText o), ("name", Text.quoted o.name)]
  match o.body with
  | .table t =>
    Text.described "SymbolTable" (head ++ [("symbols", Text.decimal t.symbols.size),
      ("children", Text.decimal t.children.length)])
  | .image i =>
    Text.described "Image" (head ++ [("analyser", Text.quoted i.analyser.name),
      ("size", Text.decimal i.size), ("analysed", if i.isAnalysed then "true" else "false")])
  | .space images => Text.described "AddressSpace" (head ++ [("images", Text.decimal images.length)])
  | .dataType _ => Text.described "DataType" head
  | .symbol _ => Text.described "Symbol" head

def readMeta (s : Session) (r : Ref) (record : Json) : Session :=
  { s with heap := s.heap.modify r (·.readMeta record) }

def setBody (s : Session) (r : Ref) (b : Body) : Session :=
  { s with heap := s.heap.setBody r b }

def integerField (record : Json) (key : String) : Except Error Nat :=
  match (record.get? key).bind Json.word? with
  | some n => .ok n
  | none => .error (.record (.missingInteger key))

def arrayField (record : Json) (key : String) : Except Error (List Json) :=
  match (record.get? key).bind Json.arr? with
  | some items => .ok items
  | none => .error (.record (.missingArray key))

def readEach {α : Type} (read : Session → Json → Except Error α × Session) (s : Session) :
    List Json → Except Error (List α) × Session
  | [] => (.ok [], s)
  | j :: rest =>
    match read s j with
    | (.error e, s) => (.error e, s)
    | (.ok a, s) =>
      match readEach read s rest with
      | (.error e, s) => (.error e, s)
      | (.ok as, s) => (.ok (a :: as), s)

def readId (c : ObjectClass) (fault : RecordFault) (s : Session) (j : Json) :
    Except Error Ref × Session :=
  match j.word? with
  | none => (.error (.record fault), s)
  | some id =>
    let (found, s) := s.fetch id c
    (found.mapError .lookup, s)

def readEntry (s : Session) (j : Json) : Except Error (Nat × Ref) × Session :=
  match integerField j "offset" with
  | .error e => (.error e, s)
  | .ok offset =>
    match integerField j "symbol" with
    | .error e => (.error e, s)
    | .ok id =>
      let (found, s) := s.fetch id .symbol
      ((found.mapError .lookup).map fun r => (offset, r), s)

/-- Name and comment are taken first, then the kind if the record has one. -/
def restoreType (s : Session) (r : Ref) (record : Json) : Except Error Unit × Session :=
  let s := s.readMeta r record
  match record.get? "kind" with
  | none => (.ok (), s)
  | some j =>
    match TypeKind.ofJson? j with
    | some kind => (.ok (), s.setBody r (.dataType kind))
    | none => (.error (.record .unreadable), s)

def restoreSymbol (s : Session) (r : Ref) (sym : Symbol) (record : Json) :
    Except Error Unit × Session :=
  let s := s.readMeta r record
  match record.get? "data_type" with
  | none => (.ok (), s)
  | some _ =>
    match integerField record "data_type" with
    | .error e => (.error e, s)
    | .ok id =>
      match s.fetch id .dataType with
      | (.error e, s) => (.error (.record (.symbolType e)), s)
      | (.ok type, s) => (.ok (), s.setBody r (.symbol { sym with type }))

/-- Replaces entries and children by those of a record. The children take the table registered
under the hash id of this one as the table around them. -/
def restoreTable (s : Session) (r : Ref) (id : HashId) (record : Json) :
    Except Error Unit × Session :=
  match arrayField record "symbols" with
  | .error e => (.error e, s)
  | .ok entries =>
    match readEach readEntry s entries with
    | (.error e, s) => (.error e, s)
    | (.ok symbols, s) =>
      match arrayField record "children" with
      | .error e => (.error e, s)
      | .ok items =>
        match readEach (readId .symbolTable .childTableId) s items with
        | (.error e, s) => (.error e, s)
        | (.ok children, s) =>
          match s.fetch id .symbolTable with
          | (.error e, s) => (.error (.lookup e), s)
          | (.ok registered, s) =>
            let adopt (heap : Heap) (c : Ref) : Heap :=
              match heap.table? c with
              | some t => heap.setBody c (.table { t with parent := some registered })
              | none => heap
            let s := { s with heap := children.foldl adopt s.heap }.readMeta r record
            match s.heap.table? r with
            | none => (.ok (), s)
            | some t =>
              (.ok (), s.updateBody r (.table { t with symbols := .ofList symbols, children }))

def restoreImage (s : Session) (r : Ref) (i : Image) (record : Json) :
    Except Error Unit × Session :=
  match (record.get? "layout").filter (!·.isNull) with
  | none => (.ok (), (s.readMeta r record).notify .changed r)
  | some j =>
    match Layout.ofJson? j with
    | none => (.error (.record .unreadable), s)
    | some l =>
      (.ok (), (s.readMeta r record).updateBody r (.image (i.restoreLayout l)))

def restoreSpace (s : Session) (r : Ref) (record : Json) : Except Error Unit × Session :=
  match arrayField record "images" with
  | .error e => (.error e, s)
  | .ok items =>
    match readEach (readId .image .imageId) s items with
    | (.error e, s) => (.error e, s)
    | (.ok images, s) => (.ok (), (s.readMeta r record).setBody r (.space images))

def restore (s : Session) (r : Ref) (record : Json) : Except Error Unit × Session :=
  match s.heap.get? r with
  | none => (.ok (), s)
  | some o =>
    match o.body with
    | .dataType _ => s.restoreType r record
    | .symbol sym => s.restoreSymbol r sym record
    | .table _ => s.restoreTable r o.id record
    | .image i => s.restoreImage r i record
    | .space _ => s.restoreSpace r record

end BinaryAtlas.Session
