import BinaryAtlas.Session.Notify

namespace BinaryAtlas.Session

def enter (s : Session) (o : Object) : Ref × Session :=
  match s.registry.insert s.live o.id o.classOf s.heap.next with
  | (.existing r, registry) => (r, { s with registry })
  | (.inserted, registry) =>
    let (r, heap) := s.heap.alloc o
    (r, { s with registry, heap }.notify .added r)

def create (s : Session) (id : Option Uuid) (name : String) (body : Body) : Ref × Session :=
  let (uuid, s) := s.identify id
  s.enter (Object.create uuid name body)

def reregister (s : Session) (r : Ref) : Ref × Session :=
  match s.heap.get? r with
  | none => (r, s)
  | some o =>
    match s.registry.insert s.live o.id o.classOf r with
    | (.existing old, registry) => (old, { s with registry })
    | (.inserted, registry) => (r, { s with registry }.notify .added r)

def discard (s : Session) (id : HashId) : Except LookupError Bool × Session :=
  match s.find id with
  | (.error e, s) => (.error e, s)
  | (.ok r, s) =>
    if ((s.heap.get? r).map (·.temporary)).getD false then
      match s.unregister id with
      | (.error e, s) => (.error e, s)
      | (.ok _, s) => (.ok true, s)
    else (.ok false, s)

def analyse (s : Session) (r : Ref) : Except Error Unit × Session :=
  match s.heap.image? r with
  | none => (.ok (), s)
  | some i =>
    match i.analyse with
    | .ok i => (.ok (), s.updateBody r (.image i))
    | .error e => (.error (.during "analyse" 0 (.malformed e)), s)

inductive Source where
  | memory (store : MemoryStore)
  | file (path : String)

def memorySource (s : Session) (content : Bytes) : Source :=
  .memory { MemoryStore.ofConfig s.config.store with bytes := content }

def openSource (s : Session) : Source → Except Error Store
  | .memory store => .ok (.memory store)
  | .file path =>
    match FileStore.ofDisk s.disk path s.config.store with
    | .ok store => .ok (.file store)
    | .error e => .error (.store e)

inductive AnalyserChoice where
  | named (name : String)
  | given (analyser : Analyser)

def chooseAnalyser (s : Session) : AnalyserChoice → Except Error Analyser
  | .given a => .ok a
  | .named name =>
    match s.analysers.get? name with
    | some a => .ok a
    | none => .error (.unknownAnalyser name)

def makeImage (s : Session) (id : Option Uuid) (name : String) (globals : Ref) (source : Source)
    (choice : AnalyserChoice) : Except Error Ref × Session :=
  match s.openSource source with
  | .error e => (.error e, s)
  | .ok store =>
    match s.chooseAnalyser choice with
    | .error e => (.error e, s)
    | .ok analyser =>
      let (r, s) := s.create id name (.image { store, analyser, globals })
      (.ok r, s)

def unregisterObject (s : Session) (r : Ref) : Session :=
  match s.heap.id? r with
  | some id => (s.unregister id).2
  | none => s

/-- Makes an image with a table for its symbols and analyses it. If that fails both are taken out
of the registry again. -/
def createImage (s : Session) (name analyser : String) (source : Source) :
    Except Error Ref × Session :=
  match s.openSource source with
  | .error e => (.error e, s)
  | .ok store =>
    match s.chooseAnalyser (.named analyser) with
    | .error e => (.error e, s)
    | .ok analyser =>
      let (globals, s) := s.create none (name ++ ".global") (.table {})
      let (image, s) := s.create none name (.image { store, analyser, globals })
      match s.analyse image with
      | (.ok _, s) => (.ok image, s)
      | (.error e, s) => (.error e, (s.unregisterObject image).unregisterObject globals)

end BinaryAtlas.Session
