import BinaryAtlas.Heap
import BinaryAtlas.Nesting
import BinaryAtlas.Observer
import BinaryAtlas.Registry

namespace BinaryAtlas

structure Session where
  config : Config := {}
  heap : Heap := .empty
  registry : Registry := {}
  chain : Chain Observer := {}
  spent : List Nat := []
  analysers : AnalyserTable := []
  disk : Disk := {}
  handles : List (String × Ref) := []
  /-- The identifiers that are made up, and how many of them were so far. -/
  supply : Nat → Uuid
  issued : Nat := 0
  log : List Note := []

namespace Session

def initial (config : Config) (supply : Nat → Uuid) : Session :=
  { config, analysers := AnalyserTable.initial config.analysis, supply }

def live (s : Session) : Registry.Liveness := s.heap.class?

def handle? (s : Session) (name : String) : Option Ref := s.handles.lookup name

def bind (s : Session) (name : String) (r : Ref) : Session :=
  { s with handles := (name, r) :: s.handles.filter (·.1 != name) }

def unbind (s : Session) (name : String) : Session :=
  { s with handles := s.handles.filter (·.1 != name) }

def settle (s : Session) : Session :=
  { s with heap := s.heap.release (s.handles.map (·.2)) }

def identify (s : Session) : Option Uuid → Uuid × Session
  | some id => (id, s)
  | none => (s.supply s.issued, { s with issued := s.issued + 1 })

def write (s : Session) (n : Note) : Session := { s with log := s.log ++ [n] }

def fetch (s : Session) (id : HashId) (c : ObjectClass) : Except LookupError Ref × Session :=
  (s.registry.getAs s.live id c, { s with registry := s.registry.forget s.live id })

def find (s : Session) (id : HashId) : Except LookupError Ref × Session :=
  (match s.registry.get? s.live id with
    | some r => .ok r
    | none => .error (.notFound id),
   { s with registry := s.registry.forget s.live id })

def resolve (s : Session) (id : HashId) : Option TypeKind :=
  match s.registry.getAs s.live id .dataType with
  | .ok r => s.heap.kind? r
  | .error _ => none

def sizeOf (s : Session) (type : Ref) : Nat :=
  ((s.heap.kind? type).map
    (TypeKind.sizeWithin s.resolve s.config.analysis.pointerSize TypeKind.maxHops)).getD 0

def extent (s : Session) (symbol : Ref) : Option Nat :=
  match s.heap.symbol? symbol with
  | none => none
  | some sym =>
    let size := s.sizeOf sym.type
    if size = 0 then none else some size

def sizeReads (s : Session) (type : Ref) : List HashId :=
  ((s.heap.kind? type).map (TypeKind.consulted s.resolve TypeKind.maxHops)).getD []

def measured (s : Session) (types : List Ref) : Session :=
  { s with registry := (types.flatMap s.sizeReads).foldl (Registry.forget s.live) s.registry }

def surveyed (s : Session) (symbols : List Ref) : Session :=
  s.measured (symbols.filterMap fun r => (s.heap.symbol? r).map (·.type))

def withId? (s : Session) (refs : List Ref) (id : HashId) : Option Ref :=
  refs.find? fun r => s.heap.id? r == some id

def permanent (s : Session) : List Ref :=
  (s.registry.objects s.live).filter fun r => ((s.heap.get? r).map (!·.temporary)).getD false

end Session

end BinaryAtlas
