import BinaryAtlas.Analyser
import BinaryAtlas.Image.Layout
import BinaryAtlas.Store.Basic
import BinaryAtlas.SymbolTable

namespace BinaryAtlas

structure Image where
  store : Store
  analyser : Analyser
  globals : Ref
  layout : Option Layout := none

inductive Place where
  | found (s : Section)
  | unmapped
  | outside
deriving DecidableEq

namespace Image

def analyse (i : Image) : Except Malformed Image := do
  let a ← i.analyser.run i.store.bytes
  a.validate
  pure { i with layout := some (Layout.ofAnalysis a i.store.bytes) }

def isAnalysed (i : Image) : Bool := i.layout.isSome

def base (i : Image) : Nat := (i.layout.map (·.base)).getD 0

def entry (i : Image) : Nat := (i.layout.map (·.entry)).getD 0

def size (i : Image) : Nat := (i.layout.map (·.stop)).getD i.store.size

def sections (i : Image) : List Section := (i.layout.map (·.sections)).getD []

def contains (i : Image) (offset : Nat) : Bool := decide (offset < i.size)

def place (i : Image) (offset : Nat) : Place :=
  if i.contains offset then
    match i.layout.bind (·.sections.at? offset) with
    | some s => .found s
    | none => .unmapped
  else .outside

def toOffset (i : Image) (file : Nat) : Except Error Nat :=
  match i.layout with
  | some l => l.sections.toOffset file
  | none => if file < i.store.size then .ok file else .error (.unmapped file .file)

def toFile (i : Image) (offset : Nat) : Except Error Nat :=
  match i.layout with
  | some l => l.sections.toFile offset
  | none => if offset < i.store.size then .ok offset else .error (.unmapped offset .canonical)

/-- The file offset of the first of `len` bytes that lie in the raw data of one section. Of a
range only the first and the last offset need to be looked at. -/
def rangeStart (l : Layout) (offset len : Nat) : Except Error Nat := do
  let unmapped (value : Nat) : Error := .unmapped value .canonical
  match l.sections.at? offset with
  | none => throw (unmapped offset)
  | some s =>
    match s.toFile? offset with
    | none => throw (unmapped offset)
    | some start =>
      if len = 0 then pure start
      else
        match Word.add? offset (len - 1) with
        | none => throw (unmapped offset)
        | some last => if (s.toFile? last).isSome then pure start else throw (unmapped last)

def read (i : Image) (offset len : Nat) : Except Error Bytes :=
  let start := match i.layout with
    | some l => rangeStart l offset len
    | none => .ok offset
  match start with
  | .error e => .error (.during "read" offset e)
  | .ok start =>
    (i.store.read start len).mapError fun e => .during "read" offset (.store e)

def readRaw (i : Image) (file len : Nat) : Except Error Bytes :=
  (i.store.read file len).mapError .store

def writeRaw (i : Image) (file : Nat) (data : Bytes) : Except Error Unit × Image :=
  let (written, store) := i.store.write file data
  (written.mapError fun e => .during "write" file (.store e), { i with store })

def flush (i : Image) (disk : Disk) : Except Error Unit × Image × Disk :=
  let (flushed, store, disk) := i.store.flush disk
  (flushed.mapError .store, { i with store }, disk)

def restoreLayout (i : Image) (l : Layout) : Image :=
  if Digest.contentHash i.store.bytes = l.contentHash then { i with layout := some l } else i

end Image

end BinaryAtlas
