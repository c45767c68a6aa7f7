import BinaryAtlas.Json.Basic
import BinaryAtlas.Text.Numeral

namespace BinaryAtlas

structure Perms where
  bits : UInt8
deriving DecidableEq, Inhabited

namespace Perms

def of (r w x : Bool) : Perms :=
  ⟨(if r then 1 else 0) ||| (if w then 2 else 0) ||| (if x then 4 else 0)⟩

def readable (p : Perms) : Bool := p.bits &&& 1 != 0

def writable (p : Perms) : Bool := p.bits &&& 2 != 0

def executable (p : Perms) : Bool := p.bits &&& 4 != 0

def text (p : Perms) : String :=
  String.ofList [if p.readable then 'r' else '-', if p.writable then 'w' else '-',
    if p.executable then 'x' else '-']

end Perms

inductive SectionType where
  | none
  | code
  | data
  | uninitialized
deriving DecidableEq, Inhabited

namespace SectionType

def text : SectionType → String
  | none => "none"
  | code => "code"
  | data => "data"
  | uninitialized => "uninitialized"

def name : SectionType → String
  | none => "None"
  | code => "Code"
  | data => "Data"
  | uninitialized => "Uninitialized"

def ofJson? (j : Json) : Option SectionType :=
  j.variant? ([none, code, data, uninitialized].map fun t => (t.name, t))

end SectionType

structure Section where
  name : String
  type : SectionType
  perms : Perms
  relative : Nat
  virtualSize : Nat
  rawPointer : Nat
  rawSize : Nat
  start : Nat
  stop : Nat
deriving DecidableEq, Inhabited

namespace Section

def build? (name : String) (type : SectionType) (perms : Perms)
    (base relative virtualSize rawPointer rawSize : Nat) : Option Section := do
  let size := if virtualSize = 0 then rawSize else virtualSize
  let start ← Word.add? base relative
  let stop ← Word.add? start size
  let _ ← Word.add? rawPointer rawSize
  pure {
    name, type, perms, relative
    virtualSize := size
    rawPointer, rawSize, start, stop }

def last (s : Section) : Nat := (Word.sub? s.stop 1).getD s.start

def isEmpty (s : Section) : Bool := s.start == s.stop

def rawLength (s : Section) : Nat := min s.rawSize s.virtualSize

def rawStop (s : Section) : Nat := s.rawPointer + s.rawLength

def contains (s : Section) (offset : Nat) : Bool := s.start ≤ offset && offset < s.stop

def containsRaw (s : Section) (file : Nat) : Bool := s.rawPointer ≤ file && file < s.rawStop

def overlaps (s t : Section) : Bool :=
  !s.isEmpty && !t.isEmpty && decide (s.start < t.stop) && decide (t.start < s.stop)

def toOffset? (s : Section) (file : Nat) : Option Nat :=
  if s.containsRaw file then Word.add? s.start (file - s.rawPointer) else none

def toFile? (s : Section) (offset : Nat) : Option Nat :=
  if s.contains offset && decide (offset - s.start < s.rawLength) then
    some (s.rawPointer + (offset - s.start))
  else none

def text (s : Section) : String :=
  "Section '" ++ s.name ++ "' (" ++ s.type.text ++ ", " ++ s.perms.text ++ ", "
    ++ Text.marked s.start ++ ".." ++ Text.marked s.stop ++ ")"

def toJson (s : Section) : Json :=
  .obj [("end_offset", .natural s.stop), ("min_offset", .natural s.start), ("name", .str s.name),
    ("perms", .obj [("bits", .natural s.perms.bits.toNat)]),
    ("pointer_to_raw_data", .natural s.rawPointer),
    ("rel_virtual_address", .natural s.relative), ("section_type", .str s.type.name),
    ("size_of_raw_data", .natural s.rawSize), ("virtual_size", .natural s.virtualSize)]

def permsOfJson? (j : Json) : Option Perms := do
  match ← j.fields? ["bits"] with
  | [bits] =>
    let n ← bits.word?
    if n < 256 then some ⟨UInt8.ofNat n⟩ else none
  | _ => none

def ofJson? (j : Json) : Option Section := do
  match ← j.fields? ["name", "section_type", "perms", "rel_virtual_address", "virtual_size",
      "pointer_to_raw_data", "size_of_raw_data", "min_offset", "end_offset"] with
  | [name, type, perms, relative, virtualSize, rawPointer, rawSize, start, stop] =>
    pure {
      name := ← name.str?
      type := ← SectionType.ofJson? type
      perms := ← permsOfJson? perms
      relative := ← relative.word?
      virtualSize := ← virtualSize.word?
      rawPointer := ← rawPointer.word?
      rawSize := ← rawSize.word?
      start := ← start.word?
      stop := ← stop.word? }
  | _ => none

end Section

end BinaryAtlas
