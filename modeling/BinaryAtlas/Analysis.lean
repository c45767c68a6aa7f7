import BinaryAtlas.Error
import BinaryAtlas.Section

namespace BinaryAtlas

structure Analysis where
  base : Nat
  entry : Nat
  size : Nat
  sections : List Section
deriving DecidableEq, Inhabited

namespace Analysis

def stop (a : Analysis) : Nat := Word.addSat a.base a.size

def firstOverlap? : List Section → Option (Section × Section)
  | s :: t :: rest => if s.overlaps t then some (s, t) else firstOverlap? (t :: rest)
  | _ => none

def ordered (a : Analysis) : List Section :=
  (a.sections.filter (!·.isEmpty)).mergeSort (fun s t => s.start ≤ t.start)

def validate (a : Analysis) : Except Malformed Unit :=
  match firstOverlap? a.ordered with
  | some (s, t) => .error (.inconsistent (.overlap s.name t.name))
  | none =>
    match a.sections.find? (fun s => a.stop < s.stop) with
    | some s => .error (.inconsistent (.pastImage s.name s.stop a.stop))
    | none => if a.entry < a.stop then .ok () else .error (.entryOutside a.entry a.stop)

def toJson (a : Analysis) : Json :=
  .obj [("base_address", .natural a.base), ("entry_point_offset", .natural a.entry),
    ("sections", .arr (a.sections.map Section.toJson)), ("virtual_size", .natural a.size)]

end Analysis

end BinaryAtlas
