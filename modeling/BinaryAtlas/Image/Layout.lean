import BinaryAtlas.Analysis
import BinaryAtlas.Digest
import BinaryAtlas.SectionMap

namespace BinaryAtlas

structure Layout where
  base : Nat
  entry : Nat
  stop : Nat
  sections : SectionMap
  contentHash : String
deriving DecidableEq, Inhabited

namespace Layout

def ofAnalysis (a : Analysis) (content : Bytes) : Layout where
  base := a.base
  entry := a.entry
  stop := a.stop
  sections := a.sections
  contentHash := Digest.contentHash content

def toJson (l : Layout) : Json :=
  .obj [("base_address", .natural l.base), ("content_hash", .str l.contentHash),
    ("end_offset", .natural l.stop), ("entry_point_offset", .natural l.entry),
    ("sections", .arr (l.sections.map Section.toJson))]

def ofJson? (j : Json) : Option Layout := do
  match ← j.fields? ["base_address", "entry_point_offset", "end_offset", "sections",
      "content_hash"] with
  | [base, entry, stop, sections, contentHash] =>
    pure {
      base := ← base.word?
      entry := ← entry.word?
      stop := ← stop.word?
      sections := ← (← sections.arr?).mapM Section.ofJson?
      contentHash := ← contentHash.str? }
  | _ => none

end Layout

end BinaryAtlas
