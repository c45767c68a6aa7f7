import BinaryAtlas.Analysis
import BinaryAtlas.PortableExecutable.SectionHeader

namespace BinaryAtlas.PortableExecutable

def sections (config : AnalysisConfig) (data : Bytes) (h : Headers) :
    Except Malformed (List Section) := do
  let count := h.nt.coff.sectionCount
  if config.maxSections < count then throw (.inconsistent (.tooMany count config.maxSections))
  let headers ← SectionHeader.readAll data h.tableOffset count
  headers.mapM fun header => header.toSection h.nt.optional.imageBase data.length config

def sectionsStop (sections : List Section) : Nat :=
  (sections.map fun s => Word.addSat s.relative s.virtualSize).foldl max 0

/-- The declared size of the image, or the aligned end of the sections if that is larger. -/
def imageSize (optional : OptionalHeader) (sections : List Section) : Nat :=
  max optional.imageSize (Word.alignUp (sectionsStop sections) optional.sectionAlignment)

def analyse (config : AnalysisConfig) (data : Bytes) : Except Malformed Analysis := do
  let h ← Headers.read data
  let optional := h.nt.optional
  let sections ← sections config data h
  let size := imageSize optional sections
  if (Word.add? optional.imageBase size).isNone then
    throw (.inconsistent (.imageOverflow size optional.imageBase))
  let result : Analysis := {
    base := optional.imageBase
    entry := Word.addSat optional.imageBase optional.entry
    size
    sections }
  result.validate
  pure result

end BinaryAtlas.PortableExecutable
