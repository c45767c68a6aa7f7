import BinaryAtlas.Json.Parser
import BinaryAtlas.Json.Printer

namespace BinaryAtlas

structure StoreConfig where
  maxFileSize : Nat := 536870912
  growableMemory : Bool := true
  maxMemorySize : Nat := 536870912
deriving DecidableEq, Inhabited

structure AnalysisConfig where
  maxSections : Nat := 96
  clampRawData : Bool := false
  pointerSize : Nat := 8
deriving DecidableEq, Inhabited

structure Config where
  store : StoreConfig := {}
  analysis : AnalysisConfig := {}
deriving DecidableEq, Inhabited

def StoreConfig.ofJson? (j : Json) : Option StoreConfig := do
  match ← j.slots? ["max_file_size", "growable_memory", "max_memory_size"] with
  | [a, b, c] =>
    let initial : StoreConfig := {}
    pure {
      maxFileSize := ← Json.orDefault Json.word? initial.maxFileSize a
      growableMemory := ← Json.orDefault Json.bool? initial.growableMemory b
      maxMemorySize := ← Json.orDefault Json.word? initial.maxMemorySize c }
  | _ => none

def StoreConfig.toJson (c : StoreConfig) : Json :=
  .obj [("max_file_size", .natural c.maxFileSize), ("growable_memory", .bool c.growableMemory),
    ("max_memory_size", .natural c.maxMemorySize)]

def AnalysisConfig.ofJson? (j : Json) : Option AnalysisConfig := do
  match ← j.slots? ["max_sections", "allow_raw_data_past_eof", "pointer_size"] with
  | [a, b, c] =>
    let initial : AnalysisConfig := {}
    pure {
      maxSections := ← Json.orDefault Json.word? initial.maxSections a
      clampRawData := ← Json.orDefault Json.bool? initial.clampRawData b
      pointerSize := ← Json.orDefault Json.word? initial.pointerSize c }
  | _ => none

def AnalysisConfig.toJson (c : AnalysisConfig) : Json :=
  .obj [("max_sections", .natural c.maxSections), ("allow_raw_data_past_eof", .bool c.clampRawData),
    ("pointer_size", .natural c.pointerSize)]

namespace Config

def ofJson? (j : Json) : Option Config := do
  match ← j.slots? ["io", "analysis"] with
  | [a, b] =>
    pure {
      store := ← Json.orDefault StoreConfig.ofJson? {} a
      analysis := ← Json.orDefault AnalysisConfig.ofJson? {} b }
  | _ => none

def toJson (c : Config) : Json :=
  .obj [("io", c.store.toJson), ("analysis", c.analysis.toJson)]

def ofText? (s : String) : Option Config := (Json.ofText? s).bind ofJson?

def toText (c : Config) : String := c.toJson.pretty

end Config

end BinaryAtlas
