import BinaryAtlas.PortableExecutable.Analysis
import BinaryAtlas.Text.Quoted

namespace BinaryAtlas

structure Analyser where
  name : String
  run : Bytes → Except Malformed Analysis

namespace Analyser

def portableExecutable (config : AnalysisConfig) : Analyser :=
  ⟨"PE", PortableExecutable.analyse config⟩

def flatAnalysis (base : Nat) (data : Bytes) : Except Malformed Analysis :=
  if data.isEmpty then .error (.truncated 1 0)
  else
    match Section.build? "flat" .code (Perms.of true false true) base 0 data.length 0
        data.length with
    | some s => .ok { base, entry := base, size := data.length, sections := [s] }
    | none => .error (.inconsistent (.bytesOverflow data.length base))

def flat (base : Nat) : Analyser := ⟨"Flat", flatAnalysis base⟩

def canned (name : String) (answer : Except Malformed Analysis) : Analyser := ⟨name, fun _ => answer⟩

end Analyser

abbrev AnalyserTable := List Analyser

namespace AnalyserTable

def register (a : Analyser) : AnalyserTable → AnalyserTable
  | [] => [a]
  | b :: rest =>
    if a.name < b.name then a :: b :: rest
    else if a.name = b.name then a :: rest
    else b :: register a rest

def initial (config : AnalysisConfig) : AnalyserTable :=
  register (.flat 0) (register (.portableExecutable config) [])

def get? (t : AnalyserTable) (name : String) : Option Analyser := t.find? (·.name == name)

def names (t : AnalyserTable) : List String := t.map (·.name)

def text (t : AnalyserTable) : String :=
  Text.described "AnalyserRegistry"
    [("names", "[" ++ ", ".intercalate (t.names.map Text.quoted) ++ "]")]

end AnalyserTable

end BinaryAtlas
