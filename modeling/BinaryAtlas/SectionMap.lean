import BinaryAtlas.Error
import BinaryAtlas.Section

namespace BinaryAtlas

abbrev SectionMap := List Section

namespace SectionMap

def byName? (m : SectionMap) (name : String) : Option Section := m.find? (·.name == name)

def at? (m : SectionMap) (offset : Nat) : Option Section := m.find? (·.contains offset)

def atFile? (m : SectionMap) (file : Nat) : Option Section := m.find? (·.containsRaw file)

def toOffset (m : SectionMap) (file : Nat) : Except Error Nat :=
  match (m.atFile? file).bind (·.toOffset? file) with
  | some offset => .ok offset
  | none => .error (.unmapped file .file)

def toFile (m : SectionMap) (offset : Nat) : Except Error Nat :=
  match (m.at? offset).bind (·.toFile? offset) with
  | some file => .ok file
  | none => .error (.unmapped offset .canonical)

end SectionMap

end BinaryAtlas
