import BinaryAtlas.Json.Basic
import BinaryAtlas.Text.Numeral

namespace BinaryAtlas

inductive OffsetKind where
  | canonical
  | file
  | relative
deriving DecidableEq

namespace OffsetKind

def text : OffsetKind → String
  | canonical => "canonical"
  | file => "file"
  | relative => "relative"

def name : OffsetKind → String
  | canonical => "Canonical"
  | file => "File"
  | relative => "Relative"

def rank : OffsetKind → Nat
  | canonical => 0
  | file => 1
  | relative => 2

def ofJson? (j : Json) : Option OffsetKind :=
  j.variant? ([canonical, file, relative].map fun k => (k.name, k))

end OffsetKind

def fileOffsetText (n : Nat) : String := "file:" ++ Text.marked n

end BinaryAtlas
