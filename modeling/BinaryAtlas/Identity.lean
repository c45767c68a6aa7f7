import BinaryAtlas.Digest
import BinaryAtlas.Text.Utf8

namespace BinaryAtlas

structure Uuid where
  value : Nat
deriving DecidableEq, Inhabited

namespace Uuid

def text (u : Uuid) : String :=
  let digits := (Text.hexPadded 32 u.value).toList
  let group (start len : Nat) : String := String.ofList ((digits.drop start).take len)
  "-".intercalate [group 0 8, group 8 4, group 12 4, group 16 4, group 20 12]

def hyphenated? (cs : List Char) : Option (List Char) :=
  if cs.length = 36 ∧ cs[8]? = some '-' ∧ cs[13]? = some '-' ∧ cs[18]? = some '-'
      ∧ cs[23]? = some '-' then
    some (cs.take 8 ++ (cs.drop 9).take 4 ++ (cs.drop 14).take 4 ++ (cs.drop 19).take 4
      ++ cs.drop 24)
  else none

def ofText? (s : String) : Option Uuid := do
  let cs := s.toList
  let digits ←
    if cs.length = 32 then some cs
    else if cs.length = 38 ∧ cs.head? = some '\x7b' ∧ cs.getLast? = some '\x7d' then
      hyphenated? ((cs.drop 1).take 36)
    else if (cs.take 9).map Char.toLower = "urn:uuid:".toList then hyphenated? (cs.drop 9)
    else hyphenated? cs
  pure ⟨← Text.hexNumber? digits⟩

end Uuid

abbrev HashId := Nat

namespace HashId

def of (className : String) (id : Uuid) : HashId :=
  Bytes.ofBigEndian ((Digest.sha256 (Text.Utf8.encode (className ++ ":" ++ id.text))).take 8)

def text (h : HashId) : String := Text.hexPadded 16 h

end HashId

end BinaryAtlas
