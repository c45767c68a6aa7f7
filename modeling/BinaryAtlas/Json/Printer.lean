import BinaryAtlas.Json.Basic
import BinaryAtlas.Text.Numeral

namespace BinaryAtlas.Json

def escaped (c : Char) : String :=
  match c with
  | '"' => "\\\""
  | '\\' => "\\\\"
  | '\x08' => "\\b"
  | '\x0c' => "\\f"
  | '\n' => "\\n"
  | '\r' => "\\r"
  | '\t' => "\\t"
  | c => if c.toNat < 0x20 then "\\u" ++ Text.hexPadded 4 c.toNat else String.singleton c

def quoted (s : String) : String := "\"" ++ String.join (s.toList.map escaped) ++ "\""

mutual

def compact : Json → String
  | .null => "null"
  | .bool b => if b then "true" else "false"
  | .natural n => Text.decimal n
  | .number literal => literal
  | .str s => quoted s
  | .arr items => "[" ++ ",".intercalate (compactItems items) ++ "]"
  | .obj fields => "\x7b" ++ ",".intercalate (compactFields fields) ++ "\x7d"
  | .garbled => "null"

def compactItems : List Json → List String
  | [] => []
  | j :: rest => compact j :: compactItems rest

def compactFields : List (String × Json) → List String
  | [] => []
  | (k, j) :: rest => (quoted k ++ ":" ++ compact j) :: compactFields rest

end

def spread (opening closing : String) (depth : Nat) (entries : List String) : String :=
  let inner := "\n" ++ Text.blanks (2 * (depth + 1))
  match entries with
  | [] => opening ++ closing
  | entries =>
    opening ++ inner ++ ("," ++ inner).intercalate entries ++ "\n" ++ Text.blanks (2 * depth)
      ++ closing

mutual

def prettyAt (depth : Nat) : Json → String
  | .arr items => spread "[" "]" depth (prettyItems depth items)
  | .obj fields => spread "\x7b" "\x7d" depth (prettyFields depth fields)
  | j => compact j

def prettyItems (depth : Nat) : List Json → List String
  | [] => []
  | j :: rest => prettyAt (depth + 1) j :: prettyItems depth rest

def prettyFields (depth : Nat) : List (String × Json) → List String
  | [] => []
  | (k, j) :: rest => (quoted k ++ ": " ++ prettyAt (depth + 1) j) :: prettyFields depth rest

end

def pretty (j : Json) : String := prettyAt 0 j

end BinaryAtlas.Json
