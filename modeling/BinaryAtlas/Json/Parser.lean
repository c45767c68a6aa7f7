import BinaryAtlas.Json.Basic
import BinaryAtlas.Text.Numeral

/-!
Reading JSON text. Values may nest to any depth, since those that settings have no field for are
only passed over. A string whose escapes leave half of a surrogate pair alone is `Json.garbled`.
-/

namespace BinaryAtlas.Json.Parser

def isBlank (c : Char) : Bool := c == ' ' || c == '\n' || c == '\t' || c == '\r'

def skipBlanks (cs : List Char) : List Char := cs.dropWhile isBlank

def isDigit (c : Char) : Bool := '0' ≤ c && c ≤ '9'

def escape? : Char → Option Nat
  | '"' => some 0x22
  | '\\' => some 0x5C
  | '/' => some 0x2F
  | 'b' => some 0x08
  | 'f' => some 0x0C
  | 'n' => some 0x0A
  | 'r' => some 0x0D
  | 't' => some 0x09
  | _ => none

def units? (read : List Nat) : List Char → Option (List Nat × List Char)
  | [] => none
  | '"' :: rest => some (read.reverse, rest)
  | '\\' :: 'u' :: a :: b :: c :: d :: rest =>
    match Text.hexNumber? [a, b, c, d] with
    | some unit => units? (unit :: read) rest
    | none => none
  | '\\' :: e :: rest =>
    match escape? e with
    | some unit => units? (unit :: read) rest
    | none => none
  | c :: rest => if c.toNat < 0x20 then none else units? (c.toNat :: read) rest

def isHigh (unit : Nat) : Bool := 0xD800 ≤ unit && unit < 0xDC00

def isLow (unit : Nat) : Bool := 0xDC00 ≤ unit && unit < 0xE000

def join? (read : List Char) : List Nat → Option (List Char)
  | [] => some read.reverse
  | [unit] => if isHigh unit || isLow unit then none else some (Char.ofNat unit :: read).reverse
  | high :: low :: rest =>
    if isHigh high then
      if isLow low then
        join? (Char.ofNat (0x10000 + 0x400 * (high - 0xD800) + (low - 0xDC00)) :: read) rest
      else none
    else if isLow high then none
    else join? (Char.ofNat high :: read) (low :: rest)

def string? (cs : List Char) : Option (Option String × List Char) :=
  (units? [] cs).map fun (units, rest) => ((join? [] units).map String.ofList, rest)

def digits? (cs : List Char) : Option (List Char × List Char) :=
  match cs.takeWhile isDigit with
  | [] => none
  | ds => some (ds, cs.dropWhile isDigit)

def fraction? : List Char → Option (List Char × List Char)
  | '.' :: rest => (digits? rest).map fun (ds, rest) => ('.' :: ds, rest)
  | cs => some ([], cs)

def exponentSign : List Char → List Char × List Char
  | '+' :: rest => (['+'], rest)
  | '-' :: rest => (['-'], rest)
  | cs => ([], cs)

def exponent? : List Char → Option (List Char × List Char)
  | 'e' :: rest =>
    let (sign, rest) := exponentSign rest
    (digits? rest).map fun (ds, rest) => ('e' :: (sign ++ ds), rest)
  | 'E' :: rest =>
    let (sign, rest) := exponentSign rest
    (digits? rest).map fun (ds, rest) => ('E' :: (sign ++ ds), rest)
  | cs => some ([], cs)

def decimalValue (ds : List Char) : Nat := ds.foldl (fun n d => 10 * n + (d.toNat - 48)) 0

def unsigned? (cs : List Char) : Option (Json × List Char × List Char) := do
  let (whole, rest) ← digits? cs
  if whole.head? = some '0' ∧ whole.length ≠ 1 then none
  let (fraction, rest) ← fraction? rest
  let (exponent, rest) ← exponent? rest
  let literal := whole ++ fraction ++ exponent
  if fraction.isEmpty && exponent.isEmpty then
    some (.natural (decimalValue whole), literal, rest)
  else some (.number (String.ofList literal), literal, rest)

def number? : List Char → Option (Json × List Char)
  | '-' :: cs =>
    (unsigned? cs).map fun (_, literal, rest) => (.number (String.ofList ('-' :: literal)), rest)
  | cs => (unsigned? cs).map fun (j, _, rest) => (j, rest)

def literal? (word : String) (value : Json) (cs : List Char) : Option (Json × List Char) :=
  if cs.take word.length = word.toList then some (value, cs.drop word.length) else none

def ofMembers (members : List (Option String × Json)) : Json :=
  match members.mapM fun (key, value) => key.map fun k => (k, value) with
  | some fields => .obj fields
  | none => .garbled

mutual

def value? : Nat → List Char → Option (Json × List Char)
  | 0, _ => none
  | fuel + 1, cs =>
    match skipBlanks cs with
    | '\x7b' :: rest =>
      match skipBlanks rest with
      | '\x7d' :: rest => some (.obj [], rest)
      | rest => (members? fuel rest).map fun (ms, rest) => (ofMembers ms, rest)
    | '[' :: rest =>
      match skipBlanks rest with
      | ']' :: rest => some (.arr [], rest)
      | rest => (elements? fuel rest).map fun (js, rest) => (.arr js, rest)
    | '"' :: rest =>
      (string? rest).map fun (text, rest) => (text.elim .garbled .str, rest)
    | 't' :: rest => literal? "true" (.bool true) ('t' :: rest)
    | 'f' :: rest => literal? "false" (.bool false) ('f' :: rest)
    | 'n' :: rest => literal? "null" .null ('n' :: rest)
    | cs => number? cs

def elements? : Nat → List Char → Option (List Json × List Char)
  | 0, _ => none
  | fuel + 1, cs =>
    match value? fuel cs with
    | none => none
    | some (j, rest) =>
      match skipBlanks rest with
      | ']' :: rest => some ([j], rest)
      | ',' :: rest => (elements? fuel rest).map fun (js, rest) => (j :: js, rest)
      | _ => none

def members? : Nat → List Char → Option (List (Option String × Json) × List Char)
  | 0, _ => none
  | fuel + 1, cs =>
    match skipBlanks cs with
    | '"' :: rest =>
      match string? rest with
      | none => none
      | some (key, rest) =>
        match skipBlanks rest with
        | ':' :: rest =>
          match value? fuel rest with
          | none => none
          | some (j, rest) =>
            match skipBlanks rest with
            | '\x7d' :: rest => some ([(key, j)], rest)
            | ',' :: rest => (members? fuel rest).map fun (ms, rest) => ((key, j) :: ms, rest)
            | _ => none
        | _ => none
    | _ => none

end

end Parser

/-- The value of a text that holds one value and blanks. Two calls at most read no character
before the next one does, so twice the length is fuel enough. -/
def ofText? (s : String) : Option Json :=
  match Parser.value? (2 * s.toList.length + 2) s.toList with
  | some (j, rest) => if (Parser.skipBlanks rest).isEmpty then some j else none
  | none => none

end BinaryAtlas.Json
