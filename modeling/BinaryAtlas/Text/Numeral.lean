import BinaryAtlas.Bytes

namespace BinaryAtlas.Text

def hex (n : Nat) : String := String.ofList (Nat.toDigits 16 n)

def decimal (n : Nat) : String := String.ofList (Nat.toDigits 10 n)

def marked (n : Nat) : String := "0x" ++ hex n

def padLeft (width : Nat) (fill : Char) (s : String) : String :=
  String.ofList (List.replicate (width - s.length) fill) ++ s

def padRight (width : Nat) (s : String) : String :=
  s ++ String.ofList (List.replicate (width - s.length) ' ')

def hexPadded (width n : Nat) : String := padLeft width '0' (hex n)

def markedPadded (width n : Nat) : String := "0x" ++ hexPadded (width - 2) n

def blanks (n : Nat) : String := String.ofList (List.replicate n ' ')

def hexDigit (n : Nat) : Char := (Nat.toDigits 16 n).headD '0'

def hexBytes (data : Bytes) : String :=
  String.ofList (data.flatMap fun b => [hexDigit (b.toNat / 16), hexDigit (b.toNat % 16)])

def hexValue? (c : Char) : Option Nat :=
  if '0' ≤ c ∧ c ≤ '9' then some (c.toNat - 48)
  else if 'a' ≤ c ∧ c ≤ 'f' then some (c.toNat - 87)
  else if 'A' ≤ c ∧ c ≤ 'F' then some (c.toNat - 55)
  else none

def hexNumber? (digits : List Char) : Option Nat :=
  digits.foldl (fun acc c => do pure (16 * (← acc) + (← hexValue? c))) (some 0)

def bytesOfDigits? (read : Bytes) : List Char → Option Bytes
  | [] => some read.reverse
  | [_] => none
  | high :: low :: rest =>
    match hexValue? high, hexValue? low with
    | some h, some l => bytesOfDigits? (UInt8.ofNat (16 * h + l) :: read) rest
    | _, _ => none

def bytesOfHex? (s : String) : Option Bytes := bytesOfDigits? [] s.toList

end BinaryAtlas.Text
