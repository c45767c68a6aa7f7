import BinaryAtlas.Bytes

namespace BinaryAtlas.Text.Utf8

def continuation (lead : Nat) : List (Nat × Nat) :=
  if lead < 0xC2 then []
  else if lead ≤ 0xDF then [(0x80, 0xBF)]
  else if lead = 0xE0 then [(0xA0, 0xBF), (0x80, 0xBF)]
  else if lead = 0xED then [(0x80, 0x9F), (0x80, 0xBF)]
  else if lead ≤ 0xEF then [(0x80, 0xBF), (0x80, 0xBF)]
  else if lead = 0xF0 then [(0x90, 0xBF), (0x80, 0xBF), (0x80, 0xBF)]
  else if lead ≤ 0xF3 then [(0x80, 0xBF), (0x80, 0xBF), (0x80, 0xBF)]
  else if lead = 0xF4 then [(0x80, 0x8F), (0x80, 0xBF), (0x80, 0xBF)]
  else []

def matching : List (Nat × Nat) → Bytes → Nat
  | (low, high) :: bounds, b :: rest =>
    if low ≤ b.toNat ∧ b.toNat ≤ high then matching bounds rest + 1 else 0
  | _, _ => 0

def leadValue (lead following : Nat) : Nat :=
  lead - (if following = 1 then 0xC0 else if following = 2 then 0xE0 else 0xF0)

def replacement : Char := Char.ofNat 0xFFFD

def front (lead : UInt8) (rest : Bytes) : Char × Nat :=
  if lead.toNat < 0x80 then (Char.ofNat lead.toNat, 0)
  else
    let bounds := continuation lead.toNat
    let taken := matching bounds rest
    if bounds.length = taken ∧ taken ≠ 0 then
      (Char.ofNat ((rest.take taken).foldl (fun v b => 64 * v + (b.toNat - 0x80))
        (leadValue lead.toNat taken)), taken)
    else (replacement, taken)

def characters : Bytes → List Char
  | [] => []
  | lead :: rest =>
    let next := front lead rest
    next.1 :: characters (rest.drop next.2)
termination_by data => data.length
decreasing_by
  simp only [List.length_drop, List.length_cons]
  omega

def decode (data : Bytes) : String := String.ofList (characters data)

def encode (s : String) : Bytes := s.toUTF8.toList

end BinaryAtlas.Text.Utf8
