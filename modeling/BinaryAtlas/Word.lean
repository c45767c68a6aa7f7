/-!
Arithmetic on offsets. Offsets and sizes are natural numbers below `Word.limit`; the operations
here either stay below it, say that they cannot, or stop at the largest word.
-/

namespace BinaryAtlas.Word

def limit : Nat := 18446744073709551616

def top : Nat := limit - 1

def add? (a b : Nat) : Option Nat := if a + b < limit then some (a + b) else none

def sub? (a b : Nat) : Option Nat := if b ≤ a then some (a - b) else none

def addSat (a b : Nat) : Nat := min (a + b) top

def mulSat (a b : Nat) : Nat := min (a * b) top

def alignUp (value alignment : Nat) : Nat :=
  if alignment = 0 then value else mulSat ((value + (alignment - 1)) / alignment) alignment

theorem add?_eq_some_iff {a b c : Nat} : add? a b = some c ↔ a + b = c ∧ c < limit := by
  unfold add?
  split <;> simp <;> omega

theorem add?_eq_none_iff {a b : Nat} : add? a b = none ↔ limit ≤ a + b := by
  unfold add?
  split <;> simp <;> omega

theorem sub?_eq_some_iff {a b c : Nat} : sub? a b = some c ↔ b ≤ a ∧ a - b = c := by
  unfold sub?
  split <;> simp <;> omega

theorem addSat_eq_add {a b : Nat} (h : a + b < limit) : addSat a b = a + b := by
  simp only [addSat, top]
  omega

theorem addSat_le_top (a b : Nat) : addSat a b ≤ top := Nat.min_le_right _ _

end BinaryAtlas.Word
