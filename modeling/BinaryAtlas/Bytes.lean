namespace BinaryAtlas

abbrev Bytes := List UInt8

namespace Bytes

def window (data : Bytes) (start len : Nat) : Bytes := (data.drop start).take len

def splice (data : Bytes) (start : Nat) (patch : Bytes) : Bytes :=
  data.take start ++ patch ++ data.drop (start + patch.length)

def extend (data : Bytes) (size : Nat) : Bytes :=
  data ++ List.replicate (size - data.length) 0

def ofLittleEndian : Bytes → Nat
  | [] => 0
  | b :: rest => b.toNat + 256 * ofLittleEndian rest

def ofBigEndian (data : Bytes) : Nat := ofLittleEndian data.reverse

def field (data : Bytes) (start width : Nat) : Nat := ofLittleEndian (data.window start width)

theorem length_window {data : Bytes} {start len : Nat} (h : start + len ≤ data.length) :
    (data.window start len).length = len := by
  simp [window]
  omega

theorem length_splice {data patch : Bytes} {start : Nat} (h : start + patch.length ≤ data.length) :
    (data.splice start patch).length = data.length := by
  simp [splice]
  omega

theorem getElem?_splice {data patch : Bytes} {start : Nat}
    (h : start + patch.length ≤ data.length) (i : Nat) :
    (data.splice start patch)[i]? =
      if start ≤ i ∧ i < start + patch.length then patch[i - start]? else data[i]? := by
  have hlen : (data.take start).length = start := by
    simp only [List.length_take]
    omega
  rw [splice, List.append_assoc, List.getElem?_append, hlen]
  by_cases hbefore : i < start
  · rw [if_pos hbefore, if_neg (by omega), List.getElem?_take_of_lt hbefore]
  · rw [if_neg hbefore, List.getElem?_append]
    by_cases hin : i < start + patch.length
    · rw [if_pos (by omega), if_pos (by omega)]
    · rw [if_neg (by omega), if_neg (by omega), List.getElem?_drop]
      congr 1
      omega

theorem length_extend (data : Bytes) (size : Nat) :
    (data.extend size).length = max data.length size := by
  simp [extend]
  omega

theorem ofLittleEndian_lt (data : Bytes) : ofLittleEndian data < Nat.pow 256 data.length := by
  induction data with
  | nil => exact Nat.one_pos
  | cons b rest ih =>
    have hb := b.toNat_lt
    simp only [ofLittleEndian, List.length_cons, Nat.pow, Nat.mul_eq]
    omega

theorem window_window (data : Bytes) (start len skip width : Nat) (h : skip + width ≤ len) :
    (data.window start len).window skip width = data.window (start + skip) width := by
  simp only [window, List.drop_take, List.drop_drop, List.take_take]
  rw [Nat.min_eq_left (by omega)]

theorem field_window (data : Bytes) (start len skip width : Nat) (h : skip + width ≤ len) :
    (data.window start len).field skip width = data.field (start + skip) width := by
  rw [field, window_window data start len skip width h, field]

theorem field_lt (data : Bytes) (start width : Nat) :
    data.field start width < Nat.pow 256 width := by
  apply Nat.lt_of_lt_of_le (ofLittleEndian_lt _)
  apply Nat.pow_le_pow_right (by decide)
  simp only [window, List.length_take]
  exact Nat.min_le_left _ _

end Bytes

end BinaryAtlas
