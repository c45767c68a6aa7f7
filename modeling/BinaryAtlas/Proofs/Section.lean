import BinaryAtlas.Section

namespace BinaryAtlas.Section

def Built (s : Section) : Prop :=
  ∃ name type perms base relative virtualSize rawPointer rawSize,
    build? name type perms base relative virtualSize rawPointer rawSize = some s

theorem build?_eq_some_iff (name : String) (type : SectionType) (perms : Perms)
    (base relative virtualSize rawPointer rawSize : Nat) (s : Section) :
    build? name type perms base relative virtualSize rawPointer rawSize = some s ↔
      base + relative + (if virtualSize = 0 then rawSize else virtualSize) < Word.limit ∧
      rawPointer + rawSize < Word.limit ∧
      s = { name, type, perms, relative, rawPointer, rawSize
            virtualSize := if virtualSize = 0 then rawSize else virtualSize
            start := base + relative
            stop := base + relative + if virtualSize = 0 then rawSize else virtualSize } := by
  simp only [build?, bind, Option.bind_eq_some_iff, Word.add?_eq_some_iff, pure, Option.some.injEq]
  constructor
  · rintro ⟨start, ⟨rfl, _⟩, stop, ⟨rfl, hstop⟩, _, ⟨rfl, hraw⟩, rfl⟩
    exact ⟨hstop, hraw, rfl⟩
  · rintro ⟨hstop, hraw, rfl⟩
    exact ⟨_, ⟨rfl, by omega⟩, _, ⟨rfl, hstop⟩, _, ⟨rfl, hraw⟩, rfl⟩

theorem Built.stop_eq {s : Section} (h : s.Built) : s.stop = s.start + s.virtualSize := by
  obtain ⟨name, type, perms, base, relative, virtualSize, rawPointer, rawSize, hs⟩ := h
  obtain ⟨_, _, rfl⟩ := (build?_eq_some_iff ..).mp hs
  rfl

theorem Built.stop_lt {s : Section} (h : s.Built) : s.stop < Word.limit := by
  obtain ⟨name, type, perms, base, relative, virtualSize, rawPointer, rawSize, hs⟩ := h
  obtain ⟨hstop, _, rfl⟩ := (build?_eq_some_iff ..).mp hs
  exact hstop

theorem Built.rawStop_lt {s : Section} (h : s.Built) : s.rawPointer + s.rawLength < Word.limit := by
  obtain ⟨name, type, perms, base, relative, virtualSize, rawPointer, rawSize, hs⟩ := h
  obtain ⟨_, hraw, rfl⟩ := (build?_eq_some_iff ..).mp hs
  have hlen : min rawSize (if virtualSize = 0 then rawSize else virtualSize) ≤ rawSize :=
    Nat.min_le_left _ _
  exact Nat.lt_of_le_of_lt (Nat.add_le_add_left hlen rawPointer) hraw

theorem Built.start_le_stop {s : Section} (h : s.Built) : s.start ≤ s.stop := by
  have := h.stop_eq
  omega

theorem contains_iff (s : Section) (offset : Nat) :
    s.contains offset = true ↔ s.start ≤ offset ∧ offset < s.stop := by
  simp [contains]

theorem containsRaw_iff (s : Section) (file : Nat) :
    s.containsRaw file = true ↔ s.rawPointer ≤ file ∧ file < s.rawPointer + s.rawLength := by
  simp only [containsRaw, Bool.and_eq_true, decide_eq_true_eq]
  rfl

def Loads (s : Section) (file offset : Nat) : Prop :=
  s.containsRaw file = true ∧ offset = s.start + (file - s.rawPointer)

theorem Loads.contains {s : Section} (h : s.Built) {file offset : Nat}
    (hl : s.Loads file offset) : s.contains offset = true := by
  obtain ⟨hraw, rfl⟩ := hl
  rw [containsRaw_iff] at hraw
  have hlen : s.rawLength ≤ s.virtualSize := Nat.min_le_right _ _
  have hstop := h.stop_eq
  rw [contains_iff]
  omega

theorem toOffset?_eq_some_iff {s : Section} (h : s.Built) (file offset : Nat) :
    s.toOffset? file = some offset ↔ s.Loads file offset := by
  unfold toOffset?
  constructor
  · intro ho
    split at ho
    · rename_i hraw
      obtain ⟨rfl, _⟩ := Word.add?_eq_some_iff.mp ho
      exact ⟨hraw, rfl⟩
    · cases ho
  · intro hl
    have hc := (s.contains_iff offset).mp (hl.contains h)
    have hstop := h.stop_lt
    rw [if_pos hl.1, Word.add?_eq_some_iff]
    exact ⟨hl.2.symm, by omega⟩

theorem toFile?_eq_some_iff {s : Section} (h : s.Built) (file offset : Nat) :
    s.toFile? offset = some file ↔ s.Loads file offset := by
  unfold toFile?
  constructor
  · intro hf
    split at hf
    · rename_i hcond
      simp only [Bool.and_eq_true, decide_eq_true_eq, contains_iff] at hcond
      cases hf
      exact ⟨(s.containsRaw_iff _).mpr ⟨by omega, by omega⟩, by omega⟩
    · cases hf
  · intro hl
    have hc := hl.contains h
    obtain ⟨hraw, rfl⟩ := hl
    rw [containsRaw_iff] at hraw
    have hdist : s.start + (file - s.rawPointer) - s.start < s.rawLength := by omega
    rw [hc, decide_eq_true hdist]
    simp only [Bool.and_self, if_true, Option.some.injEq]
    omega

end BinaryAtlas.Section
