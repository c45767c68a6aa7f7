import BinaryAtlas.Proofs.Section

namespace BinaryAtlas.Section

def rawRange? (s : Section) : Option (Nat × Nat) :=
  (Word.add? s.rawPointer s.rawLength).map fun stop => (s.rawPointer, stop)

def offsetSteps? (s : Section) (file : Nat) : Option (Option Nat) := do
  let (first, stop) ← s.rawRange?
  if first ≤ file ∧ file < stop then
    let distance ← Word.sub? file s.rawPointer
    let offset ← Word.add? s.start distance
    pure (some offset)
  else
    pure none

def fileSteps? (s : Section) (offset : Nat) : Option (Option Nat) := do
  if s.contains offset then
    let distance ← Word.sub? offset s.start
    let (first, stop) ← s.rawRange?
    let length ← Word.sub? stop first
    if distance < length then
      let file ← Word.add? first distance
      pure (some file)
    else
      pure none
  else
    pure none

structure Exact (s : Section) : Prop where
  rawRange : s.rawRange? = some (s.rawPointer, s.rawStop)
  toOffset : ∀ file, s.offsetSteps? file = some (s.toOffset? file)
  toFile : ∀ offset, s.fileSteps? offset = some (s.toFile? offset)

theorem rawRange?_eq_some_iff (s : Section) :
    s.rawRange? = some (s.rawPointer, s.rawStop) ↔ s.rawStop < Word.limit := by
  simp [rawRange?, Word.add?_eq_some_iff, rawStop]

theorem offsetSteps?_eq_some {s : Section} (hraw : s.rawStop < Word.limit)
    (hload : s.start + s.rawLength ≤ Word.limit) (file : Nat) :
    s.offsetSteps? file = some (s.toOffset? file) := by
  have hrange := s.rawRange?_eq_some_iff.mpr hraw
  rw [toOffset?, containsRaw]
  by_cases hfile : s.rawPointer ≤ file ∧ file < s.rawStop
  · obtain ⟨hfirst, hlast⟩ := hfile
    have hsub : Word.sub? file s.rawPointer = some (file - s.rawPointer) := if_pos hfirst
    have hadd : Word.add? s.start (file - s.rawPointer) = some (s.start + (file - s.rawPointer)) := by
      apply if_pos
      rw [rawStop] at hlast
      omega
    simp [offsetSteps?, hrange, hfirst, hlast, hsub, hadd]
  · have hout : ¬ (decide (s.rawPointer ≤ file) && decide (file < s.rawStop)) = true := by
      simpa using hfile
    rw [if_neg hout]
    simp [offsetSteps?, hrange, hfile]

theorem fileSteps?_eq_some {s : Section} (hraw : s.rawStop < Word.limit) (offset : Nat) :
    s.fileSteps? offset = some (s.toFile? offset) := by
  have hrange := s.rawRange?_eq_some_iff.mpr hraw
  rw [toFile?]
  by_cases hc : s.contains offset = true
  · have hstart := ((s.contains_iff offset).mp hc).1
    have hsub : Word.sub? offset s.start = some (offset - s.start) := if_pos hstart
    have hlength : Word.sub? s.rawStop s.rawPointer = some s.rawLength := by
      rw [Word.sub?_eq_some_iff, rawStop]
      omega
    by_cases hlen : offset - s.start < s.rawLength
    · have hadd : Word.add? s.rawPointer (offset - s.start) =
          some (s.rawPointer + (offset - s.start)) := by
        apply if_pos
        rw [rawStop] at hraw
        omega
      simp [fileSteps?, hrange, hc, hsub, hlength, hlen, hadd]
    · simp [fileSteps?, hrange, hc, hsub, hlength, hlen]
  · simp [fileSteps?, hc]

theorem exact_iff {s : Section} (h : s.start < Word.limit) :
    s.Exact ↔ s.rawStop < Word.limit ∧ s.start + s.rawLength ≤ Word.limit := by
  constructor
  · intro hexact
    have hraw := s.rawRange?_eq_some_iff.mp hexact.rawRange
    refine ⟨hraw, ?_⟩
    apply Nat.le_of_not_lt
    intro hover
    have hlast : s.rawPointer ≤ s.rawStop - 1 ∧ s.rawStop - 1 < s.rawStop := by
      rw [rawStop]
      omega
    have hsub : Word.sub? (s.rawStop - 1) s.rawPointer = some (s.rawLength - 1) := by
      rw [Word.sub?_eq_some_iff, rawStop]
      omega
    have hadd : Word.add? s.start (s.rawLength - 1) = none := by
      rw [Word.add?_eq_none_iff]
      omega
    have hsteps := hexact.toOffset (s.rawStop - 1)
    simp [offsetSteps?, hexact.rawRange, hlast, hsub, hadd] at hsteps
  · rintro ⟨hraw, hload⟩
    exact ⟨s.rawRange?_eq_some_iff.mpr hraw, offsetSteps?_eq_some hraw hload,
      fileSteps?_eq_some hraw⟩

theorem Built.exact {s : Section} (h : s.Built) : s.Exact := by
  have hle := h.start_le_stop
  have hstop := h.stop_lt
  have hlen : s.rawLength ≤ s.virtualSize := Nat.min_le_right _ _
  have heq := h.stop_eq
  rw [exact_iff (by omega)]
  exact ⟨h.rawStop_lt, by omega⟩

end BinaryAtlas.Section
