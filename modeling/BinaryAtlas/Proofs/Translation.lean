import BinaryAtlas.Image.Basic
import BinaryAtlas.Proofs.Except
import BinaryAtlas.Proofs.Validation

namespace BinaryAtlas

open Section

theorem find?_eq_some_iff_of_pairwise {α : Type} {p : α → Bool} {l : List α}
    (h : l.Pairwise fun a b => ¬ (p a = true ∧ p b = true)) (a : α) :
    l.find? p = some a ↔ a ∈ l ∧ p a = true := by
  constructor
  · intro ha
    exact ⟨List.mem_of_find?_eq_some ha, List.find?_some ha⟩
  · rintro ⟨hmem, ha⟩
    induction l with
    | nil => cases hmem
    | cons b rest ih =>
      obtain ⟨hfirst, hrest⟩ := List.pairwise_cons.mp h
      rcases List.mem_cons.mp hmem with rfl | hmem
      · exact List.find?_cons_of_pos ha
      · have hb : ¬ p b = true := fun hb => hfirst a hmem ⟨hb, ha⟩
        rw [List.find?_cons_of_neg hb]
        exact ih hrest hmem

namespace SectionMap

theorem at?_eq_some_iff {m : SectionMap} (h : m.Pairwise Apart) (offset : Nat) (s : Section) :
    m.at? offset = some s ↔ s ∈ m ∧ s.contains offset = true :=
  find?_eq_some_iff_of_pairwise (h.imp fun hst => hst offset) s

theorem toOffset_eq_ok_iff {m : SectionMap} (h : ∀ s ∈ m, s.Built) (file offset : Nat) :
    m.toOffset file = .ok offset ↔ ∃ s, m.atFile? file = some s ∧ s.Loads file offset := by
  have hbind : (m.atFile? file).bind (·.toOffset? file) = some offset ↔
      ∃ s, m.atFile? file = some s ∧ s.Loads file offset := by
    rw [Option.bind_eq_some_iff]
    apply exists_congr
    intro s
    apply and_congr_right
    intro hs
    exact toOffset?_eq_some_iff (h s (List.mem_of_find?_eq_some hs)) file offset
  rw [← hbind]
  unfold toOffset
  split
  · rename_i found hf
    simp [hf]
  · rename_i hf
    simp [hf]

theorem toFile_eq_ok_iff {m : SectionMap} (h : ∀ s ∈ m, s.Built) (ha : m.Pairwise Apart)
    (file offset : Nat) :
    m.toFile offset = .ok file ↔ ∃ s ∈ m, s.Loads file offset := by
  have hbind : (m.at? offset).bind (·.toFile? offset) = some file ↔
      ∃ s ∈ m, s.Loads file offset := by
    rw [Option.bind_eq_some_iff]
    apply exists_congr
    intro s
    rw [at?_eq_some_iff ha]
    constructor
    · rintro ⟨⟨hs, _⟩, hf⟩
      exact ⟨hs, (toFile?_eq_some_iff (h s hs) file offset).mp hf⟩
    · rintro ⟨hs, hl⟩
      exact ⟨⟨hs, hl.contains (h s hs)⟩, (toFile?_eq_some_iff (h s hs) file offset).mpr hl⟩
  rw [← hbind]
  unfold toFile
  split
  · rename_i found hf
    simp [hf]
  · rename_i hf
    simp [hf]

theorem atFile?_isSome_iff (m : SectionMap) (file : Nat) :
    (∃ s, m.atFile? file = some s) ↔ ∃ s ∈ m, s.containsRaw file = true := by
  rw [← Option.isSome_iff_exists, atFile?, List.find?_isSome]

theorem exists_toOffset_iff {m : SectionMap} (h : ∀ s ∈ m, s.Built) (file : Nat) :
    (∃ offset, m.toOffset file = .ok offset) ↔ ∃ s ∈ m, s.containsRaw file = true := by
  rw [← atFile?_isSome_iff]
  simp only [toOffset_eq_ok_iff h]
  constructor
  · rintro ⟨_, s, hs, _⟩
    exact ⟨s, hs⟩
  · rintro ⟨s, hs⟩
    exact ⟨_, s, hs, List.find?_some (p := fun t : Section => t.containsRaw file) hs, rfl⟩

theorem toOffset_eq_error {m : SectionMap} {file : Nat}
    (h : ¬ ∃ s ∈ m, s.containsRaw file = true) :
    m.toOffset file = .error (.unmapped file .file) := by
  have hnone : m.atFile? file = none := by
    rw [← atFile?_isSome_iff, ← Option.isSome_iff_exists] at h
    simpa using h
  simp [toOffset, hnone]

theorem getElem_contains_iff {m : SectionMap} (h : m.Pairwise Apart) {n : Nat}
    (hn : n < m.length) {offset : Nat} (hc : m[n].contains offset = true) (k : Nat)
    (hk : k < m.length) : m[k].contains offset = true ↔ k = n := by
  constructor
  · intro hkc
    rw [List.pairwise_iff_getElem] at h
    rcases Nat.lt_trichotomy k n with hlt | heq | hgt
    · exact absurd ⟨hkc, hc⟩ (h k n hk hn hlt offset)
    · exact heq
    · exact absurd ⟨hc, hkc⟩ (h n k hn hk hgt offset)
  · rintro rfl
    exact hc

end SectionMap

namespace Image

def LaidOut (i : Image) : Prop :=
  ∃ earlier analysed : Image,
    (∀ a, earlier.analyser.run earlier.store.bytes = .ok a → ∀ s ∈ a.sections, s.Built) ∧
    earlier.analyse = .ok analysed ∧ i.layout = analysed.layout

theorem analyse_eq_ok_iff (i j : Image) :
    i.analyse = .ok j ↔ ∃ a, i.analyser.run i.store.bytes = .ok a ∧ a.validate = .ok () ∧
      j = { i with layout := some (Layout.ofAnalysis a i.store.bytes) } := by
  simp only [analyse, bind_eq_ok_iff, pure_eq_ok_iff]
  constructor
  · rintro ⟨a, ha, _, hv, rfl⟩
    exact ⟨a, ha, hv, rfl⟩
  · rintro ⟨a, ha, hv, rfl⟩
    exact ⟨a, ha, (), hv, rfl⟩

theorem LaidOut.layout {i : Image} (h : i.LaidOut) : ∃ l, i.layout = some l ∧
    (∀ s ∈ l.sections, s.Built) ∧ l.sections.Pairwise Apart ∧ ∀ s ∈ l.sections, s.stop ≤ l.stop := by
  obtain ⟨earlier, analysed, hbuilt, hok, hl⟩ := h
  obtain ⟨a, ha, hv, rfl⟩ := (analyse_eq_ok_iff earlier analysed).mp hok
  have hb := hbuilt a ha
  have hc := (a.validate_eq_ok_iff fun s hs => (hb s hs).start_le_stop).mp hv
  exact ⟨_, hl, hb, hc.apart, hc.inside⟩

theorem translation_exact (i : Image) (h : i.LaidOut) :
    (∀ file, (∃ offset, i.toOffset file = .ok offset) ↔
      ∃ s ∈ i.sections, s.containsRaw file = true) ∧
    (∀ file, (¬ ∃ s ∈ i.sections, s.containsRaw file = true) →
      i.toOffset file = .error (.unmapped file .file)) ∧
    (∀ file offset, i.toOffset file = .ok offset →
      i.toFile offset = .ok file ∧ offset < i.size ∧
      ∃ n, ∃ hn : n < i.sections.length, i.place offset = .found i.sections[n] ∧
        i.sections[n].containsRaw file = true ∧
        ∀ k (hk : k < i.sections.length), i.sections[k].contains offset = true ↔ k = n) ∧
    (∀ offset file, i.toFile offset = .ok file →
      ∃ s ∈ i.sections, s.contains offset = true ∧ s.containsRaw file = true) := by
  obtain ⟨l, hl, hb, ha, hstop⟩ := h.layout
  have hsections : i.sections = l.sections := by simp [sections, hl]
  have hsize : i.size = l.stop := by simp [size, hl]
  simp only [hsections, toOffset, toFile, hl]
  refine ⟨SectionMap.exists_toOffset_iff hb, fun file => SectionMap.toOffset_eq_error, ?_, ?_⟩
  · intro file offset ho
    obtain ⟨s, hs, hloads⟩ := (SectionMap.toOffset_eq_ok_iff hb file offset).mp ho
    have hmem := List.mem_of_find?_eq_some hs
    have hc := hloads.contains (hb s hmem)
    have hat := (SectionMap.at?_eq_some_iff ha offset s).mpr ⟨hmem, hc⟩
    have hin : offset < i.size := by
      have hlast := ((s.contains_iff offset).mp hc).2
      have hle := hstop s hmem
      omega
    obtain ⟨n, hn, rfl⟩ := List.mem_iff_getElem.mp hmem
    refine ⟨(SectionMap.toFile_eq_ok_iff hb ha file offset).mpr ⟨_, hmem, hloads⟩, hin, n, hn, ?_,
      hloads.1, fun k hk => SectionMap.getElem_contains_iff ha hn hc k hk⟩
    simp [place, contains, hin, hl, hat]
  · intro offset file hf
    obtain ⟨s, hmem, hloads⟩ := (SectionMap.toFile_eq_ok_iff hb ha file offset).mp hf
    exact ⟨s, hmem, hloads.contains (hb s hmem), hloads.1⟩

def sharedFirst : Section where
  name := "a"
  type := .data
  perms := .of true false false
  relative := 16
  virtualSize := 8
  rawPointer := 1
  rawSize := 3
  start := 16
  stop := 24

def sharedSecond : Section :=
  { sharedFirst with name := "b", relative := 8, virtualSize := 2, start := 8, stop := 10 }

def sharedAnalysis : Analysis where
  base := 0
  entry := 8
  size := 24
  sections := [sharedFirst, sharedSecond]

def sharedBytes : Image where
  store := .memory { bytes := [1, 2, 3, 4] }
  analyser := .canned "shared" (.ok sharedAnalysis)
  globals := 0

def sharedLaidOut : Image :=
  { sharedBytes with layout := some (Layout.ofAnalysis sharedAnalysis [1, 2, 3, 4]) }

theorem sharedLaidOut_laidOut : sharedLaidOut.LaidOut := by
  have hproper : ∀ s ∈ sharedAnalysis.sections, s.start ≤ s.stop := by decide
  have hapart : sharedFirst.Apart sharedSecond :=
    (Section.overlaps_eq_false_iff (by decide) (by decide)).mp (by decide)
  have hvalid : sharedAnalysis.validate = .ok () :=
    (Analysis.validate_eq_ok_iff _ hproper).mpr
      ⟨List.pairwise_pair.mpr hapart, by decide, by decide⟩
  refine ⟨sharedBytes, sharedLaidOut, ?_, ?_, rfl⟩
  · rintro a ⟨⟩ s hs
    rcases List.mem_cons.mp hs with rfl | hs
    · exact ⟨"a", .data, .of true false false, 0, 16, 8, 1, 3, by decide⟩
    · rw [List.mem_singleton.mp hs]
      exact ⟨"b", .data, .of true false false, 0, 8, 2, 1, 3, by decide⟩
  · exact (analyse_eq_ok_iff _ _).mpr ⟨_, rfl, hvalid, rfl⟩

theorem sharedLaidOut_translation :
    sharedLaidOut.LaidOut ∧ sharedFirst.containsRaw 2 = true ∧ sharedSecond.containsRaw 2 = true ∧
      sharedLaidOut.toOffset 2 = .ok 17 ∧ sharedLaidOut.toFile 17 = .ok 2 := by
  have hoffset : sharedLaidOut.toOffset 2 = .ok 17 := rfl
  exact ⟨sharedLaidOut_laidOut, rfl, rfl, hoffset,
    ((translation_exact _ sharedLaidOut_laidOut).2.2.1 2 17 hoffset).1⟩

end Image

end BinaryAtlas
