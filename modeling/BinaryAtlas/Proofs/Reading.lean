import BinaryAtlas.Proofs.PortableExecutable.Geometry
import BinaryAtlas.Proofs.Store
import BinaryAtlas.Proofs.Translation

namespace BinaryAtlas

namespace Section

structure Backed (size : Nat) (s : Section) : Prop where
  built : s.Built
  inside : ∀ file, s.containsRaw file = true → file < size

theorem Backed.mono {s : Section} {n m : Nat} (h : s.Backed n) (hle : n ≤ m) : s.Backed m :=
  ⟨h.built, fun file hfile => Nat.lt_of_lt_of_le (h.inside file hfile) hle⟩

theorem Loads.unique {s : Section} {file file' offset k : Nat} (h : s.Loads file offset)
    (h' : s.Loads file' (offset + k)) : file' = file + k := by
  obtain ⟨hraw, hoffset⟩ := h
  obtain ⟨hraw', hoffset'⟩ := h'
  rw [containsRaw_iff] at hraw hraw'
  omega

theorem loads_add_iff {s : Section} (h : s.Built) {file offset : Nat} (hl : s.Loads file offset)
    (k : Nat) : s.Loads (file + k) (offset + k) ↔ (s.toFile? (offset + k)).isSome = true := by
  constructor
  · intro hk
    rw [(toFile?_eq_some_iff h _ _).mpr hk]
    rfl
  · intro hk
    obtain ⟨file', hfile'⟩ := Option.isSome_iff_exists.mp hk
    have hl' := (toFile?_eq_some_iff h _ _).mp hfile'
    exact hl.unique hl' ▸ hl'

theorem loads_of_last {s : Section} {file offset n : Nat} (hl : s.Loads file offset)
    (hn : s.Loads (file + n) (offset + n)) {k : Nat} (hk : k ≤ n) :
    s.Loads (file + k) (offset + k) := by
  obtain ⟨hraw, rfl⟩ := hl
  have hstop := ((s.containsRaw_iff _).mp hn.1).2
  rw [containsRaw_iff] at hraw
  refine ⟨(s.containsRaw_iff _).mpr ⟨by omega, by omega⟩, by omega⟩

end Section

/-- The section at `offset` loads there, and at the `len - 1` offsets behind it, the raw bytes from
`start` on. -/
def Layout.Loads (l : Layout) (offset len start : Nat) : Prop :=
  ∃ s, l.sections.at? offset = some s ∧ s.Loads start offset ∧
    ∀ k < len, s.Loads (start + k) (offset + k)

theorem Layout.Loads.lt_limit {l : Layout} {offset len start : Nat} (h : l.Loads offset len start)
    (hb : ∀ s ∈ l.sections, s.Built) : start + len < Word.limit := by
  obtain ⟨s, hat, hfirst, hall⟩ := h
  have hlimit := (hb s (List.mem_of_find?_eq_some hat)).rawStop_lt
  cases len with
  | zero =>
    have hstop := ((s.containsRaw_iff _).mp hfirst.1).2
    omega
  | succ n =>
    have hstop := ((s.containsRaw_iff _).mp (hall n (Nat.lt_succ_self n)).1).2
    omega

namespace Image

open Section

variable {l : Layout} {i : Image} {offset len start : Nat}

theorem rangeStart_eq_ok_iff (hb : ∀ s ∈ l.sections, s.Built) :
    rangeStart l offset len = .ok start ↔ l.Loads offset len start := by
  unfold rangeStart Layout.Loads
  cases hat : l.sections.at? offset with
  | none => simp [throw, throwThe, MonadExceptOf.throw]
  | some s =>
    have hbuilt := hb s (List.mem_of_find?_eq_some hat)
    have hfirst := toFile?_eq_some_iff hbuilt
    simp only [Option.some.injEq, exists_eq_left']
    cases hfile : s.toFile? offset with
    | none =>
      have hnot : ¬ s.Loads start offset := by
        rw [← hfirst start offset, hfile]
        exact nofun
      simp [throw, throwThe, MonadExceptOf.throw, hnot]
    | some first =>
      have hloads := (hfirst first offset).mp hfile
      have hunique : s.Loads start offset ↔ first = start := by
        rw [← hfirst start offset, hfile, Option.some.injEq]
      rw [hunique]
      cases len with
      | zero => simp [pure, Except.pure]
      | succ n =>
        have hlast := loads_add_iff hbuilt hloads n
        simp only [Nat.add_eq_zero_iff, one_ne_zero, and_false, if_false, Nat.add_sub_cancel]
        cases hadd : Word.add? offset n with
        | none =>
          have hoff : ¬ s.Loads (first + n) (offset + n) := by
            intro hn
            have hstop := ((s.contains_iff _).mp (hn.contains hbuilt)).2
            have hword := Word.add?_eq_none_iff.mp hadd
            have hlimit := hbuilt.stop_lt
            omega
          simp only [throw, throwThe, MonadExceptOf.throw, reduceCtorEq, false_iff, not_and]
          rintro rfl hall
          exact hoff (hall n (Nat.lt_succ_self n))
        | some last =>
          obtain ⟨rfl, _⟩ := Word.add?_eq_some_iff.mp hadd
          dsimp only
          split
          · rename_i hsome
            have hn := hlast.mpr hsome
            simp only [pure, Except.pure, Except.ok.injEq]
            constructor
            · rintro rfl
              exact ⟨rfl, fun k hk => loads_of_last hloads hn (Nat.le_of_lt_succ hk)⟩
            · exact And.left
          · rename_i hnone
            simp only [throw, throwThe, MonadExceptOf.throw, reduceCtorEq, false_iff, not_and]
            rintro rfl hall
            exact hnone (hlast.mp (hall n (Nat.lt_succ_self n)))

theorem rangeStart_eq_error {e : Error} (h : rangeStart l offset len = .error e) :
    ∃ value, e = .unmapped value .canonical := by
  unfold rangeStart at h
  simp only [throw, throwThe, MonadExceptOf.throw, pure, Except.pure] at h
  repeat' split at h
  all_goals cases h
  all_goals exact ⟨_, rfl⟩

def Covered (i : Image) : Prop :=
  ∀ l, i.layout = some l → ∀ s ∈ l.sections, s.Backed i.store.size

theorem length_of_loads (hl : i.layout = some l) (hc : i.Covered) (h : l.Loads offset len start) :
    start + len ≤ i.store.size ∧ start + len < Word.limit := by
  have hlimit := h.lt_limit fun s hs => (hc l hl s hs).built
  obtain ⟨s, hat, hfirst, hall⟩ := h
  have hs := hc l hl s (List.mem_of_find?_eq_some hat)
  refine ⟨?_, hlimit⟩
  cases len with
  | zero => exact Nat.le_of_lt (hs.inside start hfirst.1)
  | succ n => exact hs.inside (start + n) (hall n (Nat.lt_succ_self n)).1

theorem read_of_loads (hl : i.layout = some l) (hc : i.Covered) (h : l.Loads offset len start) :
    i.read offset len = .ok (i.store.bytes.window start len) := by
  obtain ⟨hin, hword⟩ := length_of_loads hl hc h
  have hstart := (rangeStart_eq_ok_iff fun s hs => (hc l hl s hs).built).mpr h
  simp only [read, hl, hstart, Store.read_eq_ok hword hin]
  rfl

theorem read_of_not_loads (hl : i.layout = some l) (hc : i.Covered)
    (h : ¬ ∃ start, l.Loads offset len start) :
    ∃ value, i.read offset len = .error (.during "read" offset (.unmapped value .canonical)) := by
  cases hstart : rangeStart l offset len with
  | ok start => exact absurd ⟨start, (rangeStart_eq_ok_iff fun s hs => (hc l hl s hs).built).mp hstart⟩ h
  | error e =>
    obtain ⟨value, rfl⟩ := rangeStart_eq_error hstart
    exact ⟨value, by simp only [read, hl, hstart]⟩

end Image

namespace Analyser

def Backs (a : Analyser) : Prop :=
  ∀ data r, a.run data = .ok r → ∀ s ∈ r.sections, s.Backed data.length

open PortableExecutable in
theorem backs_portableExecutable (config : AnalysisConfig) : (portableExecutable config).Backs := by
  intro data r hr s hs
  obtain ⟨ha, rfl⟩ := (analyse_eq_ok_iff config data r).mp hr
  obtain ⟨k, hk, rfl⟩ := List.mem_map.mp hs
  refine ⟨?_, sectionAt_rawStop_le data k⟩
  have hfits := ha.sectionsFit k (List.mem_range.mp hk)
  have hpresent := ha.rawPresent k (List.mem_range.mp hk)
  have hsection := (toSection_eq_ok_iff config data k _).mpr ⟨⟨hpresent, hfits⟩, rfl⟩
  unfold SectionHeader.toSection at hsection
  split at hsection
  · cases hsection
  · split at hsection
    · rename_i built hbuilt
      cases hsection
      exact ⟨_, _, _, _, _, _, _, _, hbuilt⟩
    · cases hsection

theorem backs_flat (base : Nat) : (flat base).Backs := by
  intro data r hr s hs
  unfold flat flatAnalysis at hr
  dsimp only at hr
  split at hr
  · cases hr
  · split at hr
    · rename_i built hbuilt
      cases hr
      rw [List.mem_singleton.mp hs]
      refine ⟨⟨_, _, _, _, _, _, _, _, hbuilt⟩, fun file hfile => ?_⟩
      obtain ⟨_, _, hfields⟩ := (Section.build?_eq_some_iff ..).mp hbuilt
      have hpointer : built.rawPointer = 0 := by rw [hfields]
      have hsize : built.rawSize = data.length := by rw [hfields]
      have hlen : built.rawLength ≤ built.rawSize := Nat.min_le_left _ _
      rw [Section.containsRaw_iff] at hfile
      omega
    · cases hr

end Analyser

theorem Image.Covered.analyse {i j : Image} (hback : i.analyser.Backs) (h : i.analyse = .ok j) :
    j.Covered := by
  obtain ⟨a, ha, _, rfl⟩ := (analyse_eq_ok_iff i j).mp h
  intro l hl s hs
  cases hl
  exact hback i.store.bytes a ha s hs

end BinaryAtlas
