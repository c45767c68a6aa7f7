import BinaryAtlas.Proofs.Reading
import BinaryAtlas.Session.Spaces

/-!
The lower end of an image. The verdict on an analysis asks whether entry point and sections end
before the image does, and never whether they start at its base or later. Both built-in analysers
keep to the base; a space finds an image at all offsets of its sections exactly if they lie above
the base.
-/

namespace BinaryAtlas

open Section

namespace Analysis

variable {a : Analysis}

structure Enclosed (a : Analysis) : Prop where
  entry : a.base ≤ a.entry ∧ a.entry < a.stop
  sections : ∀ s ∈ a.sections, s.isEmpty = false → a.base ≤ s.start ∧ s.stop ≤ a.stop

def Occupied (a : Analysis) (offset : Nat) : Prop :=
  offset = a.entry ∨ ∃ s ∈ a.sections, s.contains offset = true

theorem enclosed_of_occupied (h : ∀ s ∈ a.sections, s.start ≤ s.stop)
    (hoffsets : ∀ offset, a.Occupied offset → a.base ≤ offset ∧ offset < a.stop) : a.Enclosed where
  entry := hoffsets a.entry (.inl rfl)
  sections s hs hfull := by
    have hlt : s.start < s.stop := by
      have hle := h s hs
      have hne := (isEmpty_eq_false_iff s).mp hfull
      omega
    have hfirst := hoffsets s.start (.inr ⟨s, hs, (contains_iff ..).mpr ⟨Nat.le_refl _, hlt⟩⟩)
    have hlast := hoffsets (s.stop - 1) (.inr ⟨s, hs, (contains_iff ..).mpr (by omega)⟩)
    omega

theorem Enclosed.occupied (h : a.Enclosed) {offset : Nat} (ho : a.Occupied offset) :
    a.base ≤ offset ∧ offset < a.stop := by
  rcases ho with rfl | ⟨s, hs, hc⟩
  · exact h.entry
  · rw [contains_iff] at hc
    have hfull : s.isEmpty = false := (isEmpty_eq_false_iff s).mpr (by omega)
    have hs := h.sections s hs hfull
    omega

theorem Consistent.enclosed_iff (h : a.Consistent) :
    a.Enclosed ↔
      a.base ≤ a.entry ∧ ∀ s ∈ a.sections, s.isEmpty = false → a.base ≤ s.start := by
  constructor
  · intro he
    exact ⟨he.entry.1, fun s hs hfull => (he.sections s hs hfull).1⟩
  · rintro ⟨hentry, hsections⟩
    exact ⟨⟨hentry, h.entered⟩, fun s hs hfull => ⟨hsections s hs hfull, h.inside s hs⟩⟩

def Based (a : Analysis) : Prop := a.base ≤ a.entry ∧ ∀ s ∈ a.sections, a.base ≤ s.start

theorem Consistent.enclosed_of_based (h : a.Consistent) (hbased : a.Based) : a.Enclosed :=
  h.enclosed_iff.mpr ⟨hbased.1, fun s hs _ => hbased.2 s hs⟩

end Analysis

namespace Analyser

variable {data : Bytes} {a : Analysis}

theorem based_portableExecutable {config : AnalysisConfig}
    (h : (portableExecutable config).run data = .ok a) : a.Based := by
  obtain ⟨_, rfl⟩ := (PortableExecutable.analyse_eq_ok_iff config data a).mp h
  refine ⟨Nat.le_add_right _ _, fun s hs => ?_⟩
  obtain ⟨i, _, rfl⟩ := List.mem_map.mp hs
  exact Nat.le_add_right _ _

theorem based_flat {base : Nat} (h : (flat base).run data = .ok a) : a.Based := by
  unfold flat flatAnalysis at h
  dsimp only at h
  split at h
  · cases h
  · split at h
    · rename_i s hbuild
      cases h
      obtain ⟨_, _, rfl⟩ := (build?_eq_some_iff ..).mp hbuild
      refine ⟨Nat.le_refl _, fun t ht => ?_⟩
      rw [List.mem_singleton.mp ht]
      exact Nat.le_add_right _ _
    · cases h

end Analyser

namespace Session

variable {s : Session} {space r : Ref} {i : Image} {a : Analysis} {content : Bytes}

theorem imageAt?_eq_some_iff (hspace : s.heap.images? space = some [r])
    (hi : s.heap.image? r = some i) (hl : i.layout = some (.ofAnalysis a content)) (offset : Nat) :
    s.imageAt? space offset = some r ↔ a.base ≤ offset ∧ offset < a.stop := by
  have hbase : i.base = a.base := by rw [Image.base, hl]; rfl
  have hsize : i.size = a.stop := by rw [Image.size, hl]; rfl
  rw [imageAt?, hspace, Option.getD_some, List.find?_singleton, hi]
  simp only [Option.map_some, Option.getD_some, Image.contains, hbase, hsize, Bool.and_eq_true,
    decide_eq_true_eq]
  split <;> simp [*]

theorem enclosed_iff_imageAt? (h : ∀ t ∈ a.sections, t.start ≤ t.stop)
    (hspace : s.heap.images? space = some [r]) (hi : s.heap.image? r = some i)
    (hl : i.layout = some (.ofAnalysis a content)) :
    a.Enclosed ↔ ∀ offset, a.Occupied offset → s.imageAt? space offset = some r := by
  simp only [imageAt?_eq_some_iff hspace hi hl]
  exact ⟨fun he _ => he.occupied, Analysis.enclosed_of_occupied h⟩

end Session

namespace Analysis

theorem enclosed_iff_base_le (a : Analysis) (hbuilt : ∀ s ∈ a.sections, s.Built)
    (hvalid : a.validate = .ok ()) :
    (a.Enclosed ↔
      a.base ≤ a.entry ∧ ∀ s ∈ a.sections, s.isEmpty = false → a.base ≤ s.start) ∧
    ((∃ config data, (Analyser.portableExecutable config).run data = .ok a) ∨
      (∃ base data, (Analyser.flat base).run data = .ok a) → a.Enclosed) ∧
    ∀ (s : Session) (space r : Ref) (i : Image) (content : Bytes),
      s.heap.images? space = some [r] → s.heap.image? r = some i →
      i.layout = some (.ofAnalysis a content) →
        (a.Enclosed ↔ ∀ offset, a.Occupied offset → s.imageAt? space offset = some r) := by
  have hle : ∀ s ∈ a.sections, s.start ≤ s.stop := fun s hs => (hbuilt s hs).start_le_stop
  have hc := (validate_eq_ok_iff a hle).mp hvalid
  refine ⟨hc.enclosed_iff, ?_, fun s space r i content => Session.enclosed_iff_imageAt? hle⟩
  rintro (⟨config, data, hrun⟩ | ⟨base, data, hrun⟩)
  · exact hc.enclosed_of_based (Analyser.based_portableExecutable hrun)
  · exact hc.enclosed_of_based (Analyser.based_flat hrun)

def oneSection (entry start : Nat) : Analysis where
  base := 0x1000
  entry
  size := 0x3000
  sections := [
    { name := ".low", type := .data, perms := ⟨1⟩, relative := start, virtualSize := 256
      rawPointer := 0, rawSize := 256, start, stop := start + 256 }]

theorem oneSection_built {start : Nat} (h : start + 256 < Word.limit) (entry : Nat) :
    ∀ s ∈ (oneSection entry start).sections, s.Built := by
  intro s hs
  rw [List.mem_singleton.mp hs]
  refine ⟨".low", .data, ⟨1⟩, 0, start, 256, 0, 256, (build?_eq_some_iff ..).mpr ⟨?_, by decide, ?_⟩⟩
  · simpa using h
  · simp

def inSpace (a : Analysis) : Session where
  heap := [
    { uuid := ⟨1⟩, id := 41, name := "image", body := .image {
        store := .memory {}, analyser := .canned "one section" (.ok a), globals := 0
        layout := some (.ofAnalysis a []) } },
    { uuid := ⟨2⟩, id := 42, name := "space", body := .space [0] }].foldl
      (fun h (o : Object) => (h.alloc o).2) .empty
  supply := Uuid.mk

theorem oneSection_enclosed :
    (oneSection 0x1000 0x2000).validate = .ok () ∧ (oneSection 0x1000 0x2000).Enclosed ∧
      ∀ offset, (oneSection 0x1000 0x2000).Occupied offset →
        (inSpace (oneSection 0x1000 0x2000)).imageAt? 1 offset = some 0 := by
  have hvalid : (oneSection 0x1000 0x2000).validate = .ok () := by cbv
  obtain ⟨hiff, _, hfound⟩ := enclosed_iff_base_le _ (oneSection_built (by decide) 0x1000) hvalid
  have henclosed := hiff.mpr ⟨by decide, by simp [oneSection]⟩
  exact ⟨hvalid, henclosed, (hfound _ 1 0 _ [] rfl rfl rfl).mp henclosed⟩

/-- Entry point and section lie below the base, the verdict is good, and a space does not find the
image where its section is. -/
theorem oneSection_belowBase :
    (∀ s ∈ (oneSection 0 256).sections, s.Built) ∧ (oneSection 0 256).validate = .ok () ∧
      (oneSection 0 256).entry < (oneSection 0 256).base ∧
      (∀ s ∈ (oneSection 0 256).sections, s.isEmpty = false ∧ s.stop < (oneSection 0 256).base) ∧
      ¬ (oneSection 0 256).Enclosed ∧ (inSpace (oneSection 0 256)).imageAt? 1 256 = none := by
  refine ⟨oneSection_built (by decide) 0, by cbv, by decide, by decide, fun h => ?_, by decide +kernel⟩
  exact absurd h.entry.1 (by decide)

end Analysis

end BinaryAtlas
