import BinaryAtlas.Proofs.Reading

/-!
Raw bytes that are loaded at two offsets. Sections of an accepted file share no canonical offset,
but nothing keeps them from sharing raw bytes. The way from an offset to its raw byte and back ends
where it began exactly if they do not.
-/

set_option maxRecDepth 2000

namespace BinaryAtlas

namespace SectionMap

open Section

variable {m : SectionMap}

def Unshared (m : SectionMap) : Prop :=
  m.Pairwise fun s t => ∀ file, ¬ (s.containsRaw file = true ∧ t.containsRaw file = true)

theorem Unshared.toOffset_of_toFile (h : m.Unshared) (hb : ∀ s ∈ m, s.Built)
    (ha : m.Pairwise Apart) {offset file : Nat} (hf : m.toFile offset = .ok file) :
    m.toOffset file = .ok offset := by
  obtain ⟨s, hs, hloads⟩ := (toFile_eq_ok_iff hb ha file offset).mp hf
  have hat : m.atFile? file = some s :=
    (find?_eq_some_iff_of_pairwise (h.imp fun hst => hst file) s).mpr ⟨hs, hloads.1⟩
  exact (toOffset_eq_ok_iff hb file offset).mpr ⟨s, hat, hloads⟩

theorem unshared_of_injective (hb : ∀ s ∈ m, s.Built) (ha : m.Pairwise Apart)
    (h : ∀ o₁ o₂ file, m.toFile o₁ = .ok file → m.toFile o₂ = .ok file → o₁ = o₂) :
    m.Unshared := by
  apply ha.imp_of_mem
  intro s t hs ht hapart file hboth
  have hloads : s.Loads file (s.start + (file - s.rawPointer)) := ⟨hboth.1, rfl⟩
  have hloads' : t.Loads file (t.start + (file - t.rawPointer)) := ⟨hboth.2, rfl⟩
  have heq := h _ _ file ((toFile_eq_ok_iff hb ha _ _).mpr ⟨s, hs, hloads⟩)
    ((toFile_eq_ok_iff hb ha _ _).mpr ⟨t, ht, hloads'⟩)
  apply hapart _ ⟨hloads.contains (hb s hs), ?_⟩
  rw [heq]
  exact hloads'.contains (hb t ht)

theorem injective_iff_unshared (hb : ∀ s ∈ m, s.Built) (ha : m.Pairwise Apart) :
    (∀ o₁ o₂ f₁ f₂, m.toFile o₁ = .ok f₁ → m.toFile o₂ = .ok f₂ → o₁ ≠ o₂ → f₁ ≠ f₂) ↔
      m.Unshared := by
  constructor
  · intro h
    apply unshared_of_injective hb ha
    intro o₁ o₂ file h₁ h₂
    by_contra hne
    exact h o₁ o₂ file file h₁ h₂ hne rfl
  · rintro h o₁ o₂ file _ h₁ h₂ hne rfl
    have hback₁ := h.toOffset_of_toFile hb ha h₁
    have hback₂ := h.toOffset_of_toFile hb ha h₂
    exact hne (Except.ok.inj (hback₁.symm.trans hback₂))

theorem toOffset_toFile_iff_unshared (hb : ∀ s ∈ m, s.Built) (ha : m.Pairwise Apart) :
    (∀ offset file, m.toFile offset = .ok file → m.toOffset file = .ok offset) ↔
      m.Unshared := by
  constructor
  · intro h
    apply unshared_of_injective hb ha
    intro o₁ o₂ file h₁ h₂
    exact Except.ok.inj ((h o₁ file h₁).symm.trans (h o₂ file h₂))
  · intro h offset file hf
    exact h.toOffset_of_toFile hb ha hf

end SectionMap

namespace PortableExecutable

open Declared

def Declared.rawRange (data : Bytes) (i : Nat) : Set Nat :=
  Set.Ico (header data i).rawPointer
    ((header data i).rawPointer + min (loadedSize data i) (extent data i))

theorem sectionAt_containsRaw_iff (data : Bytes) (i file : Nat) :
    (sectionAt data i).containsRaw file = true ↔ file ∈ rawRange data i :=
  Section.containsRaw_iff _ file

theorem unshared_iff (data : Bytes) :
    SectionMap.Unshared (analysis data).sections ↔
      ∀ j < sectionCount data, ∀ i < j, Disjoint (rawRange data i) (rawRange data j) :=
  pairwise_sections_iff data (sectionAt_containsRaw_iff data)

theorem unaliased_iff (config : AnalysisConfig) (data : Bytes) (r : Analysis)
    (h : analyse config data = .ok r) :
    let m : SectionMap := r.sections
    ((∀ o₁ o₂ f₁ f₂, m.toFile o₁ = .ok f₁ → m.toFile o₂ = .ok f₂ → o₁ ≠ o₂ → f₁ ≠ f₂) ↔
      ∀ j < sectionCount data, ∀ i < j, Disjoint (rawRange data i) (rawRange data j)) ∧
    ((∀ offset file, m.toFile offset = .ok file → m.toOffset file = .ok offset) ↔
      ∀ j < sectionCount data, ∀ i < j, Disjoint (rawRange data i) (rawRange data j)) := by
  have hbuilt : ∀ s ∈ r.sections, s.Built := fun s hs =>
    (Analyser.backs_portableExecutable config data r h s hs).built
  obtain ⟨haccepted, rfl⟩ := (analyse_eq_ok_iff config data r).mp h
  have hapart := (pairwise_apart_iff data).mpr haccepted.sectionsApart
  rw [← unshared_iff]
  exact ⟨SectionMap.injective_iff_unshared hbuilt hapart,
    SectionMap.toOffset_toFile_iff_unshared hbuilt hapart⟩

def pairFile (shift : UInt8) : Bytes :=
  [(0, [0x4D, 0x5A]), (60, [0x40]), (64, [0x50, 0x45]), (70, [2]), (84, [0x60]), (88, [0x0B, 1]),
    (105, [0x10]), (118, [0x40]), (121, [0x10]), (145, [0x10]),
    (184, [0x2E, 0x61]), (192, [8]), (197, [0x10]), (200, [8]), (205, [1]), (220, [0x40, 0, 0, 0x40]),
    (224, [0x2E, 0x62]), (232, [8]), (237, [0x20]), (240, [8]), (244, [shift, 1]),
    (260, [0x40, 0, 0, 0x40])].foldl (fun data (offset, patch) => Bytes.splice data offset patch)
    (List.replicate 272 0)

def pairLayout (pointer : Nat) : Analysis where
  base := 0x400000
  entry := 0x401000
  size := 0x3000
  sections := [
    { name := ".a", type := .data, perms := ⟨1⟩, relative := 0x1000, virtualSize := 8
      rawPointer := 256, rawSize := 8, start := 0x401000, stop := 0x401008 },
    { name := ".b", type := .data, perms := ⟨1⟩, relative := 0x2000, virtualSize := 8
      rawPointer := pointer, rawSize := 8, start := 0x402000, stop := 0x402008 }]

theorem pairFile_unaliased :
    analyse {} (pairFile 8) = .ok (pairLayout 264) ∧
      ∀ offset file, SectionMap.toFile (pairLayout 264).sections offset = .ok file →
        SectionMap.toOffset (pairLayout 264).sections file = .ok offset := by
  have h : analyse {} (pairFile 8) = .ok (pairLayout 264) := by cbv
  have hlayout : analysis (pairFile 8) = pairLayout 264 :=
    ((analyse_eq_ok_iff {} (pairFile 8) _).mp h).2.symm
  have hunshared : SectionMap.Unshared (pairLayout 264).sections := by
    apply List.pairwise_pair.mpr
    intro file
    simp only [Section.containsRaw_iff, Section.rawLength]
    omega
  exact ⟨h, (unaliased_iff {} (pairFile 8) _ h).2.mpr ((unshared_iff _).mp (hlayout ▸ hunshared))⟩

theorem pairFile_aliased :
    analyse {} (pairFile 0) = .ok (pairLayout 256) ∧
      SectionMap.toFile (pairLayout 256).sections 0x401000 = .ok 256 ∧
      SectionMap.toFile (pairLayout 256).sections 0x402000 = .ok 256 ∧
      SectionMap.toOffset (pairLayout 256).sections 256 = .ok 0x401000 := by
  refine ⟨by cbv, rfl, rfl, rfl⟩

end PortableExecutable

end BinaryAtlas
