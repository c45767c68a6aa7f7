import BinaryAtlas.Proofs.PortableExecutable.Aliasing
import BinaryAtlas.Proofs.PortableExecutable.Geometry

set_option maxRecDepth 2000

namespace BinaryAtlas

structure AnalysisConfig.Within (narrow wide : AnalysisConfig) : Prop where
  sections : narrow.maxSections ≤ wide.maxSections
  rawData : narrow.clampRawData = true → wide.clampRawData = true

namespace PortableExecutable

def Declared.RunsPast (data : Bytes) (i : Nat) : Prop :=
  0 < rawSize data i ∧ data.length < (header data i).rawPointer + rawSize data i

open Declared

instance (data : Bytes) (i : Nat) : Decidable (RunsPast data i) :=
  inferInstanceAs (Decidable (_ ∧ _))

variable {config narrow wide : AnalysisConfig} {data : Bytes}

theorem Declared.Accepted.clamped_of_runsPast (h : Accepted config data) {i : Nat}
    (hi : i < sectionCount data) (hpast : RunsPast data i) : config.clampRawData = true := by
  obtain ⟨hraw, hend⟩ := hpast
  rcases h.rawPresent i hi with hzero | hinside | hclamped
  · omega
  · omega
  · exact hclamped

theorem Declared.Accepted.under (h : Accepted config data) {other : AnalysisConfig}
    (hsections : sectionCount data ≤ other.maxSections)
    (hraw : ∀ i < sectionCount data, RunsPast data i → other.clampRawData = true) :
    Accepted other data where
  toHeadersPresent := h.toHeadersPresent
  sectionsAllowed := hsections
  tableLength := h.tableLength
  rawPresent i hi := by
    by_cases hpast : RunsPast data i
    · exact .inr (.inr (hraw i hi hpast))
    · rw [RunsPast] at hpast
      omega
  sectionsFit := h.sectionsFit
  sectionsApart := h.sectionsApart
  imageFits := h.imageFits
  entered := h.entered

theorem accepted_iff_of_within (h : narrow.Within wide) :
    Accepted narrow data ↔ Accepted wide data ∧ sectionCount data ≤ narrow.maxSections ∧
      ∀ i < sectionCount data, RunsPast data i → narrow.clampRawData = true := by
  constructor
  · intro ha
    have hraw : ∀ i < sectionCount data, RunsPast data i → narrow.clampRawData = true :=
      fun i hi hpast => ha.clamped_of_runsPast hi hpast
    have hwide : Accepted wide data :=
      ha.under (ha.sectionsAllowed.trans h.sections) fun i hi hpast => h.rawData (hraw i hi hpast)
    exact ⟨hwide, ha.sectionsAllowed, hraw⟩
  · rintro ⟨ha, hsections, hraw⟩
    exact ha.under hsections hraw

/-- Wider settings accept what narrower ones do, with the same layout. Raw data past the end of the
file is all that the strict settings refuse and the lenient ones do not. -/
theorem analyse_under_wider_settings (config : AnalysisConfig) (data : Bytes) (r : Analysis) :
    (∀ wide, config.Within wide → analyse config data = .ok r → analyse wide data = .ok r) ∧
    (analyse { config with clampRawData := false } data = .ok r ↔
      analyse { config with clampRawData := true } data = .ok r ∧
        ∀ i < sectionCount data, ¬ RunsPast data i) := by
  simp only [analyse_eq_ok_iff]
  constructor
  · rintro wide hwithin ⟨ha, hr⟩
    exact ⟨((accepted_iff_of_within hwithin).mp ha).1, hr⟩
  · have hwithin : AnalysisConfig.Within { config with clampRawData := false }
        { config with clampRawData := true } := ⟨Nat.le_refl _, nofun⟩
    rw [accepted_iff_of_within hwithin]
    constructor
    · rintro ⟨⟨ha, _, hraw⟩, hr⟩
      exact ⟨⟨ha, hr⟩, fun i hi hpast => Bool.false_ne_true (hraw i hi hpast)⟩
    · rintro ⟨⟨ha, hr⟩, hraw⟩
      exact ⟨⟨ha, ha.sectionsAllowed, fun i hi hpast => absurd hpast (hraw i hi)⟩, hr⟩

theorem pairFile_settings :
    (analyse { maxSections := 2 } (pairFile 8) = .ok (pairLayout 264) ∧
      analyse { maxSections := 97, clampRawData := true } (pairFile 8) = .ok (pairLayout 264)) ∧
    (RunsPast clampedFile 0 ∧ analyse { clampRawData := true } clampedFile = .ok clampedLayout ∧
      ¬ analyse {} clampedFile = .ok clampedLayout) := by
  have hlenient : analyse { maxSections := 2, clampRawData := true } (pairFile 8) =
      .ok (pairLayout 264) := by cbv
  have hinside : ∀ i < sectionCount (pairFile 8), ¬ RunsPast (pairFile 8) i := by decide +kernel
  have hstrict := (analyse_under_wider_settings { maxSections := 2 } (pairFile 8)
    (pairLayout 264)).2.mpr ⟨hlenient, hinside⟩
  have hwide := (analyse_under_wider_settings { maxSections := 2 } (pairFile 8)
    (pairLayout 264)).1 { maxSections := 97, clampRawData := true } ⟨by decide, fun _ => rfl⟩ hstrict
  have hpast : 0 < sectionCount clampedFile ∧ RunsPast clampedFile 0 := by decide +kernel
  refine ⟨⟨hstrict, hwide⟩, hpast.2, by cbv, fun hrefused => ?_⟩
  have hnone := ((analyse_under_wider_settings {} clampedFile clampedLayout).2.mp hrefused).2
  exact hnone 0 hpast.1 hpast.2

end PortableExecutable

end BinaryAtlas
