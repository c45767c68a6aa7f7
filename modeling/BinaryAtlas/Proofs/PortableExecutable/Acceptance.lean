import Mathlib
import BinaryAtlas.Proofs.PortableExecutable.Declared
import BinaryAtlas.Proofs.Validation

namespace BinaryAtlas.PortableExecutable

namespace Declared

def rawSize (data : Bytes) (i : Nat) : Nat :=
  if (header data i).characteristics.testBit 7 = true ∧
      (header data i).characteristics.testBit 6 = false then 0
  else (header data i).rawSize

def loadedSize (data : Bytes) (i : Nat) : Nat :=
  min (rawSize data i) (data.length - (header data i).rawPointer)

def extent (data : Bytes) (i : Nat) : Nat :=
  if (header data i).virtualSize = 0 then loadedSize data i else (header data i).virtualSize

def start (data : Bytes) (i : Nat) : Nat := imageBase data + (header data i).virtualAddress

def range (data : Bytes) (i : Nat) : Set Nat :=
  Set.Ico (start data i) (start data i + extent data i)

def sectionsStop (data : Bytes) : Nat :=
  (Finset.range (sectionCount data)).sup fun i =>
    (header data i).virtualAddress + extent data i

def roundUp (n alignment : Nat) : Nat :=
  if alignment = 0 then n else (n + (alignment - 1)) / alignment * alignment

def size (data : Bytes) : Nat :=
  max (imageSize data) (roundUp (sectionsStop data) (sectionAlignment data))

def sectionAt (data : Bytes) (i : Nat) : Section where
  name := (header data i).name
  type := (header data i).type
  perms := .of (header data i).readable (header data i).writable (header data i).executable
  relative := (header data i).virtualAddress
  virtualSize := extent data i
  rawPointer := (header data i).rawPointer
  rawSize := loadedSize data i
  start := start data i
  stop := start data i + extent data i

def analysis (data : Bytes) : Analysis where
  base := imageBase data
  entry := imageBase data + entry data
  size := size data
  sections := (List.range (sectionCount data)).map (sectionAt data)

structure Accepted (config : AnalysisConfig) (data : Bytes) : Prop extends HeadersPresent data where
  sectionsAllowed : sectionCount data ≤ config.maxSections
  tableLength : peOffset data + 24 + optionalSize data + 40 * sectionCount data ≤ data.length
  rawPresent : ∀ i < sectionCount data, rawSize data i = 0 ∨
    (header data i).rawPointer + rawSize data i ≤ data.length ∨ config.clampRawData = true
  sectionsFit : ∀ i < sectionCount data, start data i + extent data i ≤ Word.top
  sectionsApart : ∀ j < sectionCount data, ∀ i < j, Disjoint (range data i) (range data j)
  imageFits : imageBase data + size data ≤ Word.top
  entered : entry data < size data

theorem rawSize_lt (data : Bytes) (i : Nat) : rawSize data i < 4294967296 := by
  have hfield : (header data i).rawSize < 4294967296 := data.field_lt _ 4
  unfold rawSize
  split <;> omega

theorem loadedSize_le (data : Bytes) (i : Nat) : loadedSize data i ≤ rawSize data i :=
  Nat.min_le_left _ _

theorem extent_lt (data : Bytes) (i : Nat) : extent data i < 4294967296 := by
  have hraw := rawSize_lt data i
  have hloaded := loadedSize_le data i
  have hvirtual : (header data i).virtualSize < 4294967296 := data.field_lt _ 4
  unfold extent
  split <;> omega

theorem virtualAddress_lt (data : Bytes) (i : Nat) :
    (header data i).virtualAddress < 4294967296 := data.field_lt _ 4

theorem rawPointer_lt (data : Bytes) (i : Nat) : (header data i).rawPointer < 4294967296 :=
  data.field_lt _ 4

end Declared

open Declared

theorem header_declaredRaw (data : Bytes) (i : Nat) :
    (header data i).declaredRaw = rawSize data i := by
  simp only [SectionHeader.declaredRaw, SectionHeader.uninitializedData,
    SectionHeader.initializedData, SectionHeader.has, rawSize, Bool.and_eq_true,
    Bool.not_eq_true']

theorem header_pastEnd_iff (data : Bytes) (i : Nat) :
    (header data i).pastEnd data.length = true ↔
      0 < rawSize data i ∧ data.length < (header data i).rawPointer + rawSize data i := by
  simp only [SectionHeader.pastEnd, header_declaredRaw, Bool.and_eq_true, decide_eq_true_eq]

theorem header_presentRaw (data : Bytes) (i : Nat) :
    (header data i).presentRaw data.length = loadedSize data i := by
  have hpast := header_pastEnd_iff data i
  simp only [SectionHeader.presentRaw, header_declaredRaw, loadedSize]
  split
  · rename_i h
    have := hpast.mp h
    omega
  · rename_i h
    have := mt hpast.mpr h
    omega

theorem toSection_eq_ok_iff (config : AnalysisConfig) (data : Bytes) (i : Nat) (s : Section) :
    (header data i).toSection (imageBase data) data.length config = .ok s ↔
      ((rawSize data i = 0 ∨ (header data i).rawPointer + rawSize data i ≤ data.length ∨
        config.clampRawData = true) ∧ start data i + extent data i ≤ Word.top) ∧
      s = sectionAt data i := by
  have hpast := header_pastEnd_iff data i
  have hpointer := rawPointer_lt data i
  have hraw := rawSize_lt data i
  have hloaded := loadedSize_le data i
  have hword : (header data i).rawPointer + loadedSize data i < Word.limit := by
    simp only [Word.limit]
    omega
  have hbuild := Section.build?_eq_some_iff (header data i).name (header data i).type
    (Perms.of (header data i).readable (header data i).writable (header data i).executable)
    (imageBase data) (header data i).virtualAddress (header data i).virtualSize
    (header data i).rawPointer (loadedSize data i)
  unfold SectionHeader.toSection
  rw [header_presentRaw]
  split
  · rename_i hrefused
    rw [Bool.and_eq_true, hpast, Bool.not_eq_true'] at hrefused
    simp only [reduceCtorEq, false_iff, not_and]
    rintro ⟨hpresent, _⟩
    rcases hpresent with h | h | h
    · omega
    · omega
    · rw [hrefused.2] at h
      cases h
  · rename_i hallowed
    rw [Bool.and_eq_true, hpast, Bool.not_eq_true'] at hallowed
    have hpresent : rawSize data i = 0 ∨
        (header data i).rawPointer + rawSize data i ≤ data.length ∨
        config.clampRawData = true := by
      cases hclamp : config.clampRawData with
      | true => exact .inr (.inr rfl)
      | false =>
        simp only [hclamp, and_true] at hallowed
        by_cases hzero : rawSize data i = 0
        · exact .inl hzero
        · exact .inr (.inl (by omega))
    split
    · rename_i t ht
      obtain ⟨hstop, _, rfl⟩ := (hbuild t).mp ht
      rw [Except.ok.injEq, eq_comm]
      exact ⟨fun h => ⟨⟨hpresent, Nat.le_pred_of_lt hstop⟩, h⟩, fun h => h.2⟩
    · rename_i hnone
      simp only [reduceCtorEq, false_iff]
      rintro ⟨⟨_, hstop⟩, _⟩
      have hsome := (hbuild (sectionAt data i)).mpr ⟨Nat.lt_of_le_pred (by decide) hstop, hword, rfl⟩
      rw [hnone] at hsome
      cases hsome

theorem sections_eq_ok_iff (config : AnalysisConfig) (data : Bytes)
    (htable : peOffset data + 24 + optionalSize data ≤ data.length) (l : List Section) :
    sections config data (headers data) = .ok l ↔
      sectionCount data ≤ config.maxSections ∧
      peOffset data + 24 + optionalSize data + 40 * sectionCount data ≤ data.length ∧
      (∀ i < sectionCount data, (rawSize data i = 0 ∨
        (header data i).rawPointer + rawSize data i ≤ data.length ∨
        config.clampRawData = true) ∧ start data i + extent data i ≤ Word.top) ∧
      l = (List.range (sectionCount data)).map (sectionAt data) := by
  have hcount := sectionCount_lt data
  have hread := fun hs => mapM_eq_ok_iff (SectionHeader.readAt data (headers data).tableOffset)
    (fun i => headerOffset data i + 40 ≤ data.length) (header data)
    (List.range (sectionCount data)) hs fun i hi => sectionHeader_readAt_eq_ok_iff data i
      (Nat.lt_trans (List.mem_range.mp hi) hcount)
  have hbuild := mapM_eq_ok_iff
    (fun i => (header data i).toSection (imageBase data) data.length config) _ (sectionAt data)
    (List.range (sectionCount data)) l fun i _ => toSection_eq_ok_iff config data i
  have hall : (∀ i ∈ List.range (sectionCount data), headerOffset data i + 40 ≤ data.length) ↔
      peOffset data + 24 + optionalSize data + 40 * sectionCount data ≤ data.length := by
    simp only [List.mem_range, headerOffset]
    constructor
    · intro h
      by_cases hzero : sectionCount data = 0
      · omega
      · have := h (sectionCount data - 1) (by omega)
        omega
    · intro h i hi
      omega
  simp only [sections, refuse_eq_ok_iff, bind_eq_ok_iff, SectionHeader.readAll, Nat.not_lt]
  constructor
  · rintro ⟨hallowed, hs, hhs, hl⟩
    obtain ⟨hlen, rfl⟩ := (hread hs).mp hhs
    rw [List.mapM_map] at hl
    obtain ⟨hsections, rfl⟩ := hbuild.mp hl
    exact ⟨hallowed, hall.mp hlen, fun i hi => hsections i (List.mem_range.mpr hi), rfl⟩
  · rintro ⟨hallowed, hlen, hsections, rfl⟩
    refine ⟨hallowed, _, (hread _).mpr ⟨hall.mpr hlen, rfl⟩, ?_⟩
    rw [List.mapM_map]
    exact hbuild.mpr ⟨fun i hi => hsections i (List.mem_range.mp hi), rfl⟩

theorem foldl_max_le_iff (l : List Nat) (n b : Nat) :
    l.foldl max n ≤ b ↔ n ≤ b ∧ ∀ a ∈ l, a ≤ b := by
  induction l generalizing n with
  | nil => simp
  | cons a l ih => simp [ih, and_assoc]

theorem sectionsStop_eq (data : Bytes) :
    PortableExecutable.sectionsStop ((List.range (sectionCount data)).map (sectionAt data)) =
      Declared.sectionsStop data := by
  have hsum : ∀ i, Word.addSat (header data i).virtualAddress (extent data i) =
      (header data i).virtualAddress + extent data i := by
    intro i
    have haddress := virtualAddress_lt data i
    have hextent := extent_lt data i
    apply Word.addSat_eq_add
    simp only [Word.limit]
    omega
  apply eq_of_forall_ge_iff
  intro b
  simp only [PortableExecutable.sectionsStop, Declared.sectionsStop, foldl_max_le_iff,
    Finset.sup_le_iff, List.map_map, List.forall_mem_map, List.mem_range, Finset.mem_range,
    Function.comp_apply, sectionAt, hsum, Nat.zero_le, true_and]

theorem sectionsStop_lt (data : Bytes) : Declared.sectionsStop data < 8589934592 := by
  rw [Declared.sectionsStop, Finset.sup_lt_iff (by decide)]
  intro i _
  have haddress := virtualAddress_lt data i
  have hextent := extent_lt data i
  omega

theorem alignUp_eq_roundUp {n alignment : Nat} (h : n + alignment ≤ Word.top) :
    Word.alignUp n alignment = roundUp n alignment := by
  unfold Word.alignUp roundUp
  split
  · rfl
  · have := Nat.div_mul_le_self (n + (alignment - 1)) alignment
    apply Nat.min_eq_left
    omega

theorem imageSize_eq (data : Bytes) :
    PortableExecutable.imageSize (headers data).nt.optional
      ((List.range (sectionCount data)).map (sectionAt data)) = size data := by
  have hstop := sectionsStop_lt data
  have halign := sectionAlignment_lt data
  rw [PortableExecutable.imageSize, sectionsStop_eq, alignUp_eq_roundUp]
  · rfl
  · simp only [Word.top, Word.limit, headers]
    omega

theorem sectionAt_contains_iff (data : Bytes) (i offset : Nat) :
    (sectionAt data i).contains offset = true ↔ offset ∈ range data i :=
  Section.contains_iff _ offset

theorem pairwise_sections_iff (data : Bytes) {p : Section → Nat → Bool} {ranges : Nat → Set Nat}
    (hp : ∀ i n, p (sectionAt data i) n = true ↔ n ∈ ranges i) :
    ((List.range (sectionCount data)).map (sectionAt data)).Pairwise
        (fun s t => ∀ n, ¬ (p s n = true ∧ p t n = true)) ↔
      ∀ j < sectionCount data, ∀ i < j, Disjoint (ranges i) (ranges j) := by
  rw [List.pairwise_map, List.pairwise_iff_getElem]
  simp only [List.length_range, List.getElem_range, hp, Set.disjoint_left, not_and]
  constructor
  · intro h j hj i hij
    exact h i j (by omega) hj hij
  · intro h i j _ hj hij
    exact h j hj i hij

theorem pairwise_apart_iff (data : Bytes) :
    ((List.range (sectionCount data)).map (sectionAt data)).Pairwise Section.Apart ↔
      ∀ j < sectionCount data, ∀ i < j, Disjoint (range data i) (range data j) :=
  pairwise_sections_iff data (sectionAt_contains_iff data)

theorem analysis_stop {data : Bytes} (h : imageBase data + size data ≤ Word.top) :
    (analysis data).stop = imageBase data + size data :=
  Nat.min_eq_left h

theorem le_roundUp (n alignment : Nat) : n ≤ roundUp n alignment := by
  unfold roundUp
  split
  · exact Nat.le_refl n
  · have := Nat.lt_div_mul_add (a := n + (alignment - 1)) (b := alignment) (by omega)
    omega

theorem section_stop_le {data : Bytes} {i : Nat} (hi : i < sectionCount data) :
    (header data i).virtualAddress + extent data i ≤ size data := by
  have hsup : (header data i).virtualAddress + extent data i ≤ Declared.sectionsStop data :=
    Finset.le_sup (f := fun i => (header data i).virtualAddress + extent data i)
      (Finset.mem_range.mpr hi)
  calc
    _ ≤ Declared.sectionsStop data := hsup
    _ ≤ roundUp (Declared.sectionsStop data) (sectionAlignment data) := le_roundUp _ _
    _ ≤ size data := Nat.le_max_right _ _

def rawAnalysis (data : Bytes) : Analysis :=
  { analysis data with entry := Word.addSat (imageBase data) (entry data) }

theorem rawAnalysis_eq {data : Bytes} (hfits : imageBase data + size data ≤ Word.top)
    (hentry : entry data < size data) : rawAnalysis data = analysis data := by
  have hsum : Word.addSat (imageBase data) (entry data) = imageBase data + entry data :=
    Nat.min_eq_left (by omega)
  rw [rawAnalysis, hsum]
  rfl

theorem rawAnalysis_validate_iff {data : Bytes} (hfits : imageBase data + size data ≤ Word.top) :
    (rawAnalysis data).validate = .ok () ↔
      (∀ j < sectionCount data, ∀ i < j, Disjoint (range data i) (range data j)) ∧
      entry data < size data := by
  have hstop : (rawAnalysis data).stop = imageBase data + size data := analysis_stop hfits
  have hproper : ∀ s ∈ (rawAnalysis data).sections, s.start ≤ s.stop := by
    intro s hs
    obtain ⟨i, _, rfl⟩ := List.mem_map.mp hs
    exact Nat.le_add_right _ _
  rw [Analysis.validate_eq_ok_iff _ hproper, ← pairwise_apart_iff]
  constructor
  · rintro ⟨hapart, _, hentered⟩
    refine ⟨hapart, ?_⟩
    rw [hstop] at hentered
    simp only [rawAnalysis, Word.addSat] at hentered
    omega
  · rintro ⟨hapart, hentry⟩
    refine ⟨hapart, ?_, ?_⟩
    · intro s hs
      obtain ⟨i, hi, rfl⟩ := List.mem_map.mp hs
      have hle := section_stop_le (List.mem_range.mp hi)
      rw [hstop]
      simp only [sectionAt, start]
      omega
    · rw [hstop]
      simp only [rawAnalysis, Word.addSat]
      omega

theorem analyse_eq_ok_iff (config : AnalysisConfig) (data : Bytes) (r : Analysis) :
    analyse config data = .ok r ↔ Accepted config data ∧ r = analysis data := by
  have hword : ¬ (Word.add? (imageBase data) (size data)).isNone = true ↔
      imageBase data + size data ≤ Word.top := by
    rw [Option.isNone_iff_eq_none, Word.add?_eq_none_iff]
    simp only [Word.top, Word.limit]
    omega
  simp only [analyse, refuse_eq_ok_iff, bind_eq_ok_iff, pure_eq_ok_iff, headers_read_eq_ok_iff]
  constructor
  · rintro ⟨_, ⟨hheaders, rfl⟩, l, hl, hsize, _, hvalid, rfl⟩
    obtain ⟨hallowed, hlen, hsections, rfl⟩ :=
      (sections_eq_ok_iff config data hheaders.optionalLength l).mp hl
    rw [imageSize_eq] at hsize hvalid ⊢
    have hfits := hword.mp hsize
    obtain ⟨hapart, hentry⟩ := (rawAnalysis_validate_iff hfits).mp hvalid
    refine ⟨⟨hheaders, hallowed, hlen, fun i hi => (hsections i hi).1,
      fun i hi => (hsections i hi).2, hapart, hfits, hentry⟩, ?_⟩
    exact rawAnalysis_eq hfits hentry
  · rintro ⟨h, rfl⟩
    have hl := (sections_eq_ok_iff config data h.optionalLength _).mpr
      ⟨h.sectionsAllowed, h.tableLength, fun i hi => ⟨h.rawPresent i hi, h.sectionsFit i hi⟩, rfl⟩
    refine ⟨_, ⟨h.toHeadersPresent, rfl⟩, _, hl, ?_, (), ?_, ?_⟩
    · rw [imageSize_eq]
      exact hword.mpr h.imageFits
    · rw [imageSize_eq]
      exact (rawAnalysis_validate_iff h.imageFits).mpr ⟨h.sectionsApart, h.entered⟩
    · rw [imageSize_eq]
      exact (rawAnalysis_eq h.imageFits h.entered).symm

theorem accepted_iff_analyse_ok (config : AnalysisConfig) (data : Bytes) :
    (∃ r, analyse config data = .ok r) ↔ Accepted config data := by
  simp only [analyse_eq_ok_iff]
  exact ⟨fun ⟨_, h, _⟩ => h, fun h => ⟨_, h, rfl⟩⟩

end BinaryAtlas.PortableExecutable
