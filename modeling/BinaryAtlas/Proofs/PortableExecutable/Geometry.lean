import BinaryAtlas.Proofs.PortableExecutable.Acceptance

set_option maxRecDepth 2000

namespace BinaryAtlas.PortableExecutable

open Declared

def covering (alignment : Nat) (sections : List Section) : Set Nat :=
  {n | (alignment ≠ 0 → alignment ∣ n) ∧ ∀ s ∈ sections, s.relative + s.virtualSize ≤ n}

structure Geometry (data : Bytes) (r : Analysis) : Prop where
  based : r.base = imageBase data
  count : r.sections.length = sectionCount data
  inOrder : ∀ i (h : i < r.sections.length), r.sections[i] = sectionAt data i
  noOverflow : r.base + r.size ≤ Word.top ∧ r.stop = r.base + r.size
  placed : ∀ i (h : i < r.sections.length), r.base ≤ r.sections[i].start ∧
    r.sections[i].start = r.base + (header data i).virtualAddress ∧
    r.sections[i].start ≤ r.sections[i].stop ∧ r.sections[i].stop ≤ r.stop
  apart : ∀ i j (hi : i < r.sections.length) (hj : j < r.sections.length), i ≠ j →
    ∀ offset, ¬ (r.sections[i].contains offset = true ∧ r.sections[j].contains offset = true)
  entered : r.entry = r.base + entry data ∧ r.base ≤ r.entry ∧ r.entry < r.stop
  sized : ∃ n, IsLeast (covering (sectionAlignment data) r.sections) n ∧
    r.size = max (Declared.imageSize data) n
  rawInside : ∀ s ∈ r.sections, ∀ file, s.containsRaw file = true → file < data.length

theorem roundUp_dvd {alignment : Nat} (h : alignment ≠ 0) (n : Nat) :
    alignment ∣ roundUp n alignment := by
  rw [roundUp, if_neg h]
  exact Nat.dvd_mul_left _ _

theorem roundUp_le {alignment n m : Nat} (hdvd : alignment ≠ 0 → alignment ∣ m) (hn : n ≤ m) :
    roundUp n alignment ≤ m := by
  unfold roundUp
  split
  · exact hn
  · rename_i h
    obtain ⟨k, rfl⟩ := hdvd h
    have hpos : 0 < alignment := Nat.pos_of_ne_zero h
    have hk : (n + (alignment - 1)) / alignment ≤ k := by
      apply Nat.le_of_lt_succ
      rw [Nat.div_lt_iff_lt_mul hpos, Nat.succ_mul, Nat.mul_comm k]
      omega
    rw [Nat.mul_comm alignment k]
    exact Nat.mul_le_mul_right alignment hk

theorem isLeast_roundUp (data : Bytes) :
    IsLeast (covering (sectionAlignment data) (analysis data).sections)
      (roundUp (Declared.sectionsStop data) (sectionAlignment data)) := by
  have hcover : ∀ n, (∀ s ∈ (analysis data).sections, s.relative + s.virtualSize ≤ n) ↔
      Declared.sectionsStop data ≤ n := by
    intro n
    simp only [analysis, List.forall_mem_map, List.mem_range, Declared.sectionsStop,
      Finset.sup_le_iff, Finset.mem_range]
    rfl
  constructor
  · exact ⟨fun h => roundUp_dvd h _, (hcover _).mpr (le_roundUp _ _)⟩
  · rintro n ⟨hdvd, hn⟩
    exact roundUp_le hdvd ((hcover n).mp hn)

theorem sectionAt_rawStop_le (data : Bytes) (i file : Nat)
    (h : (sectionAt data i).containsRaw file = true) : file < data.length := by
  rw [Section.containsRaw_iff] at h
  have hlen : (sectionAt data i).rawLength ≤ data.length - (header data i).rawPointer := by
    calc
      _ ≤ loadedSize data i := Nat.min_le_left _ _
      _ ≤ data.length - (header data i).rawPointer := Nat.min_le_right _ _
  simp only [sectionAt] at h hlen
  omega

theorem analyse_geometry (config : AnalysisConfig) (data : Bytes) (r : Analysis)
    (h : analyse config data = .ok r) : Geometry data r := by
  obtain ⟨ha, rfl⟩ := (analyse_eq_ok_iff config data r).mp h
  have hstop := analysis_stop ha.imageFits
  have hget : ∀ i (hi : i < (analysis data).sections.length),
      (analysis data).sections[i] = sectionAt data i := by
    intro i hi
    simp [analysis]
  have hcount : (analysis data).sections.length = sectionCount data := by simp [analysis]
  refine ⟨rfl, hcount, hget, ⟨ha.imageFits, hstop⟩, ?_, ?_, ?_, ?_, ?_⟩
  · intro i hi
    have hle := section_stop_le (hcount ▸ hi)
    rw [hget i hi, hstop]
    refine ⟨Nat.le_add_right _ _, rfl, Nat.le_add_right _ _, ?_⟩
    simp only [sectionAt, start]
    omega
  · intro i j hi hj hne offset hboth
    rw [hget i hi, hget j hj, sectionAt_contains_iff, sectionAt_contains_iff] at hboth
    rcases Nat.lt_or_gt_of_ne hne with hij | hji
    · exact Set.disjoint_left.mp (ha.sectionsApart j (hcount ▸ hj) i hij) hboth.1 hboth.2
    · exact Set.disjoint_left.mp (ha.sectionsApart i (hcount ▸ hi) j hji) hboth.2 hboth.1
  · have hentry := ha.entered
    rw [hstop]
    exact ⟨rfl, Nat.le_add_right _ _, Nat.add_lt_add_left hentry _⟩
  · exact ⟨_, isLeast_roundUp data, rfl⟩
  · intro s hs file hf
    obtain ⟨i, _, rfl⟩ := List.mem_map.mp hs
    exact sectionAt_rawStop_le data i file hf

def clampedFile : Bytes :=
  [(0, [0x4D, 0x5A]), (60, [0x40]), (64, [0x50, 0x45]), (70, [2]), (84, [0x60]), (88, [0x0B, 1]),
    (105, [0x10]), (118, [0x40]), (121, [0x10]), (145, [0x10]),
    (184, [0x2E, 0x74]), (197, [0x10]), (200, [0x20]), (205, [1]), (220, [0x20, 0, 0, 0x60]),
    (224, [0x2E, 0x62]), (232, [0x10]), (237, [0x20]), (241, [2]), (246, [0xFF, 0xFF]),
    (260, [0x80, 0, 0, 0xC0])].foldl (fun data (start, patch) => Bytes.splice data start patch)
    (List.replicate 272 0)

def clampedLayout : Analysis where
  base := 0x400000
  entry := 0x401000
  size := 0x3000
  sections := [
    { name := ".t", type := .code, perms := ⟨5⟩, relative := 0x1000, virtualSize := 16
      rawPointer := 256, rawSize := 16, start := 0x401000, stop := 0x401010 },
    { name := ".b", type := .uninitialized, perms := ⟨3⟩, relative := 0x2000, virtualSize := 16
      rawPointer := 0xFFFF0000, rawSize := 0, start := 0x402000, stop := 0x402010 }]

theorem clampedFile_geometry :
    analyse { clampRawData := true } clampedFile = .ok clampedLayout ∧
      Geometry clampedFile clampedLayout := by
  have h : analyse { clampRawData := true } clampedFile = .ok clampedLayout := by cbv
  exact ⟨h, analyse_geometry _ _ _ h⟩

end BinaryAtlas.PortableExecutable
