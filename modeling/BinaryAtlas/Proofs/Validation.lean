import BinaryAtlas.Analysis
import BinaryAtlas.Proofs.Section

namespace BinaryAtlas

namespace Section

def Apart (s t : Section) : Prop :=
  ∀ offset, ¬ (s.contains offset = true ∧ t.contains offset = true)

theorem Apart.symm {s t : Section} (h : s.Apart t) : t.Apart s :=
  fun offset hc => h offset ⟨hc.2, hc.1⟩

theorem apart_iff (s t : Section) :
    s.Apart t ↔ min s.stop t.stop ≤ max s.start t.start := by
  constructor
  · intro h
    apply Nat.le_of_not_lt
    intro hlt
    apply h (max s.start t.start)
    rw [contains_iff, contains_iff]
    omega
  · intro h offset hc
    rw [contains_iff, contains_iff] at hc
    omega

theorem isEmpty_eq_false_iff (s : Section) : s.isEmpty = false ↔ s.start ≠ s.stop := by
  simp [isEmpty]

theorem apart_of_isEmpty {s : Section} (h : s.isEmpty = true) (t : Section) : s.Apart t := by
  intro offset hc
  have hs := (s.contains_iff offset).mp hc.1
  have he : s.start = s.stop := by simpa [isEmpty] using h
  omega

theorem overlaps_iff (s t : Section) : s.overlaps t = true ↔
    s.start ≠ s.stop ∧ t.start ≠ t.stop ∧ s.start < t.stop ∧ t.start < s.stop := by
  simp [overlaps, isEmpty, and_assoc]

theorem overlaps_eq_false_iff {s t : Section} (hs : s.start ≤ s.stop) (ht : t.start ≤ t.stop) :
    s.overlaps t = false ↔ s.Apart t := by
  rw [← Bool.not_eq_true, overlaps_iff, apart_iff]
  omega

end Section

namespace Analysis

open Section

theorem firstOverlap?_eq_none_iff (l : List Section) (hlen : ∀ s ∈ l, s.start < s.stop)
    (hsort : l.Pairwise (fun s t => s.start ≤ t.start)) :
    firstOverlap? l = none ↔ l.Pairwise Apart := by
  induction l using firstOverlap?.induct with
  | case1 s t rest ho =>
    have hs := hlen s (by simp)
    have ht := hlen t (by simp)
    have hst : ¬ s.Apart t := by
      rw [← overlaps_eq_false_iff (Nat.le_of_lt hs) (Nat.le_of_lt ht), ho]
      simp
    simp [firstOverlap?, ho, List.pairwise_cons, hst]
  | case2 s t rest ho ih =>
    rw [Bool.not_eq_true] at ho
    obtain ⟨hfirst, hrest⟩ := List.pairwise_cons.mp hsort
    have hs := hlen s (by simp)
    have ht := hlen t (by simp)
    rw [firstOverlap?, ho, if_neg (by simp), ih (fun u hu => hlen u (List.mem_cons_of_mem s hu)) hrest,
      List.pairwise_cons (a := s)]
    refine ⟨fun hp => ⟨?_, hp⟩, And.right⟩
    have hnext : s.stop ≤ t.start := by
      have hno := mt (overlaps_iff s t).mpr (by simp [ho])
      have hle := hfirst t (by simp)
      omega
    intro u hu offset hc
    have hle : t.start ≤ u.start := by
      rcases List.mem_cons.mp hu with rfl | hu
      · exact Nat.le_refl _
      · exact (List.pairwise_cons.mp hrest).1 u hu
    rw [contains_iff, contains_iff] at hc
    omega
  | case3 l hl =>
    cases l with
    | nil => simp [firstOverlap?]
    | cons s rest =>
      cases rest with
      | nil => simp [firstOverlap?]
      | cons t rest => exact absurd rfl (hl s t rest)

theorem firstOverlap?_ordered (a : Analysis) (h : ∀ s ∈ a.sections, s.start ≤ s.stop) :
    firstOverlap? a.ordered = none ↔ a.sections.Pairwise Apart := by
  have hperm : a.ordered.Perm (a.sections.filter (!·.isEmpty)) := List.mergeSort_perm _ _
  have hlen : ∀ s ∈ a.ordered, s.start < s.stop := by
    intro s hs
    have hmem := List.mem_filter.mp (hperm.mem_iff.mp hs)
    have hle := h s hmem.1
    have hne := (isEmpty_eq_false_iff s).mp (by simpa using hmem.2)
    omega
  have hsort : a.ordered.Pairwise (fun s t => s.start ≤ t.start) := by
    apply (List.pairwise_mergeSort _ _ _).imp
    · intro s t hst
      exact of_decide_eq_true hst
    · intro s t u hst htu
      exact decide_eq_true (Nat.le_trans (of_decide_eq_true hst) (of_decide_eq_true htu))
    · intro s t
      simpa using Nat.le_total s.start t.start
  rw [firstOverlap?_eq_none_iff _ hlen hsort, hperm.pairwise_iff Apart.symm, List.pairwise_filter]
  constructor
  · apply List.Pairwise.imp
    intro s t hst
    cases hs : s.isEmpty with
    | true => exact apart_of_isEmpty hs t
    | false =>
      cases ht : t.isEmpty with
      | true => exact (apart_of_isEmpty ht s).symm
      | false => exact hst (by simp [hs]) (by simp [ht])
  · exact List.Pairwise.imp fun hst _ _ => hst

structure Consistent (a : Analysis) : Prop where
  apart : a.sections.Pairwise Apart
  inside : ∀ s ∈ a.sections, s.stop ≤ a.stop
  entered : a.entry < a.stop

theorem validate_eq_ok_iff (a : Analysis) (h : ∀ s ∈ a.sections, s.start ≤ s.stop) :
    a.validate = .ok () ↔ a.Consistent := by
  have hover := firstOverlap?_ordered a h
  unfold validate
  split
  · rename_i s t ho
    have hno : ¬ a.sections.Pairwise Apart := by
      rw [← hover, ho]
      simp
    exact ⟨by simp, fun hc => absurd hc.apart hno⟩
  · rename_i ho
    have hapart := hover.mp ho
    split
    · rename_i s hf
      have hpast : a.stop < s.stop := by simpa using List.find?_some hf
      have hs := List.mem_of_find?_eq_some hf
      exact ⟨by simp, fun hc => absurd (hc.inside s hs) (by omega)⟩
    · rename_i hf
      have hin : ∀ s ∈ a.sections, s.stop ≤ a.stop := by
        simpa using hf
      split
      · rename_i he
        exact ⟨fun _ => ⟨hapart, hin, he⟩, fun _ => rfl⟩
      · rename_i he
        exact ⟨by simp, fun hc => absurd hc.entered he⟩

end Analysis

end BinaryAtlas
