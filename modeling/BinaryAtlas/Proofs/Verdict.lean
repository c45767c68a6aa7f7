import Mathlib.Data.List.Perm.Subperm
import BinaryAtlas.Proofs.Validation

namespace BinaryAtlas.Analysis

open Section

variable {a : Analysis} {e : Malformed}

def Separate (l : List Section) : Prop :=
  ∀ i j (hi : i < l.length) (hj : j < l.length), i ≠ j →
    ∀ offset, ¬ (l[i].contains offset = true ∧ l[j].contains offset = true)

theorem separate_iff (l : List Section) : Separate l ↔ l.Pairwise Apart := by
  rw [List.pairwise_iff_getElem]
  constructor
  · intro h i j hi hj hij
    exact h i j hi hj (Nat.ne_of_lt hij)
  · intro h i j hi hj hne
    rcases Nat.lt_or_gt_of_ne hne with hij | hji
    · exact h i j hi hj hij
    · exact (h j i hj hi hji).symm

inductive Faulty (a : Analysis) : TableFault → Prop
  | overlap {s t : Section} {offset : Nat} (both : [s, t].Subperm a.sections)
      (first : s.contains offset = true) (second : t.contains offset = true) :
      Faulty a (.overlap s.name t.name)
  | pastImage {s : Section} (mem : s ∈ a.sections) (past : a.stop < s.stop) :
      Faulty a (.pastImage s.name s.stop a.stop)

theorem firstOverlap?_eq_some {l : List Section} {s t : Section}
    (h : firstOverlap? l = some (s, t)) : [s, t].Sublist l ∧ s.overlaps t = true := by
  induction l using firstOverlap?.induct with
  | case1 u v rest ho =>
    rw [firstOverlap?, if_pos ho] at h
    cases h
    exact ⟨((List.nil_sublist rest).cons_cons t).cons_cons s, ho⟩
  | case2 u v rest ho ih =>
    rw [firstOverlap?, if_neg ho] at h
    obtain ⟨hsub, hover⟩ := ih h
    exact ⟨hsub.cons u, hover⟩
  | case3 l hl => simp [firstOverlap?] at h

theorem subperm_ordered (a : Analysis) : a.ordered.Subperm a.sections :=
  (List.mergeSort_perm _ _).subperm.trans (List.filter_sublist).subperm

theorem faulty_of_firstOverlap? (hle : ∀ s ∈ a.sections, s.start ≤ s.stop) {s t : Section}
    (h : firstOverlap? a.ordered = some (s, t)) : a.Faulty (.overlap s.name t.name) := by
  obtain ⟨hsub, hover⟩ := firstOverlap?_eq_some h
  have hboth := hsub.subperm.trans a.subperm_ordered
  have hs := hle s (hboth.subset (by simp))
  have ht := hle t (hboth.subset (by simp))
  obtain ⟨offset, hshared⟩ : ∃ offset, s.contains offset = true ∧ t.contains offset = true := by
    have hnot := mt (overlaps_eq_false_iff hs ht).mpr (by simp [hover])
    simpa only [Apart, Classical.not_forall, Classical.not_not] using hnot
  exact .overlap hboth hshared.1 hshared.2

theorem validate_eq_error (hle : ∀ s ∈ a.sections, s.start ≤ s.stop) (h : a.validate = .error e) :
    (¬ (a.sections.Pairwise Apart ∧ ∀ s ∈ a.sections, s.stop ≤ a.stop) ∧
      ∃ fault, e = .inconsistent fault ∧ a.Faulty fault) ∨
    ((a.sections.Pairwise Apart ∧ ∀ s ∈ a.sections, s.stop ≤ a.stop) ∧
      e = .entryOutside a.entry a.stop) := by
  have hover := firstOverlap?_ordered a hle
  unfold validate at h
  split at h
  · rename_i s t ho
    cases h
    refine .inl ⟨fun hc => ?_, _, rfl, faulty_of_firstOverlap? hle ho⟩
    cases ho.symm.trans (hover.mpr hc.1)
  · rename_i ho
    split at h
    · rename_i s hf
      cases h
      have hpast : a.stop < s.stop := by simpa using List.find?_some hf
      have hs := List.mem_of_find?_eq_some hf
      exact .inl ⟨fun hc => Nat.not_le.mpr hpast (hc.2 s hs), _, rfl, .pastImage hs hpast⟩
    · rename_i hf
      have hin : ∀ s ∈ a.sections, s.stop ≤ a.stop := by simpa using hf
      split at h
      · cases h
      · cases h
        exact .inr ⟨⟨hover.mp ho, hin⟩, rfl⟩

theorem validate_eq_ok_iff_of_perm (h : ∀ s ∈ a.sections, s.start ≤ s.stop) {l : List Section}
    (hl : l.Perm a.sections) :
    ({ a with sections := l } : Analysis).validate = .ok () ↔ a.validate = .ok () := by
  rw [validate_eq_ok_iff _ fun s hs => h s (hl.mem_iff.mp hs), validate_eq_ok_iff a h]
  have hinside : (∀ s ∈ l, s.stop ≤ a.stop) ↔ ∀ s ∈ a.sections, s.stop ≤ a.stop := by
    simp only [hl.mem_iff]
  constructor
  · rintro ⟨hapart, hin, hentry⟩
    exact ⟨(hl.pairwise_iff Apart.symm).mp hapart, hinside.mp hin, hentry⟩
  · rintro ⟨hapart, hin, hentry⟩
    exact ⟨(hl.pairwise_iff Apart.symm).mpr hapart, hinside.mpr hin, hentry⟩

theorem validate_verdict (a : Analysis) (h : ∀ s ∈ a.sections, s.Built) :
    (a.validate = .ok () ↔
      Separate a.sections ∧ (∀ s ∈ a.sections, s.stop ≤ a.stop) ∧ a.entry < a.stop) ∧
    (∀ l : List Section, l.Perm a.sections →
      (({ a with sections := l } : Analysis).validate = .ok () ↔ a.validate = .ok ())) ∧
    ∀ e, a.validate = .error e →
      (¬ (Separate a.sections ∧ ∀ s ∈ a.sections, s.stop ≤ a.stop) →
        ∃ fault, e = .inconsistent fault ∧ a.Faulty fault) ∧
      (Separate a.sections ∧ (∀ s ∈ a.sections, s.stop ≤ a.stop) →
        e = .entryOutside a.entry a.stop) := by
  have hle : ∀ s ∈ a.sections, s.start ≤ s.stop := fun s hs => (h s hs).start_le_stop
  rw [separate_iff]
  refine ⟨?_, fun l => validate_eq_ok_iff_of_perm hle, fun e he => ?_⟩
  · rw [validate_eq_ok_iff a hle]
    exact ⟨fun hc => ⟨hc.apart, hc.inside, hc.entered⟩, fun hc => ⟨hc.1, hc.2.1, hc.2.2⟩⟩
  · rcases validate_eq_error hle he with ⟨hbad, hfault⟩ | ⟨hgood, hentry⟩
    · exact ⟨fun _ => hfault, fun hgood => absurd hgood hbad⟩
    · exact ⟨fun hbad => absurd hgood hbad, fun _ => hentry⟩

def fourSections : Analysis where
  base := 0x1000
  entry := 0x1800
  size := Word.top
  sections := [
    { name := ".top", type := .data, perms := ⟨1⟩, relative := Word.top - 0x1010, virtualSize := 16
      rawPointer := 32, rawSize := 16, start := Word.top - 16, stop := Word.top },
    { name := ".b", type := .data, perms := ⟨1⟩, relative := 0x1000, virtualSize := 16
      rawPointer := 16, rawSize := 16, start := 0x2000, stop := 0x2010 },
    { name := ".none", type := .none, perms := ⟨0⟩, relative := 0x1008, virtualSize := 0
      rawPointer := 0, rawSize := 0, start := 0x2008, stop := 0x2008 },
    { name := ".a", type := .code, perms := ⟨5⟩, relative := 0, virtualSize := 0x1000
      rawPointer := 0, rawSize := 16, start := 0x1000, stop := 0x2000 }]

def crossing : Section :=
  { name := ".c", type := .data, perms := ⟨1⟩, relative := 0x1008, virtualSize := 16
    rawPointer := 0, rawSize := 16, start := 0x2008, stop := 0x2018 }

theorem crossing_built : ∀ s ∈ crossing :: fourSections.sections, s.Built := by
  simp only [crossing, fourSections, List.forall_mem_cons]
  exact ⟨⟨".c", .data, ⟨1⟩, 0x1000, 0x1008, 16, 0, 16, rfl⟩,
    ⟨".top", .data, ⟨1⟩, 0x1000, Word.top - 0x1010, 16, 32, 16, rfl⟩,
    ⟨".b", .data, ⟨1⟩, 0x1000, 0x1000, 16, 16, 16, rfl⟩,
    ⟨".none", .none, ⟨0⟩, 0x1000, 0x1008, 0, 0, 0, rfl⟩,
    ⟨".a", .code, ⟨5⟩, 0x1000, 0, 0x1000, 0, 16, rfl⟩, nofun⟩

theorem fourSections_verdict :
    (∀ s ∈ fourSections.sections, s.Built) ∧ Separate fourSections.sections ∧
      ({ fourSections with sections := fourSections.sections.reverse } : Analysis).validate =
        .ok () ∧
      ({ fourSections with entry := Word.top } : Analysis).validate =
        .error (.entryOutside Word.top Word.top) ∧
      ∃ fault, ({ fourSections with sections := crossing :: fourSections.sections }
          : Analysis).validate = .error (.inconsistent fault) ∧
        ({ fourSections with sections := crossing :: fourSections.sections }
          : Analysis).Faulty fault := by
  have hbuilt : ∀ s ∈ fourSections.sections, s.Built := fun s hs =>
    crossing_built s (List.mem_cons_of_mem _ hs)
  have hseparate : Separate fourSections.sections := by
    have hclear : fourSections.sections.Pairwise fun s t => s.overlaps t = false := by decide
    refine (separate_iff _).mpr (hclear.imp_of_mem fun hs ht hst => ?_)
    exact (overlaps_eq_false_iff (hbuilt _ hs).start_le_stop (hbuilt _ ht).start_le_stop).mp hst
  have hinside : ∀ s ∈ fourSections.sections, s.stop ≤ Word.top := by decide
  refine ⟨hbuilt, hseparate, ?_, ?_, ?_⟩
  · obtain ⟨hiff, hperm, _⟩ := validate_verdict fourSections hbuilt
    exact (hperm _ (List.reverse_perm _)).mpr (hiff.mpr ⟨hseparate, hinside, by decide⟩)
  · obtain ⟨hiff, _, herror⟩ := validate_verdict { fourSections with entry := Word.top } hbuilt
    cases hrun : ({ fourSections with entry := Word.top } : Analysis).validate with
    | ok u => exact absurd (hiff.mp hrun).2.2 (by decide)
    | error e => rw [(herror e hrun).2 ⟨hseparate, hinside⟩]; rfl
  · obtain ⟨hiff, _, herror⟩ :=
      validate_verdict { fourSections with sections := crossing :: fourSections.sections }
        crossing_built
    have hshared : ¬ Separate (crossing :: fourSections.sections) := fun h =>
      h 0 2 (by decide) (by decide) (by decide) 0x2008 (by decide)
    cases hrun : ({ fourSections with sections := crossing :: fourSections.sections }
        : Analysis).validate with
    | ok u => exact absurd (hiff.mp hrun).1 hshared
    | error e =>
      obtain ⟨fault, rfl, hfault⟩ := (herror e hrun).1 fun h => hshared h.1
      exact ⟨fault, rfl, hfault⟩

end BinaryAtlas.Analysis
