import Mathlib.Data.List.Nodup
import Mathlib.Logic.Relation
import BinaryAtlas.Nesting

namespace BinaryAtlas.Nesting

variable {f g : Ref → Option Ref} {children : Ref → List Ref} {p c r x y : Ref}

def Around (f : Ref → Option Ref) : Ref → Ref → Prop :=
  Relation.ReflTransGen fun x y => f x = some y

inductive Grounded (f : Ref → Option Ref) : Ref → Prop
  | root {r : Ref} (top : f r = none) : Grounded f r
  | step {r p : Ref} (up : f r = some p) (rest : Grounded f p) : Grounded f r

structure Nested (f : Ref → Option Ref) (children : Ref → List Ref) : Prop where
  mem_children_iff : ∀ p c, c ∈ children p ↔ f c = some p
  nodup : ∀ p, (children p).Nodup
  grounded : ∀ r, Grounded f r

theorem around_none (h : f r = none) : Around f r x ↔ x = r := by
  constructor
  · intro hx
    rcases Relation.ReflTransGen.cases_head hx with rfl | ⟨y, hy, _⟩
    · rfl
    · rw [h] at hy
      cases hy
  · rintro rfl
    exact .refl

theorem around_some (h : f r = some p) : Around f r x ↔ x = r ∨ Around f p x := by
  constructor
  · intro hx
    rcases Relation.ReflTransGen.cases_head hx with rfl | ⟨y, hy, hyx⟩
    · exact .inl rfl
    · rw [h] at hy
      cases hy
      exact .inr hyx
  · rintro (rfl | hx)
    · exact .refl
    · exact .head h hx

-- A way back from `p` to `r` would lead through `p` again, so all tables around `p` are on it.
theorem Grounded.not_around (h : Grounded f p) : ∀ r, f r = some p → ¬ Around f p r := by
  induction h with
  | @root p top =>
    intro r hr hpr
    rw [around_none top] at hpr
    rw [hpr, top] at hr
    cases hr
  | @step p q up rest ih =>
    intro r hr hpr
    apply ih p up
    rcases (around_some up).mp hpr with rfl | hqr
    · rw [up] at hr
      cases hr
      exact .refl
    · exact hqr.tail hr

theorem Grounded.exists_root (h : Grounded f r) : ∃ root, Around f r root ∧ f root = none := by
  induction h with
  | @root r top => exact ⟨r, .refl, top⟩
  | step up rest ih =>
    obtain ⟨root, hr, htop⟩ := ih
    exact ⟨root, (around_some up).mpr (.inr hr), htop⟩

theorem Grounded.of_around (h : Around f r x) (top : f x = none) : Grounded f r := by
  induction h using Relation.ReflTransGen.head_induction_on with
  | refl => exact .root top
  | head up _ ih => exact .step up ih

theorem Grounded.mono (hg : ∀ x y, g x = some y → f x = some y) (h : Grounded f r) :
    Grounded g r := by
  induction h with
  | @root r top =>
    apply Grounded.root
    cases hr : g r with
    | none => rfl
    | some y => rw [hg r y hr] at top; cases top
  | @step r p up rest ih =>
    cases hr : g r with
    | none => exact .root hr
    | some y =>
      have hy := hg r y hr
      rw [up] at hy
      cases hy
      exact .step hr ih

theorem Grounded.congr (h : Grounded f r) (hg : ∀ x, Around f r x → g x = f x) : Grounded g r := by
  induction h with
  | @root r top => exact .root ((hg r .refl).trans top)
  | @step r p up rest ih =>
    refine .step ((hg r .refl).trans up) (ih fun x hx => hg x ?_)
    exact (around_some up).mpr (.inr hx)

theorem Nested.initial : Nested (fun _ => none) (fun _ => []) where
  mem_children_iff p c := by simp
  nodup p := List.nodup_nil
  grounded r := .root rfl

theorem Nested.attach (h : Nested f children) (hfree : f c = none) (hnot : ¬ Around f p c)
    (hg : ∀ x, g x = if x = c then some p else f x) :
    Nested g (fun x => if x = p then children p ++ [c] else children x) where
  mem_children_iff q d := by
    have hmem := h.mem_children_iff q d
    have hg := hg d
    by_cases hd : d = c
    · subst hd
      rw [hfree] at hmem
      rw [if_pos rfl] at hg
      by_cases hq : q = p
      · simp [hq, hg]
      · have hqp : ¬ p = q := fun e => hq e.symm
        simp [hq, hqp, hg, hmem]
    · rw [if_neg hd] at hg
      by_cases hq : q = p
      · subst hq
        simp [hg, hmem, hd]
      · simp [hq, hg, hmem]
  nodup q := by
    by_cases hq : q = p
    · have hc : c ∉ children p := by
        rw [h.mem_children_iff, hfree]
        simp
      rw [if_pos hq, ← List.concat_eq_append]
      exact (h.nodup p).concat hc
    · simpa [hq] using h.nodup q
  grounded r := by
    have hother : ∀ x, x ≠ c → g x = f x := fun x hx => by rw [hg, if_neg hx]
    have hp : Grounded g p := by
      apply (h.grounded p).congr
      intro x hx
      exact hother x fun e => hnot (e ▸ hx)
    have hc : Grounded g c := .step (by rw [hg, if_pos rfl]) hp
    induction h.grounded r with
    | @root r top =>
      by_cases hr : r = c
      · exact hr ▸ hc
      · exact .root ((hother r hr).trans top)
    | @step r q up rest ih =>
      by_cases hr : r = c
      · exact hr ▸ hc
      · exact .step ((hother r hr).trans up) ih

theorem Nested.detach (h : Nested f children) (hc : f c = some p)
    (hg : ∀ x, g x = if x = c then none else f x) :
    Nested g (fun x => if x = p then (children p).erase c else children x) where
  mem_children_iff q d := by
    have hmem := h.mem_children_iff q d
    have hg := hg d
    by_cases hq : q = p
    · subst hq
      by_cases hd : d = c
      · subst hd
        simp [hg, (h.nodup q).mem_erase_iff]
      · simp [hg, hd, (h.nodup q).mem_erase_iff, hmem]
    · by_cases hd : d = c
      · have hqp : ¬ p = q := fun e => hq e.symm
        subst hd
        simp [hq, hg, hmem, hc, hqp]
      · simp [hq, hd, hg, hmem]
  nodup q := by
    by_cases hq : q = p
    · simpa [hq] using (h.nodup p).erase c
    · simpa [hq] using h.nodup q
  grounded r := by
    apply (h.grounded r).mono
    intro x y hx
    rw [hg] at hx
    split at hx
    · cases hx
    · exact hx

theorem Nested.restrict (h : Nested f children) {keep : Ref → Prop} [DecidablePred keep]
    (hkeep : ∀ p c, keep p → c ∈ children p → keep c)
    (hg : ∀ x y, g x = some y ↔ f x = some y ∧ keep x ∧ keep y) :
    Nested g (fun x => if keep x then children x else []) where
  mem_children_iff p c := by
    rw [hg, ← h.mem_children_iff]
    by_cases hp : keep p
    · simpa [hp] using hkeep p c hp
    · simp [hp]
  nodup p := by
    by_cases hp : keep p
    · simpa [hp] using h.nodup p
    · simp [hp]
  grounded r := (h.grounded r).mono fun x y hx => ((hg x y).mp hx).1

end BinaryAtlas.Nesting
