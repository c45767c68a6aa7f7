import BinaryAtlas.Heap

/-!
What steps of a session leave of the objects of the heap. A view is a part of an object; a step
keeps it if no object dies and none that was there looks different afterwards. A release lets those
objects die that are held neither from outside nor by survivors.
-/

namespace BinaryAtlas.Heap

variable {β : Type} {view : Object → β} {fresh : β → Prop} {h h₁ h₂ : Heap}

theorem ext_get? (hnext : h₁.next = h₂.next) (hget : ∀ r, h₁.get? r = h₂.get? r) : h₁ = h₂ := by
  obtain ⟨objects₁, next₁, _⟩ := h₁
  obtain ⟨objects₂, next₂, _⟩ := h₂
  cases hnext
  cases KeyMap.ext_get? hget
  rfl

theorem modify_eq_self {r : Ref} {o : Object} {f : Object → Object} (ho : h.get? r = some o)
    (hf : f o = o) : h.modify r f = h := by
  apply ext_get?
  · rfl
  · intro q
    rw [get?_modify]
    split
    · rename_i hq
      rw [hq, ho, Option.map_some, hf]
    · rfl

/-- All objects look as before, and the new ones look `fresh`. -/
structure Keeps (view : Object → β) (fresh : β → Prop) (h h' : Heap) : Prop where
  next_le : h.next ≤ h'.next
  old : ∀ r, r < h.next → (h'.get? r).map view = (h.get? r).map view
  new : ∀ r o, h.next ≤ r → h'.get? r = some o → fresh (view o)

theorem Keeps.refl (h : Heap) : h.Keeps view fresh h where
  next_le := Nat.le_refl _
  old _ _ := rfl
  new _ _ hr ho := absurd (lt_next ho) (Nat.not_lt.mpr hr)

theorem Keeps.trans (hk : h.Keeps view fresh h₁) (hk₁ : h₁.Keeps view fresh h₂) :
    h.Keeps view fresh h₂ where
  next_le := Nat.le_trans hk.next_le hk₁.next_le
  old r hr := (hk₁.old r (Nat.lt_of_lt_of_le hr hk.next_le)).trans (hk.old r hr)
  new r o hr ho := by
    by_cases hr₁ : r < h₁.next
    · have hview := hk₁.old r hr₁
      rw [ho, eq_comm, Option.map_some, Option.map_eq_some_iff] at hview
      obtain ⟨o₁, ho₁, hv⟩ := hview
      exact hv ▸ hk.new r o₁ hr ho₁
    · exact hk₁.new r o (Nat.le_of_not_lt hr₁) ho

theorem Keeps.exists_get? (hk : h.Keeps view fresh h₁) {r : Ref} {o : Object}
    (ho : h.get? r = some o) : ∃ o₁, h₁.get? r = some o₁ ∧ view o₁ = view o := by
  have hview := hk.old r (lt_next ho)
  rw [ho, Option.map_some, Option.map_eq_some_iff] at hview
  exact hview

theorem Keeps.modify {r : Ref} {f : Object → Object}
    (hf : ∀ o, h.get? r = some o → view (f o) = view o) : h.Keeps view fresh (h.modify r f) where
  next_le := Nat.le_refl _
  old q _ := by
    rw [get?_modify]
    split
    · rename_i hq
      subst hq
      cases ho : h.get? q with
      | none => rfl
      | some o => rw [Option.map_some, Option.map_some, Option.map_some, hf o ho]
    · rfl
  new q o hq ho := absurd (lt_next ho) (Nat.not_lt.mpr hq)

theorem get?_setBody {r : Ref} {o : Object} (ho : h.get? r = some o) (b : Body) (q : Ref) :
    (h.setBody r b).get? q = if q = r then some { o with body := b } else h.get? q := by
  rw [setBody, get?_modify]
  split
  · rename_i hq
    rw [hq, ho]
    rfl
  · rfl

theorem bind_setBody {γ : Type} {r : Ref} {o : Object} {b : Body} (view : Object → Option γ)
    (ho : h.get? r = some o) (hview : view { o with body := b } = view o) (q : Ref) :
    ((h.setBody r b).get? q).bind view = (h.get? q).bind view := by
  rw [get?_setBody ho]
  split
  · rename_i hq
    rw [hq, ho, Option.bind_some, Option.bind_some, hview]
  · rfl

theorem setBody_comm {r q : Ref} {b' : Body} (hq : q ≠ r) (b : Body) :
    (h.setBody r b).setBody q b' = (h.setBody q b').setBody r b := by
  apply ext_get?
  · rfl
  · intro x
    simp only [setBody, get?_modify]
    by_cases hx : x = q
    · have hr : x ≠ r := fun hr => hq (hx.symm.trans hr)
      rw [if_pos hx, if_neg hr, if_neg hr, if_pos hx]
    · rw [if_neg hx, if_neg hx]

theorem setBody_setBody (r : Ref) (b b' : Body) :
    (h.setBody r b).setBody r b' = h.setBody r b' := by
  apply ext_get?
  · rfl
  · intro x
    simp only [setBody, get?_modify]
    split
    · rw [Option.map_map]
      rfl
    · rfl

theorem table?_eq_some_iff {r : Ref} {t : SymbolTable} :
    h.table? r = some t ↔ ∃ o, h.get? r = some o ∧ o.body = .table t := by
  simp [table?, Option.bind_eq_some_iff]

theorem image?_eq_some_iff {r : Ref} {i : Image} :
    h.image? r = some i ↔ ∃ o, h.get? r = some o ∧ o.body = .image i := by
  simp [image?, Option.bind_eq_some_iff]

theorem setBody_image {r : Ref} {i : Image} (hi : h.image? r = some i) :
    h.setBody r (.image i) = h := by
  obtain ⟨o, ho, hb⟩ := Option.bind_eq_some_iff.mp hi
  rw [Body.image?_eq_some_iff] at hb
  exact modify_eq_self ho (by rw [← hb])

theorem image?_setBody {r : Ref} {i : Image} (hi : h.image? r = some i) (j : Image) (q : Ref) :
    (h.setBody r (.image j)).image? q = if q = r then some j else h.image? q := by
  obtain ⟨o, ho, _⟩ := Option.bind_eq_some_iff.mp hi
  rw [image?, setBody, get?_modify]
  split
  · rename_i hq
    rw [hq, ho]
    rfl
  · rfl

theorem Keeps.alloc {o : Object} (ho : fresh (view o)) : h.Keeps view fresh (h.alloc o).2 where
  next_le := Nat.le_succ _
  old r hr := by rw [get?_alloc, if_neg (Nat.ne_of_lt hr)]
  new r o' hr ho' := by
    rw [get?_alloc] at ho'
    split at ho'
    · cases ho'
      exact ho
    · exact absurd (lt_next ho') (Nat.not_lt.mpr hr)

theorem isOwned_iff {r : Ref} :
    h.isOwned r = true ↔ ∃ p o, h.get? p = some o ∧ r ∈ o.body.owned := by
  constructor
  · intro hr
    obtain ⟨o, ho, hmem⟩ := List.any_eq_true.mp hr
    obtain ⟨⟨p, o⟩, hp, rfl⟩ := List.mem_map.mp ho
    exact ⟨p, o, KeyMap.get?_eq_some_iff.mpr hp, by simpa using hmem⟩
  · rintro ⟨p, o, ho, hmem⟩
    exact isOwned_of_get? ho hmem

theorem held_of_release {roots : List Ref} {r : Ref} {o : Object}
    (hr : (h.release roots).get? r = some o) :
    r ∈ roots ∨ ∃ p q, (h.release roots).get? p = some q ∧ r ∈ q.body.owned := by
  fun_induction release h roots with
  | case1 h _ ih => exact ih hr
  | case2 h hfull =>
    have hle : (h.sweep roots).size ≤ h.size := List.length_filter_le _ _
    have hall := List.length_filter_eq_length_iff.mp (Nat.le_antisymm hle (Nat.not_lt.mp hfull))
    have hkept := hall (r, o) (KeyMap.mem_toList_of_get? hr)
    simpa [isOwned_iff] using hkept

theorem get?_release_of_held {roots : List Ref} {K : Ref → Prop} {r : Ref}
    (hK : ∀ r, K r → r ∈ roots ∨ ∃ p o, K p ∧ h.get? p = some o ∧ r ∈ o.body.owned)
    (hr : K r) : (h.release roots).get? r = h.get? r := by
  fun_induction release h roots with
  | case1 h _ ih =>
    have hsame : ∀ q, K q → (h.sweep roots).get? q = h.get? q := by
      intro q hq
      have hkept : (roots.contains q || h.isOwned q) = true := by
        rcases hK q hq with hroot | ⟨p, o, _, ho, hmem⟩
        · simp [hroot]
        · simp [isOwned_of_get? ho hmem]
      rw [get?_sweep, hkept]
      cases h.get? q <;> rfl
    refine (ih fun q hq => ?_).trans (hsame r hr)
    rcases hK q hq with hroot | ⟨p, o, hp, ho, hmem⟩
    · exact .inl hroot
    · exact .inr ⟨p, o, hp, (hsame p hp).trans ho, hmem⟩
  | case2 h _ => rfl

end BinaryAtlas.Heap
