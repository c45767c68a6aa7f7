import BinaryAtlas.Registry

namespace BinaryAtlas.Registry

variable {live live' : Liveness} {r : Registry} {id j : HashId} {ref : Ref}

def index (live : Liveness) (r : Registry) : KeyMap Ref :=
  r.entries.filter fun _ ref => (live ref).isSome

theorem get?_eq_index (live : Liveness) (r : Registry) (id : HashId) :
    r.get? live id = (r.index live).get? id := by
  rw [index, KeyMap.get?_filter]
  rfl

theorem index_get?_eq_some_iff :
    (r.index live).get? id = some ref ↔ r.entries.get? id = some ref ∧ (live ref).isSome = true := by
  rw [index, KeyMap.get?_filter, Option.filter_eq_some_iff]

theorem index_congr (h : ∀ id ref, r.entries.get? id = some ref →
    (live ref).isSome = (live' ref).isSome) : r.index live = r.index live' := by
  apply KeyMap.ext_get?
  intro id
  apply Option.ext
  intro ref
  rw [index_get?_eq_some_iff, index_get?_eq_some_iff]
  constructor
  · rintro ⟨hget, hlive⟩
    exact ⟨hget, h id ref hget ▸ hlive⟩
  · rintro ⟨hget, hlive⟩
    exact ⟨hget, h id ref hget ▸ hlive⟩

theorem get?_congr (h : ∀ ref, (live ref).isSome = (live' ref).isSome) (r : Registry)
    (id : HashId) : r.get? live id = r.get? live' id := by
  rw [get?_eq_index, get?_eq_index, index_congr fun _ ref _ => h ref]

theorem index_eq_of_get? {s : Registry} (h : ∀ id, s.get? live id = r.get? live id) :
    s.index live = r.index live := by
  apply KeyMap.ext_get?
  intro id
  rw [← get?_eq_index, ← get?_eq_index, h]

theorem get?_erase (live : Liveness) (r : Registry) (id j : HashId) :
    get? live { r with entries := r.entries.erase id } j =
      if j = id then none else r.get? live j := by
  rw [get?, KeyMap.get?_erase]
  split <;> rfl

theorem get?_forget (live : Liveness) (r : Registry) (id j : HashId) :
    (r.forget live id).get? live j = r.get? live j := by
  unfold forget
  split
  · rename_i ref href
    split
    · rfl
    · rename_i hdead
      rw [get?_erase]
      split
      · rename_i hj
        simp [get?, hj, href, Option.filter, hdead]
      · rfl
  · rfl

theorem get?_sweep_of_agrees
    (hagree : ∀ j q, r.entries.get? j = some q → (live' q).isSome = (live q).isSome) (id : HashId) :
    (r.sweep live).get? live' id = r.get? live' id := by
  rw [get?, sweep, KeyMap.get?_filter, get?]
  cases hr : r.entries.get? id with
  | none => rfl
  | some ref => by_cases h : (live ref).isSome = true <;> simp [Option.filter, h, hagree id ref hr]

theorem get?_sweep (live : Liveness) (r : Registry) (id : HashId) :
    (r.sweep live).get? live id = r.get? live id :=
  get?_sweep_of_agrees (fun _ _ _ => rfl) id

theorem get?_place_of_agrees
    (hagree : ∀ j q, r.entries.get? j = some q → (live' q).isSome = (live q).isSome)
    (hlive : (live' ref).isSome = true) (id j : HashId) :
    (r.place live id ref).get? live' j = if j = id then some ref else r.get? live' j := by
  have hkeep : ∀ s : Registry, (∀ j, s.get? live' j = r.get? live' j) →
      get? live' { s with entries := s.entries.insert id ref } j =
        if j = id then some ref else r.get? live' j := by
    intro s hs
    rw [← hs j, get?, KeyMap.get?_insert]
    split
    · simp [Option.filter, hlive]
    · rfl
  unfold place
  dsimp only
  split
  · exact hkeep { r.sweep live with sweepAt := _ } fun j => get?_sweep_of_agrees hagree j
  · exact hkeep r fun j => rfl

theorem get?_place (live : Liveness) (r : Registry) (id j : HashId)
    (hlive : (live ref).isSome = true) :
    (r.place live id ref).get? live j = if j = id then some ref else r.get? live j :=
  get?_place_of_agrees (fun _ _ _ => rfl) hlive id j

theorem entries_of_forget (h : (r.forget live id).entries.get? j = some ref) :
    r.entries.get? j = some ref := by
  unfold forget at h
  split at h
  · split at h
    · exact h
    · rw [KeyMap.get?_erase] at h
      split at h
      · cases h
      · exact h
  · exact h

theorem entries_of_sweep (h : (r.sweep live).entries.get? j = some ref) :
    r.entries.get? j = some ref := by
  rw [sweep, KeyMap.get?_filter] at h
  exact (Option.filter_eq_some_iff.mp h).1

theorem entries_of_remove (live : Liveness) (h : (r.remove live id).2.entries.get? j = some ref) :
    r.entries.get? j = some ref := by
  rw [remove, KeyMap.get?_erase] at h
  split at h
  · cases h
  · exact h

theorem entries_of_place {q : Ref} (h : (r.place live id ref).entries.get? j = some q) :
    j = id ∧ q = ref ∨ r.entries.get? j = some q := by
  unfold place at h
  dsimp only at h
  rw [KeyMap.get?_insert] at h
  split at h
  · rename_i hj
    exact .inl ⟨hj, (Option.some.inj h).symm⟩
  · split at h
    · exact .inr (entries_of_sweep h)
    · exact .inr h

theorem index_forget (live : Liveness) (r : Registry) (id : HashId) :
    (r.forget live id).index live = r.index live :=
  index_eq_of_get? (get?_forget live r id)

theorem index_prune (live : Liveness) (r : Registry) : (r.prune live).2.index live = r.index live :=
  index_eq_of_get? (get?_sweep live r)

theorem index_place (hlive : (live ref).isSome = true) :
    (r.place live id ref).index live = (r.index live).insert id ref := by
  apply KeyMap.ext_get?
  intro j
  rw [← get?_eq_index, get?_place live r id j hlive, KeyMap.get?_insert, get?_eq_index]

theorem index_remove (live : Liveness) (r : Registry) (id : HashId) :
    (r.remove live id).2.index live = (r.index live).erase id := by
  apply KeyMap.ext_get?
  intro j
  rw [← get?_eq_index, remove, get?_erase, KeyMap.get?_erase, get?_eq_index]

theorem objects_eq_index (live : Liveness) (r : Registry) :
    r.objects live = (r.index live).values := by
  rw [objects, KeyMap.values, KeyMap.values, index, KeyMap.filter, List.filter_map]
  rfl

theorem getAs_eq_ok_iff {c : ObjectClass} :
    r.getAs live id c = .ok ref ↔ (r.index live).get? id = some ref ∧ live ref = some c := by
  rw [getAs, get?_eq_index]
  cases hget : (r.index live).get? id with
  | none => simp
  | some q =>
    have hq := (index_get?_eq_some_iff.mp hget).2
    obtain ⟨found, hfound⟩ := Option.isSome_iff_exists.mp hq
    simp only [hfound, Option.some.injEq]
    by_cases hc : found = c
    · simp only [hc, if_true, Except.ok.injEq]
      constructor
      · rintro rfl
        exact ⟨rfl, hc ▸ hfound⟩
      · exact And.left
    · simp only [hc, if_false]
      constructor
      · rintro ⟨⟩
      · rintro ⟨rfl, hlive⟩
        rw [hfound] at hlive
        exact absurd (Option.some.inj hlive) hc

end BinaryAtlas.Registry
