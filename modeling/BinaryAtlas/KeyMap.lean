universe u v

namespace BinaryAtlas

structure KeyMap (α : Type u) where
  toList : List (Nat × α)
  ascending : toList.Pairwise (fun p q => p.1 < q.1)

namespace KeyMap

variable {α : Type u} {β : Type v}

def empty : KeyMap α := ⟨[], List.Pairwise.nil⟩

instance : Inhabited (KeyMap α) := ⟨empty⟩

def size (m : KeyMap α) : Nat := m.toList.length

def keys (m : KeyMap α) : List Nat := m.toList.map (·.1)

def values (m : KeyMap α) : List α := m.toList.map (·.2)

def get? (m : KeyMap α) (k : Nat) : Option α := m.toList.lookup k

def contains (m : KeyMap α) (k : Nat) : Bool := (m.get? k).isSome

def insertList (k : Nat) (v : α) : List (Nat × α) → List (Nat × α)
  | [] => [(k, v)]
  | p :: rest =>
    if k < p.1 then (k, v) :: p :: rest
    else if k = p.1 then (k, v) :: rest
    else p :: insertList k v rest

theorem mem_insertList {k : Nat} {v : α} {l : List (Nat × α)} {q : Nat × α}
    (h : q ∈ insertList k v l) : q = (k, v) ∨ q ∈ l := by
  induction l with
  | nil => simpa [insertList] using h
  | cons p rest ih =>
    unfold insertList at h
    split at h
    · simpa using h
    · split at h
      · rcases List.mem_cons.mp h with h | h
        · exact .inl h
        · exact .inr (List.mem_cons_of_mem _ h)
      · rcases List.mem_cons.mp h with h | h
        · exact .inr (h ▸ List.mem_cons_self)
        · exact (ih h).imp_right (List.mem_cons_of_mem _)

theorem pairwise_insertList {k : Nat} {v : α} {l : List (Nat × α)}
    (h : l.Pairwise (fun p q => p.1 < q.1)) :
    (insertList k v l).Pairwise (fun p q => p.1 < q.1) := by
  induction l with
  | nil => simp [insertList]
  | cons p rest ih =>
    rw [List.pairwise_cons] at h
    unfold insertList
    split
    · rename_i hk
      refine List.Pairwise.cons ?_ (List.Pairwise.cons h.1 h.2)
      intro q hq
      rcases List.mem_cons.mp hq with hq | hq
      · exact hq ▸ hk
      · exact Nat.lt_trans hk (h.1 q hq)
    · split
      · rename_i hk
        exact List.Pairwise.cons (fun q hq => hk ▸ h.1 q hq) h.2
      · refine List.Pairwise.cons ?_ (ih h.2)
        intro q hq
        rcases mem_insertList hq with hq | hq
        · subst hq
          show p.1 < k
          omega
        · exact h.1 q hq

def insert (m : KeyMap α) (k : Nat) (v : α) : KeyMap α :=
  ⟨insertList k v m.toList, pairwise_insertList m.ascending⟩

def filter (m : KeyMap α) (keep : Nat → α → Bool) : KeyMap α :=
  ⟨m.toList.filter (fun p => keep p.1 p.2), m.ascending.filter _⟩

def erase (m : KeyMap α) (k : Nat) : KeyMap α := m.filter (fun j _ => j != k)

def map (m : KeyMap α) (f : Nat → α → β) : KeyMap β :=
  ⟨m.toList.map (fun p => (p.1, f p.1 p.2)), by
    rw [List.pairwise_map]
    exact m.ascending⟩

def modify (m : KeyMap α) (k : Nat) (f : α → α) : KeyMap α :=
  m.map (fun j v => if j = k then f v else v)

def floor? (m : KeyMap α) (k : Nat) : Option (Nat × α) :=
  (m.toList.filter (fun p => p.1 ≤ k)).getLast?

def first? (m : KeyMap α) : Option (Nat × α) := m.toList.head?

def last? (m : KeyMap α) : Option (Nat × α) := m.toList.getLast?

def ofList (entries : List (Nat × α)) : KeyMap α :=
  entries.foldl (fun m p => m.insert p.1 p.2) empty

@[ext]
theorem ext_toList {m n : KeyMap α} (h : m.toList = n.toList) : m = n := by
  cases m
  cases n
  cases h
  rfl

@[simp]
theorem get?_empty (k : Nat) : (empty : KeyMap α).get? k = none := rfl

theorem lookup_insertList (k j : Nat) (v : α) (l : List (Nat × α)) :
    (insertList k v l).lookup j = if j = k then some v else l.lookup j := by
  induction l with
  | nil =>
    by_cases h : j = k
    · simp [insertList, h]
    · have : (j == k) = false := by simp [h]
      simp [insertList, List.lookup_cons, h, this]
  | cons p rest ih =>
    obtain ⟨q, w⟩ := p
    unfold insertList
    by_cases h : j = k
    · subst h
      split
      · simp
      · split
        · simp
        · rename_i h1 h2
          have hq : (j == q) = false := by simpa using h2
          simp [List.lookup_cons, hq, ih]
    · have hjk : (j == k) = false := by simp [h]
      split
      · simp [List.lookup_cons, hjk]
      · split
        · rename_i h1 h2
          have h2 : k = q := h2
          subst h2
          simp [List.lookup_cons, hjk]
        · simp only [List.lookup_cons, h, if_false] at ih ⊢
          rw [ih]

theorem get?_insert (m : KeyMap α) (k j : Nat) (v : α) :
    (m.insert k v).get? j = if j = k then some v else m.get? j :=
  lookup_insertList k j v m.toList

@[simp]
theorem get?_insert_self (m : KeyMap α) (k : Nat) (v : α) : (m.insert k v).get? k = some v := by
  simp [get?_insert]

theorem lookup_eq_none_of_lt {k : Nat} {l : List (Nat × α)} (h : ∀ p ∈ l, k < p.1) :
    l.lookup k = none := by
  rw [List.lookup_eq_none_iff]
  intro p hp
  have hlt := h p hp
  exact bne_iff_ne.mpr (Nat.ne_of_lt hlt)

theorem lookup_filter (keep : Nat → α → Bool) (k : Nat) {l : List (Nat × α)}
    (h : l.Pairwise (fun p q => p.1 < q.1)) :
    (l.filter (fun p => keep p.1 p.2)).lookup k = (l.lookup k).filter (keep k) := by
  induction l with
  | nil => rfl
  | cons p rest ih =>
    obtain ⟨j, v⟩ := p
    obtain ⟨hfirst, hrest⟩ := List.pairwise_cons.mp h
    by_cases hk : k = j
    · subst hk
      have hnone : rest.lookup k = none := lookup_eq_none_of_lt hfirst
      by_cases hv : keep k v = true
      · simp [Option.filter, hv]
      · simp [Option.filter, hv, ih hrest, hnone]
    · have hkj : (k == j) = false := by simp [hk]
      by_cases hv : keep j v = true <;> simp [hv, List.lookup_cons, hkj, ih hrest]

theorem get?_filter (m : KeyMap α) (keep : Nat → α → Bool) (k : Nat) :
    (m.filter keep).get? k = (m.get? k).filter (keep k) :=
  lookup_filter keep k m.ascending

theorem get?_erase (m : KeyMap α) (k j : Nat) :
    (m.erase k).get? j = if j = k then none else m.get? j := by
  rw [erase, get?_filter]
  split
  · rename_i hj
    cases m.get? j <;> simp [Option.filter, hj]
  · rename_i hj
    cases m.get? j <;> simp [Option.filter, hj]

theorem get?_map (m : KeyMap α) (f : Nat → α → β) (k : Nat) :
    (m.map f).get? k = (m.get? k).map (f k) := by
  simp only [get?, map]
  induction m.toList with
  | nil => rfl
  | cons p rest ih =>
    obtain ⟨j, v⟩ := p
    by_cases hk : k = j
    · simp [hk]
    · have hkj : (k == j) = false := by simp [hk]
      simp [List.lookup_cons, hkj, ih]

theorem get?_modify (m : KeyMap α) (k : Nat) (f : α → α) (j : Nat) :
    (m.modify k f).get? j = if j = k then (m.get? j).map f else m.get? j := by
  rw [modify, get?_map]
  split <;> simp

theorem mem_toList_of_get? {m : KeyMap α} {k : Nat} {v : α} (h : m.get? k = some v) :
    (k, v) ∈ m.toList := by
  obtain ⟨l₁, l₂, heq, _⟩ := List.lookup_eq_some_iff.mp h
  rw [heq]
  exact List.mem_append_right l₁ List.mem_cons_self

theorem mem_keys_of_get? {m : KeyMap α} {k : Nat} {v : α} (h : m.get? k = some v) : k ∈ m.keys :=
  List.mem_map.mpr ⟨(k, v), mem_toList_of_get? h, rfl⟩

theorem mem_values_of_get? {m : KeyMap α} {k : Nat} {v : α} (h : m.get? k = some v) :
    v ∈ m.values :=
  List.mem_map.mpr ⟨(k, v), mem_toList_of_get? h, rfl⟩

theorem eq_of_mem_of_key_eq {l : List (Nat × α)} (h : l.Pairwise (fun p q => p.1 < q.1))
    {p q : Nat × α} (hp : p ∈ l) (hq : q ∈ l) (hk : p.1 = q.1) : p = q := by
  induction l with
  | nil => cases hp
  | cons x rest ih =>
    obtain ⟨hx, hrest⟩ := List.pairwise_cons.mp h
    rcases List.mem_cons.mp hp with hpx | hpr
    · rcases List.mem_cons.mp hq with hqx | hqr
      · rw [hpx, hqx]
      · have hlt := hx q hqr
        rw [← hpx] at hlt
        omega
    · rcases List.mem_cons.mp hq with hqx | hqr
      · have hlt := hx p hpr
        rw [← hqx] at hlt
        omega
      · exact ih hrest hpr hqr

theorem get?_eq_some_iff {m : KeyMap α} {k : Nat} {v : α} :
    m.get? k = some v ↔ (k, v) ∈ m.toList := by
  refine ⟨mem_toList_of_get?, fun hmem => ?_⟩
  cases hv : m.get? k with
  | none =>
    have hne := List.lookup_eq_none_iff.mp hv (k, v) hmem
    simp at hne
  | some w =>
    have heq := eq_of_mem_of_key_eq m.ascending (mem_toList_of_get? hv) hmem rfl
    rw [(Prod.mk.injEq ..).mp heq |>.2]

theorem mem_keys_iff {m : KeyMap α} {k : Nat} : k ∈ m.keys ↔ ∃ v, m.get? k = some v := by
  constructor
  · intro h
    obtain ⟨⟨j, v⟩, hmem, rfl⟩ := List.mem_map.mp h
    exact ⟨v, get?_eq_some_iff.mpr hmem⟩
  · rintro ⟨v, hv⟩
    exact mem_keys_of_get? hv

theorem mem_keys_insert {m : KeyMap α} {k j : Nat} {v : α} :
    j ∈ (m.insert k v).keys ↔ j = k ∨ j ∈ m.keys := by
  rw [mem_keys_iff, mem_keys_iff, get?_insert]
  by_cases h : j = k <;> simp [h]

theorem getLast?_eq_some_iff_of_ascending {l : List (Nat × α)}
    (h : l.Pairwise (fun p q => p.1 < q.1)) {p : Nat × α} :
    l.getLast? = some p ↔ p ∈ l ∧ ∀ q ∈ l, q.1 ≤ p.1 := by
  constructor
  · intro hp
    obtain ⟨rest, rfl⟩ := List.getLast?_eq_some_iff.mp hp
    refine ⟨by simp, fun q hq => ?_⟩
    rcases List.mem_append.mp hq with hq | hq
    · exact Nat.le_of_lt ((List.pairwise_append.mp h).2.2 q hq p List.mem_cons_self)
    · exact Nat.le_of_eq (congrArg Prod.fst (List.mem_singleton.mp hq))
  · rintro ⟨hp, hgreatest⟩
    cases hq : l.getLast? with
    | none =>
      rw [List.getLast?_eq_none_iff.mp hq] at hp
      cases hp
    | some q =>
      obtain ⟨rest, rfl⟩ := List.getLast?_eq_some_iff.mp hq
      have hle : p.1 ≤ q.1 := by
        rcases List.mem_append.mp hp with hp | hp
        · exact Nat.le_of_lt ((List.pairwise_append.mp h).2.2 p hp q List.mem_cons_self)
        · exact Nat.le_of_eq (congrArg Prod.fst (List.mem_singleton.mp hp))
      have hge : q.1 ≤ p.1 := hgreatest q (by simp)
      rw [eq_of_mem_of_key_eq h (p := q) (by simp) hp (Nat.le_antisymm hge hle)]

theorem exists_first?_of_mem {m : KeyMap α} {k : Nat} (h : k ∈ m.keys) :
    ∃ i v, m.first? = some (i, v) ∧ i ≤ k := by
  obtain ⟨p, hp, rfl⟩ := List.mem_map.mp h
  obtain ⟨l, hl⟩ := m
  cases l with
  | nil => cases hp
  | cons q rest =>
    refine ⟨q.1, q.2, rfl, ?_⟩
    rcases List.mem_cons.mp hp with rfl | hrest
    · exact Nat.le_refl _
    · exact Nat.le_of_lt ((List.pairwise_cons.mp hl).1 p hrest)

theorem exists_last?_of_mem {m : KeyMap α} {k : Nat} (h : k ∈ m.keys) :
    ∃ j w, m.last? = some (j, w) ∧ k ≤ j := by
  obtain ⟨p, hp, rfl⟩ := List.mem_map.mp h
  cases hlast : m.last? with
  | none =>
    rw [last?, List.getLast?_eq_none_iff] at hlast
    rw [hlast] at hp
    cases hp
  | some q =>
    have hgreatest := (getLast?_eq_some_iff_of_ascending m.ascending).mp hlast
    exact ⟨q.1, q.2, rfl, hgreatest.2 p hp⟩

theorem floor?_eq_some_iff {m : KeyMap α} {k j : Nat} {v : α} :
    m.floor? k = some (j, v) ↔ m.get? j = some v ∧ j ≤ k ∧ ∀ i ∈ m.keys, i ≤ k → i ≤ j := by
  rw [floor?, getLast?_eq_some_iff_of_ascending (m.ascending.filter _), get?_eq_some_iff]
  simp only [List.mem_filter, decide_eq_true_eq, and_imp, and_assoc, keys, List.forall_mem_map]

theorem floor?_eq_none_iff {m : KeyMap α} {k : Nat} :
    m.floor? k = none ↔ ∀ j ∈ m.keys, k < j := by
  simp only [floor?, List.getLast?_eq_none_iff, List.filter_eq_nil_iff, decide_eq_true_eq, keys,
    List.forall_mem_map, Nat.not_le]

theorem floor?_insert_of_last {m : KeyMap α} {k q : Nat} (v : α) (hq : k ≤ q)
    (hlast : ∀ j ∈ m.keys, ¬ (k < j ∧ j ≤ q)) : (m.insert k v).floor? q = some (k, v) := by
  rw [floor?_eq_some_iff]
  refine ⟨get?_insert_self m k v, hq, fun j hj hle => ?_⟩
  rcases mem_keys_insert.mp hj with rfl | hold
  · exact Nat.le_refl j
  · have := hlast j hold
    omega

theorem floor?_insert_of_not_last {m : KeyMap α} {k q : Nat} (v : α)
    (h : ¬ (k ≤ q ∧ ∀ j ∈ m.keys, ¬ (k < j ∧ j ≤ q))) : (m.insert k v).floor? q = m.floor? q := by
  cases hfloor : m.floor? q with
  | none =>
    have hall := floor?_eq_none_iff.mp hfloor
    rw [floor?_eq_none_iff]
    intro j hj
    rcases mem_keys_insert.mp hj with rfl | hold
    · apply Nat.lt_of_not_le
      intro hle
      refine h ⟨hle, fun i hi => ?_⟩
      have := hall i hi
      omega
    · exact hall j hold
  | some p =>
    obtain ⟨i, w⟩ := p
    obtain ⟨hget, hle, hgreatest⟩ := floor?_eq_some_iff.mp hfloor
    have hlt : k ≤ q → k < i := by
      intro hq
      apply Nat.lt_of_not_le
      intro hge
      refine h ⟨hq, fun j hj hbetween => ?_⟩
      have := hgreatest j hj hbetween.2
      omega
    rw [floor?_eq_some_iff, get?_insert]
    refine ⟨?_, hle, fun j hj hjq => ?_⟩
    · rw [if_neg, hget]
      rintro rfl
      exact absurd (hlt hle) (Nat.lt_irrefl i)
    · rcases mem_keys_insert.mp hj with rfl | hold
      · exact Nat.le_of_lt (hlt hjq)
      · exact hgreatest j hold hjq

theorem ext_get? {m n : KeyMap α} (h : ∀ k, m.get? k = n.get? k) : m = n := by
  have hmem : ∀ p, p ∈ m.toList ↔ p ∈ n.toList := by
    intro p
    rw [← get?_eq_some_iff, ← get?_eq_some_iff, h]
  apply ext_toList
  obtain ⟨l, hl⟩ := m
  obtain ⟨l', hl'⟩ := n
  dsimp only at hmem ⊢
  clear h
  induction l generalizing l' with
  | nil =>
    cases l' with
    | nil => rfl
    | cons q rest => simpa using hmem q
  | cons p l ih =>
    cases l' with
    | nil => simpa using hmem p
    | cons q l' =>
      obtain ⟨hp, hrest⟩ := List.pairwise_cons.mp hl
      obtain ⟨hq, hrest'⟩ := List.pairwise_cons.mp hl'
      have hpq : p = q := by
        rcases List.mem_cons.mp ((hmem p).mp List.mem_cons_self) with hpq | hpl
        · exact hpq
        · rcases List.mem_cons.mp ((hmem q).mpr List.mem_cons_self) with hqp | hql
          · exact hqp.symm
          · have := hq p hpl
            have := hp q hql
            omega
      subst hpq
      refine congrArg (p :: ·) (ih hrest l' hrest' fun x => ⟨fun hx => ?_, fun hx => ?_⟩)
      · rcases List.mem_cons.mp ((hmem x).mp (List.mem_cons_of_mem p hx)) with rfl | hx'
        · exact absurd (hp x hx) (Nat.lt_irrefl _)
        · exact hx'
      · rcases List.mem_cons.mp ((hmem x).mpr (List.mem_cons_of_mem p hx)) with rfl | hx'
        · exact absurd (hq x hx) (Nat.lt_irrefl _)
        · exact hx'

theorem insert_comm {m : KeyMap α} {k j : Nat} (h : k ≠ j) (v w : α) :
    (m.insert k v).insert j w = (m.insert j w).insert k v := by
  apply ext_get?
  intro i
  simp only [get?_insert]
  by_cases hj : i = j
  · subst hj
    rw [if_pos rfl, if_neg (Ne.symm h), if_pos rfl]
  · rw [if_neg hj, if_neg hj]

theorem erase_insert {m : KeyMap α} {k : Nat} (h : m.get? k = none) (v : α) :
    (m.insert k v).erase k = m := by
  apply ext_get?
  intro i
  rw [get?_erase, get?_insert]
  by_cases hi : i = k
  · rw [if_pos hi, hi, h]
  · rw [if_neg hi, if_neg hi]

theorem mem_toList_insert {m : KeyMap α} {k : Nat} {v : α} {p : Nat × α}
    (h : p ∈ (m.insert k v).toList) : p = (k, v) ∨ p ∈ m.toList := mem_insertList h

theorem mem_toList_erase {m : KeyMap α} {k : Nat} {p : Nat × α} (h : p ∈ (m.erase k).toList) :
    p ∈ m.toList := (List.mem_filter.mp h).1

theorem length_insertList {k : Nat} {l : List (Nat × α)} (h : l.lookup k = none) (v : α) :
    (insertList k v l).length = l.length + 1 := by
  induction l with
  | nil => rfl
  | cons p rest ih =>
    obtain ⟨j, w⟩ := p
    have hk : k ≠ j := by
      rintro rfl
      simp at h
    have hkj : (k == j) = false := by simp [hk]
    simp only [List.lookup_cons, hkj] at h
    unfold insertList
    split
    · rfl
    · rw [List.length_cons, ih h, List.length_cons]

theorem size_insert {m : KeyMap α} {k : Nat} (h : m.get? k = none) (v : α) :
    (m.insert k v).size = m.size + 1 :=
  length_insertList h v

theorem length_insertList_le (k : Nat) (v : α) (l : List (Nat × α)) :
    (insertList k v l).length ≤ l.length + 1 := by
  induction l with
  | nil => exact Nat.le_refl _
  | cons p rest ih =>
    unfold insertList
    split
    · exact Nat.le_refl _
    · split
      · simp
      · simp only [List.length_cons]
        omega

theorem size_insert_le (m : KeyMap α) (k : Nat) (v : α) : (m.insert k v).size ≤ m.size + 1 :=
  length_insertList_le k v m.toList

theorem size_filter_le (m : KeyMap α) (keep : Nat → α → Bool) : (m.filter keep).size ≤ m.size :=
  List.length_filter_le _ _

theorem mem_values_insert {m : KeyMap α} {k : Nat} {v w : α} (h : w ∈ (m.insert k v).values) :
    w = v ∨ w ∈ m.values := by
  obtain ⟨p, hp, rfl⟩ := List.mem_map.mp h
  rcases mem_toList_insert hp with rfl | hold
  · exact .inl rfl
  · exact .inr (List.mem_map_of_mem hold)

theorem mem_values_erase {m : KeyMap α} {k : Nat} {v : α} (h : v ∈ (m.erase k).values) :
    v ∈ m.values := by
  obtain ⟨p, hp, rfl⟩ := List.mem_map.mp h
  exact List.mem_map_of_mem (mem_toList_erase hp)

theorem get?_foldl_insert (entries : List (Nat × α)) (m : KeyMap α) (k : Nat) :
    (entries.foldl (fun m p => m.insert p.1 p.2) m).get? k =
      (entries.reverse.lookup k).or (m.get? k) := by
  induction entries generalizing m with
  | nil => rfl
  | cons p rest ih =>
    obtain ⟨j, v⟩ := p
    rw [List.foldl_cons, ih, get?_insert, List.reverse_cons, List.lookup_append, Option.or_assoc]
    congr 1
    by_cases hk : k = j
    · simp [hk]
    · have hkj : (k == j) = false := by simp [hk]
      simp [List.lookup_cons, hk, hkj]

theorem get?_ofList (entries : List (Nat × α)) (k : Nat) :
    (ofList entries).get? k = entries.reverse.lookup k := by
  rw [ofList, get?_foldl_insert, get?_empty, Option.or_none]

theorem mem_of_mem_ofList {entries : List (Nat × α)} {p : Nat × α}
    (h : p ∈ (ofList entries).toList) : p ∈ entries := by
  rw [← Prod.eta p, ← get?_eq_some_iff, get?_ofList] at h
  obtain ⟨before, after, heq, _⟩ := List.lookup_eq_some_iff.mp h
  have hmem : p ∈ entries.reverse := by simp [heq]
  exact List.mem_reverse.mp hmem

theorem mem_values_ofList {entries : List (Nat × α)} {v : α} (h : v ∈ (ofList entries).values) :
    ∃ k, (k, v) ∈ entries := by
  obtain ⟨⟨k, w⟩, hp, rfl⟩ := List.mem_map.mp h
  exact ⟨k, mem_of_mem_ofList hp⟩

theorem lookup_reverse {l : List (Nat × α)} (h : l.Pairwise (fun p q => p.1 < q.1)) (k : Nat) :
    l.reverse.lookup k = l.lookup k := by
  induction l with
  | nil => rfl
  | cons p rest ih =>
    obtain ⟨j, v⟩ := p
    obtain ⟨hfirst, hrest⟩ := List.pairwise_cons.mp h
    rw [List.reverse_cons, List.lookup_append, ih hrest]
    by_cases hk : k = j
    · subst hk
      have hnone : rest.lookup k = none := lookup_eq_none_of_lt hfirst
      simp [hnone]
    · have hkj : (k == j) = false := by simp [hk]
      simp [List.lookup_cons, hkj]

theorem ofList_toList (m : KeyMap α) : ofList m.toList = m := by
  apply ext_get?
  intro k
  rw [get?_ofList, lookup_reverse m.ascending]
  rfl

end KeyMap

end BinaryAtlas
