import BinaryAtlas.Proofs.Nesting.Forest

namespace BinaryAtlas.Nesting

variable {tables : Ref → Option SymbolTable} {size : Nat} {p c r a : Ref}

def parent? (tables : Ref → Option SymbolTable) (r : Ref) : Option Ref :=
  ((tables r).bind (·.parent)).filter fun p => (tables p).isSome

def children (tables : Ref → Option SymbolTable) (r : Ref) : List Ref :=
  ((tables r).map (·.children)).getD []

def inside (tables : Ref → Option SymbolTable) (extent : Ref → Option Nat) (offset : Nat) :
    Nat → Ref → List Ref
  | 0, _ => []
  | depth + 1, r =>
    ((children tables r).filter (spannedBy tables extent offset)).flatMap
      (inside tables extent offset depth) ++ [r]

def AtMost (tables : Ref → Option SymbolTable) (size : Nat) : Prop :=
  ∀ l : List Ref, l.Nodup → (∀ a ∈ l, (tables a).isSome = true) → l.length ≤ size

theorem parent?_eq_some_iff : parent? tables r = some p ↔
    (∃ t, tables r = some t ∧ t.parent = some p) ∧ (tables p).isSome = true := by
  rw [parent?, Option.filter_eq_some_iff, Option.bind_eq_some_iff]

theorem isSome_of_parent? (h : parent? tables r = some p) :
    (tables r).isSome = true ∧ (tables p).isSome = true := by
  obtain ⟨⟨t, ht, _⟩, hp⟩ := parent?_eq_some_iff.mp h
  exact ⟨by rw [ht]; rfl, hp⟩

theorem isSome_of_around (hr : (tables r).isSome = true) (h : Around (parent? tables) r a) :
    (tables a).isSome = true := by
  induction h with
  | refl => exact hr
  | tail _ hstep _ => exact (isSome_of_parent? hstep).2

theorem chain_eq_nil (h : tables r = none) (depth : Nat) : chain tables depth r = [] := by
  cases depth with
  | zero => rfl
  | succ depth => simp [chain, h]

theorem chain_succ (h : (tables r).isSome = true) (depth : Nat) :
    chain tables (depth + 1) r = r :: match parent? tables r with
      | some p => chain tables depth p
      | none => [] := by
  obtain ⟨t, ht⟩ := Option.isSome_iff_exists.mp h
  cases hp : t.parent with
  | none => simp [chain, parent?, ht, hp]
  | some p =>
    cases htp : tables p with
    | none => simp [chain, parent?, Option.filter, ht, hp, htp, chain_eq_nil htp]
    | some u => simp [chain, parent?, Option.filter, ht, hp, htp]

theorem exists_chain (h : Grounded (parent? tables) r) (hr : (tables r).isSome = true) :
    ∃ l : List Ref, l.Nodup ∧ (∀ a, a ∈ l ↔ Around (parent? tables) r a) ∧
      ∀ depth, l.length ≤ depth → chain tables depth r = l := by
  induction h with
  | @root r top =>
    refine ⟨[r], List.nodup_singleton r, fun a => ?_, fun depth hd => ?_⟩
    · rw [around_none top, List.mem_singleton]
    · obtain ⟨depth, rfl⟩ := Nat.exists_eq_add_of_le' hd
      simp [chain_succ hr, top]
  | @step r p up rest ih =>
    obtain ⟨l, hnodup, hmem, hchain⟩ := ih (isSome_of_parent? up).2
    refine ⟨r :: l, ?_, fun a => ?_, fun depth hd => ?_⟩
    · rw [List.nodup_cons, hmem]
      exact ⟨rest.not_around r up, hnodup⟩
    · rw [around_some up, List.mem_cons, hmem]
    · obtain ⟨depth, rfl⟩ := Nat.exists_eq_add_of_le' (Nat.le_trans (Nat.le_add_left 1 _) hd)
      rw [chain_succ hr, up]
      simp only [hchain depth (Nat.le_of_succ_le_succ hd)]

theorem findSome?_flatMap_filter {β : Type} (l : List Ref) (keep : Ref → Bool)
    (f : Ref → List Ref) (g : Ref → Option β) :
    ((l.filter keep).flatMap f).findSome? g =
      l.findSome? fun c => if keep c then (f c).findSome? g else none := by
  induction l with
  | nil => rfl
  | cons c l ih =>
    by_cases hc : keep c = true
    · rw [List.filter_cons_of_pos hc, List.flatMap_cons, List.findSome?_append, ih,
        List.findSome?_cons, if_pos hc]
      cases (f c).findSome? g <;> rfl
    · rw [List.filter_cons_of_neg hc, ih, List.findSome?_cons, if_neg hc]

theorem down?_eq_findSome? (extent : Ref → Option Nat) (offset : Nat) (depth : Nat) (r : Ref) :
    down? tables extent offset depth r =
      (inside tables extent offset depth r).findSome? (hitIn? tables extent offset) := by
  induction depth generalizing r with
  | zero => rfl
  | succ depth ih =>
    rw [inside, List.findSome?_append, findSome?_flatMap_filter]
    cases ht : tables r with
    | none => simp [down?, children, hitIn?, ht]
    | some t =>
      simp only [down?, ht, children, Option.map_some, Option.getD_some, ih, List.findSome?_cons,
        List.findSome?_nil]
      cases t.children.findSome? fun c =>
          if spannedBy tables extent offset c = true then
            (inside tables extent offset depth c).findSome? (hitIn? tables extent offset)
          else none with
      | some found => rfl
      | none => cases hitIn? tables extent offset r <;> rfl

section

variable (hn : Nested (parent? tables) (children tables)) (hs : AtMost tables size)

include hn hs

theorem exists_chain_le (hr : (tables r).isSome = true) :
    ∃ l : List Ref, l.length ≤ size ∧ (∀ a, a ∈ l ↔ Around (parent? tables) r a) ∧
      ∀ depth, l.length ≤ depth → chain tables depth r = l := by
  obtain ⟨l, hnodup, hmem, hchain⟩ := exists_chain (hn.grounded r) hr
  exact ⟨l, hs l hnodup fun a ha => isSome_of_around hr ((hmem a).mp ha), hmem, hchain⟩

theorem mem_chain_iff (hr : (tables r).isSome = true) :
    a ∈ chain tables size r ↔ Around (parent? tables) r a := by
  obtain ⟨l, hle, hmem, hchain⟩ := exists_chain_le hn hs hr
  rw [hchain size hle, hmem]

theorem chain_eq_of_le {depth : Nat} (hd : size ≤ depth) :
    chain tables depth r = chain tables size r := by
  cases hr : tables r with
  | none => rw [chain_eq_nil hr, chain_eq_nil hr]
  | some t =>
    obtain ⟨l, hle, _, hchain⟩ := exists_chain_le hn hs (r := r) (by rw [hr]; rfl)
    rw [hchain depth (Nat.le_trans hle hd), hchain size hle]

theorem length_chain_le (r : Ref) : (chain tables size r).length ≤ size := by
  cases hr : tables r with
  | none => simp [chain_eq_nil hr]
  | some t =>
    obtain ⟨l, hle, _, hchain⟩ := exists_chain_le hn hs (r := r) (by rw [hr]; rfl)
    rwa [hchain size hle]

theorem length_chain_of_parent? (h : parent? tables c = some p) :
    (chain tables size c).length = (chain tables size p).length + 1 := by
  rw [← chain_eq_of_le hn hs (Nat.le_succ size), chain_succ (isSome_of_parent? h).1, h]
  rfl

theorem inside_eq_of_lt (extent : Ref → Option Nat) (offset : Nat) (depth depth' : Nat) (r : Ref)
    (hd : size < depth + (chain tables size r).length)
    (hd' : size < depth' + (chain tables size r).length) :
    inside tables extent offset depth r = inside tables extent offset depth' r := by
  induction depth generalizing depth' r with
  | zero =>
    have := length_chain_le hn hs r
    omega
  | succ depth ih =>
    cases depth' with
    | zero =>
      have := length_chain_le hn hs r
      omega
    | succ depth' =>
      rw [inside, inside]
      congr 1
      apply List.flatMap_congr
      intro c hc
      have hp := (hn.mem_children_iff r c).mp (List.mem_filter.mp hc).1
      have hlen := length_chain_of_parent? hn hs hp
      exact ih depth' c (by omega) (by omega)

theorem down?_eq_of_lt (extent : Ref → Option Nat) (offset : Nat) (depth depth' : Nat) (r : Ref)
    (hd : size < depth + (chain tables size r).length)
    (hd' : size < depth' + (chain tables size r).length) :
    down? tables extent offset depth r = down? tables extent offset depth' r := by
  rw [down?_eq_findSome?, down?_eq_findSome?,
    inside_eq_of_lt hn hs extent offset depth depth' r hd hd']

theorem down?_eq_of_le (extent : Ref → Option Nat) {depth : Nat} (hd : size ≤ depth) (r : Ref)
    (offset : Nat) :
    down? tables extent offset depth r = down? tables extent offset size r := by
  cases hr : tables r with
  | none => cases depth <;> cases size <;> simp [down?, hr]
  | some t =>
    have hmem := (mem_chain_iff hn hs (r := r) (by rw [hr]; rfl)).mpr .refl
    have hpos := List.length_pos_of_mem hmem
    exact down?_eq_of_lt hn hs extent offset depth size r (by omega) (by omega)

theorem lookup?_eq_of_le (extent : Ref → Option Nat) {depth : Nat} (hd : size ≤ depth) (r : Ref)
    (offset : Nat) :
    lookup? tables extent depth r offset = lookup? tables extent size r offset := by
  simp only [lookup?, down?_eq_of_le hn hs extent hd, chain_eq_of_le hn hs hd]

end

end BinaryAtlas.Nesting
