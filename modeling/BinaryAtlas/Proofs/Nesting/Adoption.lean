import BinaryAtlas.Proofs.Nesting.Heap

namespace BinaryAtlas

namespace Nesting

variable {f g : Ref → Option Ref} {children : Ref → List Ref} {alive : Ref → Prop} {t q : Ref}
  {cs : List Ref}

/-- The list names no table twice and none around `t`, nothing alive holds one of its tables but
`t`, and no child that `t` had is left behind alive. -/
structure Adoptable (f : Ref → Option Ref) (children : Ref → List Ref) (alive : Ref → Prop)
    (t : Ref) (cs : List Ref) : Prop where
  nodup : cs.Nodup
  inward : ∀ c ∈ cs, ¬ Around f t c
  free : ∀ c ∈ cs, ∀ p, f c = some p → p = t ∨ ¬ alive p
  complete : ∀ d ∈ children t, d ∈ cs ∨ ¬ alive d

def refill (children : Ref → List Ref) (t : Ref) (cs : List Ref) (x : Ref) : List Ref :=
  if x = t then cs else children x

def reroute (f : Ref → Option Ref) (q : Ref) (cs : List Ref) (x : Ref) : Option Ref :=
  if x ∈ cs then some q else f x

section

variable (hn : Nested f children) (ht : alive t)
  (howned : ∀ p c, alive p → c ∈ refill children t cs p → alive c)
  (hg : ∀ x y, g x = some y ↔ reroute f q cs x = some y ∧ alive x ∧ alive y)

include hn

theorem Adoptable.grounded (ha : Adoptable f children alive t cs) (hq : cs = [] ∨ q = t)
    (r : Ref) : Grounded (reroute f q cs) r := by
  have hsame : ∀ x, x ∉ cs → reroute f q cs x = f x := fun x hx => if_neg hx
  have hgroundt : Grounded (reroute f q cs) t := by
    apply (hn.grounded t).congr
    intro x hx
    exact hsame x fun hc => ha.inward x hc hx
  have hchild : ∀ c ∈ cs, Grounded (reroute f q cs) c := by
    intro c hc
    rcases hq with rfl | rfl
    · cases hc
    · exact .step (if_pos hc) hgroundt
  induction hn.grounded r with
  | @root r top =>
    by_cases hr : r ∈ cs
    · exact hchild r hr
    · exact .root ((hsame r hr).trans top)
  | @step r p up _ ih =>
    by_cases hr : r ∈ cs
    · exact hchild r hr
    · exact .step ((hsame r hr).trans up) ih

include ht howned hg

theorem Nested.of_adoptable [DecidablePred alive] (ha : Adoptable f children alive t cs)
    (hq : cs = [] ∨ q = t) :
    Nested g (fun x => if alive x then refill children t cs x else []) where
  mem_children_iff p c := by
    rw [hg]
    by_cases hp : alive p
    · rw [if_pos hp]
      constructor
      · intro hc
        refine ⟨?_, howned p c hp hc, hp⟩
        by_cases hpt : p = t
        · subst hpt
          rw [refill, if_pos rfl] at hc
          rw [reroute, if_pos hc, hq.resolve_left (List.ne_nil_of_mem hc)]
        · rw [refill, if_neg hpt, hn.mem_children_iff] at hc
          have hnot : c ∉ cs := fun hmem => (ha.free c hmem p hc).elim hpt (absurd hp)
          rw [reroute, if_neg hnot, hc]
      · rintro ⟨hup, hc, -⟩
        rw [reroute] at hup
        by_cases hmem : c ∈ cs
        · rw [if_pos hmem, hq.resolve_left (List.ne_nil_of_mem hmem)] at hup
          cases hup
          rwa [refill, if_pos rfl]
        · rw [if_neg hmem, ← hn.mem_children_iff] at hup
          have hpt : p ≠ t := by
            rintro rfl
            exact (ha.complete c hup).elim hmem (absurd hc)
          rwa [refill, if_neg hpt]
    · simp [hp]
  nodup p := by
    by_cases hp : alive p
    · rw [if_pos hp, refill]
      split
      · exact ha.nodup
      · exact hn.nodup p
    · simp [hp]
  grounded r := (ha.grounded hn hq r).mono fun x y hx => ((hg x y).mp hx).1

-- The way from `t` to a table of the list around it leads down from that table to `t` again, so all
-- tables on it stay alive, and the first that the list names closes a circle.
theorem exists_around_of_around {c : Ref} (hc : Around f t c) (halive : alive c) :
    Around g t c ∨ ∃ d ∈ cs, Around g t d := by
  induction hc with
  | refl => exact .inl .refl
  | @tail b d hb hbd ih =>
    have hdt : d ≠ t := by
      rintro rfl
      exact (hn.grounded d).not_around b hbd hb
    have hbalive : alive b := by
      apply howned d b halive
      rwa [refill, if_neg hdt, hn.mem_children_iff]
    rcases ih hbalive with haround | hclosed
    · by_cases hmem : b ∈ cs
      · exact .inr ⟨b, hmem, haround⟩
      · refine .inl (haround.tail ((hg b d).mpr ⟨?_, hbalive, halive⟩))
        rw [reroute, if_neg hmem, hbd]
    · exact .inr hclosed

theorem Nested.adoptable [DecidablePred alive]
    (hn' : Nested g (fun x => if alive x then refill children t cs x else [])) :
    Adoptable f children alive t cs ∧ (cs = [] ∨ q = t) := by
  have hlisted : ∀ c ∈ cs, g c = some t := by
    intro c hc
    rw [← hn'.mem_children_iff, if_pos ht, refill, if_pos rfl]
    exact hc
  have hq : ∀ c ∈ cs, q = t := by
    intro c hc
    have hup := ((hg c t).mp (hlisted c hc)).1
    rw [reroute, if_pos hc] at hup
    exact Option.some.inj hup
  have halive : ∀ c ∈ cs, alive c := fun c hc => ((hg c t).mp (hlisted c hc)).2.1
  refine ⟨⟨?_, fun c hc hround => ?_, fun c hc p hp => ?_, fun d hd => ?_⟩, ?_⟩
  · have hnodup := hn'.nodup t
    rwa [if_pos ht, refill, if_pos rfl] at hnodup
  · have hclosed : ∃ d ∈ cs, Around g t d := by
      rcases exists_around_of_around hn ht howned hg hround (halive c hc) with haround | hclosed
      · exact ⟨c, hc, haround⟩
      · exact hclosed
    obtain ⟨d, hd, haround⟩ := hclosed
    exact (hn'.grounded t).not_around d (hlisted d hd) haround
  · by_contra hcontra
    obtain ⟨hpt, hpalive⟩ := not_or.mp hcontra
    have hup : g c = some p := by
      rw [← hn'.mem_children_iff, if_pos (not_not.mp hpalive), refill, if_neg hpt,
        hn.mem_children_iff, hp]
    rw [hlisted c hc] at hup
    exact hpt (Option.some.inj hup).symm
  · by_contra hcontra
    obtain ⟨hmem, hdalive⟩ := not_or.mp hcontra
    have hup : g d = some t := by
      refine (hg d t).mpr ⟨?_, not_not.mp hdalive, ht⟩
      rw [reroute, if_neg hmem, ← hn.mem_children_iff]
      exact hd
    rw [← hn'.mem_children_iff, if_pos ht, refill, if_pos rfl] at hup
    exact hmem hup
  · cases cs with
    | nil => exact .inl rfl
    | cons c rest => exact .inr (hq c List.mem_cons_self)

end

end Nesting

open Nesting

namespace Heap

variable {h : Heap} {r q x : Ref} {cs : List Ref} {t : SymbolTable}

def adopt (q : Ref) (h : Heap) (c : Ref) : Heap :=
  match h.table? c with
  | some t => h.setBody c (.table { t with parent := some q })
  | none => h

theorem table?_adopt (q : Ref) (h : Heap) (c x : Ref) :
    (adopt q h c).table? x =
      if x = c then (h.table? x).map fun t => { t with parent := some q } else h.table? x := by
  unfold adopt
  split
  · rename_i t ht
    rw [table?_setBody ht]
    split
    · rename_i hx
      rw [hx, ht]
      rfl
    · rfl
  · rename_i hnone
    split
    · rename_i hx
      rw [hx, hnone]
      rfl
    · rfl

theorem table?_adopted (q : Ref) (h : Heap) (cs : List Ref) (x : Ref) :
    (cs.foldl (adopt q) h).table? x =
      if x ∈ cs then (h.table? x).map fun t => { t with parent := some q } else h.table? x := by
  induction cs generalizing h with
  | nil => rfl
  | cons c rest ih =>
    rw [List.foldl_cons, ih, table?_adopt]
    by_cases hx : x = c
    · cases h.table? x <;> simp [hx]
    · simp [hx]

theorem isSome_table?_adopted (q : Ref) (h : Heap) (cs : List Ref) (x : Ref) :
    ((cs.foldl (adopt q) h).table? x).isSome = (h.table? x).isSome := by
  rw [table?_adopted]
  split
  · rw [Option.isSome_map]
  · rfl

theorem parent?_adopted (hq : (h.table? q).isSome = true)
    (hcs : ∀ c ∈ cs, (h.table? c).isSome = true) :
    parent? (cs.foldl (adopt q) h).table? = reroute (parent? h.table?) q cs := by
  funext x
  simp only [parent?, isSome_table?_adopted]
  rw [table?_adopted, reroute]
  by_cases hx : x ∈ cs
  · obtain ⟨t, ht⟩ := Option.isSome_iff_exists.mp (hcs x hx)
    simp [hx, ht, Option.filter, hq]
  · simp [hx, parent?]

theorem children_adopted (q : Ref) (h : Heap) (cs : List Ref) :
    children (cs.foldl (adopt q) h).table? = children h.table? := by
  funext x
  rw [children, children, table?_adopted]
  split
  · cases h.table? x <;> rfl
  · rfl

theorem Linked.adopted (hl : h.Linked) (hq : (h.table? q).isSome = true) (cs : List Ref) :
    (cs.foldl (adopt q) h).Linked := by
  induction cs generalizing h with
  | nil => exact hl
  | cons c rest ih =>
    apply ih
    · unfold adopt
      split
      · rename_i t ht
        exact hl.setBody ht fun p hp => Option.some.inj hp ▸ tabular_of_table? hq
      · exact hl
    · exact (isSome_table?_adopted q h [c] q).trans hq

section

variable (hr : h.table? r = some t)

include hr

theorem Linked.setEntries (hl : h.Linked) (symbols : KeyMap Ref) (cs : List Ref) :
    (h.setBody r (.table { t with symbols, children := cs })).Linked :=
  hl.setBody hr fun p hp => hl r t p hr hp

theorem parent?_setEntries (symbols : KeyMap Ref) (cs : List Ref) :
    parent? (h.setBody r (.table { t with symbols, children := cs })).table? =
      parent? h.table? := by
  funext x
  rw [parent?_setBody hr]
  split
  · rename_i hx
    rw [hx, parent?_of_table? hr]
  · rfl

theorem children_setEntries (symbols : KeyMap Ref) (cs : List Ref) :
    children (h.setBody r (.table { t with symbols, children := cs })).table? =
      refill (children h.table?) r cs :=
  funext (children_setBody hr _)

end

structure Adopted (h h' : Heap) (r q : Ref) (cs : List Ref) : Prop where
  linked : h'.Linked
  parent?_eq : parent? h'.table? = reroute (parent? h.table?) q cs
  children_eq : children h'.table? = refill (children h.table?) r cs
  live : ∀ x, (h.table? x).isSome = true → (h'.table? x).isSome = true

theorem Adopted.of_keeps {h₁ h₂ : Heap} (ha : h.Adopted h₁ r q cs)
    (hk : h₁.Keeps (fun o => o.body.nesting?) Unnested h₂) : h.Adopted h₂ r q cs where
  linked := ha.linked.of_keeps hk
  parent?_eq := (parent?_of_keeps hk ha.linked).trans ha.parent?_eq
  children_eq := (children_of_keeps hk).trans ha.children_eq
  live x hx := by
    have hlive := ha.live x hx
    exact (isSome_table?_of_keeps hk (tabular_of_table? hlive).1).trans hlive

theorem adopted_setEntries {h₁ : Heap} (hl : h.Linked) (hq : (h.table? q).isSome = true)
    (hcs : ∀ c ∈ cs, (h.table? c).isSome = true)
    (hk : (cs.foldl (adopt q) h).Keeps (fun o => o.body.nesting?) Unnested h₁)
    (hr : h₁.table? r = some t) (symbols : KeyMap Ref) :
    h.Adopted (h₁.setBody r (.table { t with symbols, children := cs })) r q cs where
  linked := ((hl.adopted hq cs).of_keeps hk).setEntries hr symbols cs
  parent?_eq := by
    rw [parent?_setEntries hr, parent?_of_keeps hk (hl.adopted hq cs), parent?_adopted hq hcs]
  children_eq := by
    rw [children_setEntries hr, children_of_keeps hk, children_adopted]
  live x hx := by
    have hlive := (isSome_table?_adopted q h cs x).trans hx
    rw [isSome_table?_setBody hr, isSome_table?_of_keeps hk (tabular_of_table? hlive).1, hlive]

end Heap

end BinaryAtlas
