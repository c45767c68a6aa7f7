import BinaryAtlas.Proofs.Heap
import BinaryAtlas.Proofs.Nesting.Depth

namespace BinaryAtlas

open Nesting

def SymbolTable.links (t : SymbolTable) : Option Ref × List Ref := (t.parent, t.children)

def Body.nesting? (b : Body) : Option (Option Ref × List Ref) := b.table?.map (·.links)

def Unnested (n : Option (Option Ref × List Ref)) : Prop := ∀ x, n = some x → x = (none, [])

namespace Heap

variable {h h' : Heap} {r p : Ref} {t u : SymbolTable}

def Tabular (h : Heap) (r : Ref) : Prop :=
  r < h.next ∧ ((h.get? r).isSome = true → (h.table? r).isSome = true)

def Linked (h : Heap) : Prop :=
  ∀ r t p, h.table? r = some t → t.parent = some p → h.Tabular p

structure Forest (h : Heap) : Prop where
  linked : h.Linked
  nested : Nested (parent? h.table?) (children h.table?)

theorem isSome_of_table? (hr : (h.table? r).isSome = true) : (h.get? r).isSome = true := by
  cases ho : h.get? r with
  | none => simp [table?, ho] at hr
  | some o => rfl

theorem tabular_of_table? (hr : (h.table? r).isSome = true) : h.Tabular r := by
  obtain ⟨o, ho⟩ := Option.isSome_iff_exists.mp (isSome_of_table? hr)
  exact ⟨lt_next ho, fun _ => hr⟩

theorem atMost_size (h : Heap) : AtMost h.table? h.size := by
  intro l hl hlive
  have hsub : l ⊆ h.objects.keys := by
    intro a ha
    obtain ⟨o, ho⟩ := Option.isSome_iff_exists.mp (isSome_of_table? (hlive a ha))
    exact KeyMap.mem_keys_of_get? ho
  have hlen := hl.length_le_of_subset hsub
  simpa [KeyMap.keys, size, KeyMap.size] using hlen

theorem table?_setBody (hr : h.table? r = some u) (t : SymbolTable) (x : Ref) :
    (h.setBody r (.table t)).table? x = if x = r then some t else h.table? x := by
  rw [table?, setBody, get?_modify]
  split
  · rename_i hx
    subst hx
    obtain ⟨o, ho, _⟩ := Option.bind_eq_some_iff.mp hr
    simp [ho, Body.table?]
  · rfl

theorem isSome_table?_setBody (hr : h.table? r = some u) (t : SymbolTable) (x : Ref) :
    ((h.setBody r (.table t)).table? x).isSome = (h.table? x).isSome := by
  rw [table?_setBody hr]
  split
  · rename_i hx
    rw [hx, hr]
    rfl
  · rfl

theorem Linked.setBody (hl : h.Linked) (hr : h.table? r = some u)
    (ht : ∀ p, t.parent = some p → h.Tabular p) : (h.setBody r (.table t)).Linked := by
  have hsame : ∀ q, h.Tabular q → (h.setBody r (.table t)).Tabular q := by
    intro q hq
    refine ⟨hq.1, fun hlive => ?_⟩
    rw [isSome_table?_setBody hr]
    apply hq.2
    rw [Heap.setBody, get?_modify] at hlive
    split at hlive
    · rwa [Option.isSome_map] at hlive
    · exact hlive
  intro x v q hx hv
  apply hsame
  rw [table?_setBody hr] at hx
  split at hx
  · cases hx
    exact ht q hv
  · exact hl x v q hx hv

theorem parent?_setBody (hr : h.table? r = some u) (t : SymbolTable) (x : Ref) :
    parent? (h.setBody r (.table t)).table? x =
      if x = r then t.parent.filter fun p => (h.table? p).isSome else parent? h.table? x := by
  simp only [parent?, isSome_table?_setBody hr]
  rw [table?_setBody hr]
  split <;> rfl

theorem children_setBody (hr : h.table? r = some u) (t : SymbolTable) (x : Ref) :
    children (h.setBody r (.table t)).table? x = if x = r then t.children else children h.table? x := by
  simp only [children, table?_setBody hr]
  split <;> rfl

theorem parent?_of_table? (hr : h.table? r = some t) :
    parent? h.table? r = t.parent.filter fun p => (h.table? p).isSome := by
  rw [parent?, hr]
  rfl

theorem children_of_table? (hr : h.table? r = some t) : children h.table? r = t.children := by
  rw [children, hr]
  rfl

theorem table?_of_le (hr : h.next ≤ r) : h.table? r = none := by
  rw [table?, get?, h.unused r hr]
  rfl

section

variable (hk : h.Keeps (fun o => o.body.nesting?) Unnested h')

include hk

theorem links_of_keeps (hr : r < h.next) :
    (h'.table? r).map (·.links) = (h.table? r).map (·.links) := by
  have hview := congrArg (Option.bind · id) (hk.old r hr)
  simpa [table?, Body.nesting?, Option.map_bind, Option.bind_map, Function.comp_def] using hview

theorem isSome_table?_of_keeps (hr : r < h.next) :
    (h'.table? r).isSome = (h.table? r).isSome := by
  have hlinks := congrArg Option.isSome (links_of_keeps hk hr)
  simpa using hlinks

theorem links_of_le (hr : h.next ≤ r) (ht : h'.table? r = some t) : t.links = (none, []) := by
  obtain ⟨o, ho, hb⟩ := Option.bind_eq_some_iff.mp ht
  apply hk.new r o hr ho
  rw [Body.nesting?, hb]
  rfl

theorem children_of_keeps : children h'.table? = children h.table? := by
  funext r
  by_cases hr : r < h.next
  · have hlinks := congrArg (fun l => (l.map Prod.snd).getD []) (links_of_keeps hk hr)
    simpa [children, SymbolTable.links, Function.comp_def] using hlinks
  · have hle := Nat.le_of_not_lt hr
    rw [children, children, table?_of_le hle]
    cases ht : h'.table? r with
    | none => rfl
    | some t => exact congrArg Prod.snd (links_of_le hk hle ht)

theorem parent?_of_keeps (hl : h.Linked) : parent? h'.table? = parent? h.table? := by
  funext r
  by_cases hr : r < h.next
  · have hstored : (h'.table? r).bind (·.parent) = (h.table? r).bind (·.parent) := by
      have hlinks := congrArg (Option.bind · Prod.fst) (links_of_keeps hk hr)
      simpa [SymbolTable.links, Option.bind_map, Function.comp_def] using hlinks
    rw [parent?, parent?, hstored]
    cases hp : (h.table? r).bind (·.parent) with
    | none => rfl
    | some p =>
      obtain ⟨t, ht, htp⟩ := Option.bind_eq_some_iff.mp hp
      rw [Option.filter, Option.filter, isSome_table?_of_keeps hk (hl r t p ht htp).1]
  · have hle := Nat.le_of_not_lt hr
    rw [parent?, parent?, table?_of_le hle]
    cases ht : h'.table? r with
    | none => rfl
    | some t =>
      have hparent : t.parent = none := congrArg Prod.fst (links_of_le hk hle ht)
      simp [hparent]

theorem Tabular.of_keeps (hr : h.Tabular r) : h'.Tabular r := by
  refine ⟨Nat.lt_of_lt_of_le hr.1 hk.next_le, fun hlive => ?_⟩
  have hview := congrArg Option.isSome (hk.old r hr.1)
  rw [Option.isSome_map, Option.isSome_map] at hview
  rw [isSome_table?_of_keeps hk hr.1]
  exact hr.2 (hview ▸ hlive)

theorem Linked.of_keeps (hl : h.Linked) : h'.Linked := by
  intro r t p ht hp
  by_cases hr : r < h.next
  · have hlinks := links_of_keeps hk hr
    rw [ht, Option.map_some, eq_comm, Option.map_eq_some_iff] at hlinks
    obtain ⟨u, hu, hut⟩ := hlinks
    exact (hl r u p hu ((congrArg Prod.fst hut).trans hp)).of_keeps hk
  · have hnone : t.parent = none :=
      congrArg Prod.fst (links_of_le hk (Nat.le_of_not_lt hr) ht)
    rw [hnone] at hp
    cases hp

theorem Forest.of_keeps (hf : h.Forest) : h'.Forest where
  linked := hf.linked.of_keeps hk
  nested := by
    rw [parent?_of_keeps hk hf.linked, children_of_keeps hk]
    exact hf.nested

end

theorem Forest.empty : empty.Forest where
  linked := by
    intro r t p ht
    cases ht
  nested := Nested.initial

theorem Forest.alloc (hf : h.Forest) {o : Object} (ho : Unnested o.body.nesting?) :
    (h.alloc o).2.Forest :=
  hf.of_keeps (.alloc ho)

section

variable {c : Ref}

def attach (h : Heap) (p c : Ref) (t u : SymbolTable) : Heap :=
  (h.setBody c (.table { u with parent := some p })).setBody p
    (.table { t with children := t.children ++ [c] })

def detach (h : Heap) (p c : Ref) (t u : SymbolTable) : Heap :=
  (h.setBody p (.table { t with children := t.children.erase c })).setBody c
    (.table { u with parent := none })

variable (ht : h.table? p = some t) (hu : h.table? c = some u) (hne : c ≠ p)

include ht hu hne

theorem table?_attached : (h.setBody c (.table { u with parent := some p })).table? p = some t := by
  rw [table?_setBody hu, if_neg hne.symm, ht]

theorem table?_detached :
    (h.setBody p (.table { t with children := t.children.erase c })).table? c = some u := by
  rw [table?_setBody ht, if_neg hne, hu]

theorem parent?_attach (x : Ref) :
    parent? (h.attach p c t u).table? x = if x = c then some p else parent? h.table? x := by
  rw [attach, parent?_setBody (table?_attached ht hu hne)]
  simp only [isSome_table?_setBody hu]
  rw [parent?_setBody hu]
  by_cases hx : x = p
  · subst hx
    rw [if_pos rfl, if_neg hne.symm, parent?_of_table? ht]
  · simp [hx, Option.filter, ht]

theorem children_attach (x : Ref) :
    children (h.attach p c t u).table? x =
      if x = p then children h.table? p ++ [c] else children h.table? x := by
  rw [attach, children_setBody (table?_attached ht hu hne), children_setBody hu]
  by_cases hx : x = c
  · subst hx
    simp [hne, children_of_table? hu]
  · simp [hx, children_of_table? ht]

theorem parent?_detach (x : Ref) :
    parent? (h.detach p c t u).table? x = if x = c then none else parent? h.table? x := by
  rw [detach, parent?_setBody (table?_detached ht hu hne)]
  simp only [isSome_table?_setBody ht]
  rw [parent?_setBody ht]
  by_cases hx : x = p
  · subst hx
    simp [hne.symm, parent?_of_table? ht]
  · simp [hx]

theorem children_detach (x : Ref) :
    children (h.detach p c t u).table? x =
      if x = p then (children h.table? p).erase c else children h.table? x := by
  rw [detach, children_setBody (table?_detached ht hu hne), children_setBody ht]
  by_cases hx : x = c
  · subst hx
    simp [hne, children_of_table? hu]
  · simp [hx, children_of_table? ht]

theorem Forest.attach (hf : h.Forest) (hfree : parent? h.table? c = none)
    (hnot : ¬ Around (parent? h.table?) p c) : (h.attach p c t u).Forest where
  linked := by
    have hp : h.Tabular p := tabular_of_table? (by rw [ht]; rfl)
    have hl : (h.setBody c (.table { u with parent := some p })).Linked :=
      hf.linked.setBody hu fun q hq => Option.some.inj hq ▸ hp
    have hpt := table?_attached ht hu hne
    exact hl.setBody hpt fun q hq => hl p t q hpt hq
  nested := by
    have hchildren := funext (children_attach ht hu hne)
    rw [hchildren]
    exact hf.nested.attach hfree hnot (parent?_attach ht hu hne)

theorem Forest.detach (hf : h.Forest) (hc : parent? h.table? c = some p) :
    (h.detach p c t u).Forest where
  linked := by
    have hl : (h.setBody p (.table { t with children := t.children.erase c })).Linked :=
      hf.linked.setBody ht fun q hq => hf.linked p t q ht hq
    refine hl.setBody (table?_detached ht hu hne) fun q hq => ?_
    cases hq
  nested := by
    have hchildren := funext (children_detach ht hu hne)
    rw [hchildren]
    exact hf.nested.detach hc (parent?_detach ht hu hne)

end

theorem mem_owned_of_mem_children {o : Object} {c : Ref} (ho : h.get? p = some o)
    (hc : c ∈ children h.table? p) : c ∈ o.body.owned := by
  cases hb : o.body with
  | table t =>
    have hct : c ∈ t.children := by simpa [children, table?, ho, hb, Body.table?] using hc
    exact List.mem_append_right _ hct
  | _ => simp [children, table?, ho, hb, Body.table?] at hc

theorem table?_of_release {roots : List Ref} {r : Ref} {t : SymbolTable}
    (hr : (h.release roots).table? r = some t) : h.table? r = some t := by
  obtain ⟨o, ho, hb⟩ := Option.bind_eq_some_iff.mp hr
  rw [table?, get?_of_release ho]
  exact hb

theorem table?_release {roots : List Ref} {r : Ref}
    (hr : ((h.release roots).get? r).isSome = true) :
    (h.release roots).table? r = h.table? r := by
  obtain ⟨o, ho⟩ := Option.isSome_iff_exists.mp hr
  rw [table?, table?, ho, get?_of_release ho]

theorem parent?_release {roots : List Ref} (x y : Ref) :
    parent? (h.release roots).table? x = some y ↔
      parent? h.table? x = some y ∧ ((h.release roots).get? x).isSome = true ∧
        ((h.release roots).get? y).isSome = true := by
  rw [parent?_eq_some_iff, parent?_eq_some_iff]
  constructor
  · rintro ⟨⟨t, ht, hp⟩, hy⟩
    have hx : ((h.release roots).table? x).isSome = true := by rw [ht]; rfl
    have hy' := isSome_of_table? hy
    rw [table?_release hy'] at hy
    exact ⟨⟨⟨t, table?_of_release ht, hp⟩, hy⟩, isSome_of_table? hx, hy'⟩
  · rintro ⟨⟨⟨t, ht, hp⟩, hy⟩, hx, hy'⟩
    rw [table?_release hx, table?_release hy']
    exact ⟨⟨t, ht, hp⟩, hy⟩

theorem children_release (h : Heap) (roots : List Ref) (x : Ref) :
    children (h.release roots).table? x =
      if ((h.release roots).get? x).isSome = true then children h.table? x else [] := by
  split
  · rename_i hx
    rw [children, children, table?_release hx]
  · rename_i hx
    have hnone : (h.release roots).get? x = none := by simpa using hx
    simp [children, table?, hnone]

theorem isSome_release_of_child {roots : List Ref} {c : Ref}
    (hp : ((h.release roots).get? p).isSome = true) (hc : c ∈ children h.table? p)
    (hlive : (h.table? c).isSome = true) : ((h.release roots).get? c).isSome = true := by
  obtain ⟨o, ho⟩ := Option.isSome_iff_exists.mp hp
  rw [get?_release_of_owned ho (mem_owned_of_mem_children (get?_of_release ho) hc)]
  exact isSome_of_table? hlive

theorem Linked.release (hl : h.Linked) (roots : List Ref) : (h.release roots).Linked := by
  intro r t p ht hp
  obtain ⟨hlt, htable⟩ := hl r t p (table?_of_release ht) hp
  refine ⟨by rwa [next_release], fun hlive => ?_⟩
  rw [table?_release hlive]
  obtain ⟨o, ho⟩ := Option.isSome_iff_exists.mp hlive
  exact htable (by rw [get?_of_release ho]; rfl)

theorem Forest.release (hf : h.Forest) (roots : List Ref) : (h.release roots).Forest where
  linked := hf.linked.release roots
  nested := by
    have hkeep : ∀ p c, ((h.release roots).get? p).isSome = true → c ∈ children h.table? p →
        ((h.release roots).get? c).isSome = true := by
      intro p c hp hc
      have hlive := (isSome_of_parent? ((hf.nested.mem_children_iff p c).mp hc)).1
      exact isSome_release_of_child hp hc hlive
    have hchildren := funext (h.children_release roots)
    rw [hchildren]
    exact hf.nested.restrict hkeep parent?_release

end Heap

end BinaryAtlas
