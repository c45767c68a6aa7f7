import BinaryAtlas.Proofs.Session.Quiet

namespace BinaryAtlas.Session

open Nesting (Around)

variable {s : Session} {p c r : Ref} {id : HashId}

def children (s : Session) (r : Ref) : List Ref := Nesting.children s.heap.table? r

theorem parent?_eq (hl : s.heap.Linked) : s.parent? = Nesting.parent? s.heap.table? := by
  funext r
  rw [parent?, Nesting.parent?]
  cases hp : (s.heap.table? r).bind (·.parent) with
  | none => rfl
  | some p =>
    obtain ⟨t, ht, htp⟩ := Option.bind_eq_some_iff.mp hp
    have hlive : (s.heap.get? p).isSome = (s.heap.table? p).isSome := by
      rw [Bool.eq_iff_iff]
      exact ⟨(hl r t p ht htp).2, Heap.isSome_of_table?⟩
    rw [Option.filter, Option.filter, hlive]

theorem isWithin_iff (hf : s.heap.Forest) (hp : (s.heap.table? p).isSome = true) (id : HashId) :
    s.isWithin p id = true ↔ ∃ a, Around s.parent? p a ∧ s.heap.id? a = some id := by
  rw [isWithin, withId?, List.find?_isSome, parent?_eq hf.linked]
  simp only [Nesting.mem_chain_iff hf.nested s.heap.atMost_size hp, beq_iff_eq]

theorem addChild_eq_true_iff (hf : s.heap.Forest) (hp : (s.heap.table? p).isSome = true)
    (hc : (s.heap.table? c).isSome = true) :
    (s.addChild p c).1 = true ↔
      s.parent? c = none ∧ ∀ a, Around s.parent? p a → s.heap.id? a ≠ s.heap.id? c := by
  obtain ⟨t, ht⟩ := Option.isSome_iff_exists.mp hp
  obtain ⟨u, hu⟩ := Option.isSome_iff_exists.mp hc
  obtain ⟨o, ho, _⟩ := Option.bind_eq_some_iff.mp hu
  have hid : s.heap.id? c = some o.id := by rw [Heap.id?, ho]; rfl
  have htrue : (s.addChild p c).1 = true ↔
      ¬ s.isWithin p o.id = true ∧ ¬ (s.parent? c).isSome = true := by
    simp only [addChild, ht, hu, hid]
    split
    · rename_i hif
      rw [← not_or, ← Bool.or_eq_true]
      simp [hif]
    · rename_i hif
      rw [← not_or, ← Bool.or_eq_true]
      simp [hif]
  rw [htrue, isWithin_iff hf hp, hid, and_comm, Option.not_isSome_iff_eq_none]
  simp only [not_exists, not_and, ne_eq]

theorem addChild_refused (h : (s.addChild p c).1 = false) : (s.addChild p c).2 = s := by
  unfold addChild at h ⊢
  split
  · split
    · rfl
    · simp_all
  · rfl

theorem addChild_heap (h : (s.addChild p c).1 = true) :
    ∃ t u, s.heap.table? p = some t ∧ s.heap.table? c = some u ∧
      (s.heap.attach p c t u).Keeps (fun o => o.body.nesting?) Unnested
        (s.addChild p c).2.heap := by
  unfold addChild at h ⊢
  split at h
  · rename_i t u id ht hu _
    refine ⟨t, u, ht, hu, ?_⟩
    split at h
    · cases h
    · rename_i hif
      simp only [hu, hif, setParent]
      exact notify_quiet { s with heap := s.heap.attach p c t u } .changed p
  · cases h

theorem forest_addChild (hf : s.heap.Forest) (h : (s.addChild p c).1 = true) :
    (s.addChild p c).2.heap.Forest ∧
      (∀ x, (s.addChild p c).2.parent? x = if x = c then some p else s.parent? x) ∧
      ∀ x, (s.addChild p c).2.children x =
        if x = p then s.children p ++ [c] else s.children x := by
  obtain ⟨t, u, ht, hu, hk⟩ := addChild_heap h
  have hp : (s.heap.table? p).isSome = true := by rw [ht]; rfl
  have hc : (s.heap.table? c).isSome = true := by rw [hu]; rfl
  obtain ⟨hfree, hids⟩ := (addChild_eq_true_iff hf hp hc).mp h
  have hnot : ¬ Around s.parent? p c := fun hpc => hids c hpc rfl
  have hne : c ≠ p := by
    rintro rfl
    exact hnot .refl
  rw [parent?_eq hf.linked] at hfree hnot
  have ha := hf.attach ht hu hne hfree hnot
  have hf' := ha.of_keeps hk
  refine ⟨hf', fun x => ?_, fun x => ?_⟩
  · rw [parent?_eq hf'.linked, Heap.parent?_of_keeps hk ha.linked, parent?_eq hf.linked,
      Heap.parent?_attach ht hu hne]
  · rw [children, Heap.children_of_keeps hk, Heap.children_attach ht hu hne]
    rfl

theorem removeChild_refused (h : (s.removeChild p id).1 = none) :
    (s.removeChild p id).2 = s := by
  unfold removeChild at h ⊢
  split
  · rfl
  · split
    · rfl
    · simp_all

theorem removeChild_heap (h : (s.removeChild p id).1 = some c) :
    ∃ t, s.heap.table? p = some t ∧ c ∈ t.children ∧ s.heap.id? c = some id ∧
      ∀ u, s.heap.table? c = some u → c ≠ p →
        (s.heap.detach p c t u).Keeps (fun o => o.body.nesting?) Unnested
          (s.removeChild p id).2.heap := by
  unfold removeChild at h ⊢
  split at h
  · cases h
  · rename_i t ht
    split at h
    · cases h
    · rename_i child hchild
      cases h
      have hid := List.find?_some hchild
      refine ⟨t, ht, List.mem_of_find?_eq_some hchild, by simpa using hid, fun u hu hne => ?_⟩
      simp only [setParent, Heap.table?_detached ht hu hne]
      exact notify_quiet { s with heap := s.heap.detach p c t u } .changed p

theorem forest_removeChild (hf : s.heap.Forest) (h : (s.removeChild p id).1 = some c) :
    (s.removeChild p id).2.heap.Forest ∧ c ∈ s.children p ∧ s.heap.id? c = some id ∧
      (∀ x, (s.removeChild p id).2.parent? x = if x = c then none else s.parent? x) ∧
      ∀ x, (s.removeChild p id).2.children x =
        if x = p then (s.children p).erase c else s.children x := by
  obtain ⟨t, ht, hmem, hid, hdetach⟩ := removeChild_heap h
  have hchild : c ∈ s.children p := by
    rw [children, Heap.children_of_table? ht]
    exact hmem
  have hparent := (hf.nested.mem_children_iff p c).mp hchild
  obtain ⟨u, hu⟩ := Option.isSome_iff_exists.mp (Nesting.isSome_of_parent? hparent).1
  have hne : c ≠ p := by
    rintro rfl
    exact (hf.nested.grounded c).not_around c hparent .refl
  have hk := hdetach u hu hne
  have ha := hf.detach ht hu hne hparent
  have hf' := ha.of_keeps hk
  refine ⟨hf', hchild, hid, fun x => ?_, fun x => ?_⟩
  · rw [parent?_eq hf'.linked, Heap.parent?_of_keeps hk ha.linked, parent?_eq hf.linked,
      Heap.parent?_detach ht hu hne]
  · rw [children, Heap.children_of_keeps hk, Heap.children_detach ht hu hne]
    rfl

theorem forest_initial (config : Config) (supply : Nat → Uuid) :
    (initial config supply).heap.Forest := Heap.Forest.empty

theorem forest_perform (hf : s.heap.Forest) {command : Command}
    (hc : s.restoresTable command = false) : (s.perform command).2.heap.Forest := by
  cases hn : command.renests with
  | false => exact hf.of_keeps (perform_quiet s command hn hc)
  | true =>
    cases command with
    | addChild table child =>
      refine withHandle_elim (P := (·.heap.Forest)) hf fun t _ => ?_
      refine withHandle_elim (P := (·.heap.Forest)) hf fun c _ => ?_
      show (s.addChild t c).2.heap.Forest
      cases h : (s.addChild t c).1 with
      | false => rwa [addChild_refused h]
      | true => exact (forest_addChild hf h).1
    | removeChild table id =>
      refine withHandle_elim (P := (·.heap.Forest)) hf fun t _ => ?_
      show (s.removeChild t id).2.heap.Forest
      cases h : (s.removeChild t id).1 with
      | none => rwa [removeChild_refused h]
      | some c => exact (forest_removeChild hf h).1
    | _ => cases hn

/-- The sessions that commands lead to, as long as no table is restored from a record. -/
inductive Grown : Session → Prop
  | initial (config : Config) (supply : Nat → Uuid) : Grown (initial config supply)
  | run {s : Session} (command : Command) (grown : Grown s)
      (unrestored : s.restoresTable command = false) : Grown (s.run command).2

theorem Grown.forest (hs : s.Grown) : s.heap.Forest := by
  induction hs with
  | initial config supply => exact forest_initial config supply
  | run command _ unrestored ih => exact (forest_perform ih unrestored).release _

theorem Grown.runs {commands : List Command} (hs : s.Grown)
    (hc : ∀ command ∈ commands, ∀ s : Session, s.restoresTable command = false) :
    (commands.foldl (fun s command => (s.run command).2) s).Grown := by
  induction commands generalizing s with
  | nil => exact hs
  | cons command rest ih =>
    exact ih (hs.run command (hc command List.mem_cons_self s))
      fun c h => hc c (List.mem_cons_of_mem command h)

/-- Tables lie in each other like the nodes of a forest, and the walks through them see all of
it. -/
structure Nests (s : Session) : Prop where
  mem_children_iff : ∀ p c, (s.heap.table? p).isSome = true → (s.heap.table? c).isSome = true →
    (c ∈ s.children p ↔ s.parent? c = some p)
  isSome_of_mem : ∀ p c, c ∈ s.children p → (s.heap.table? c).isSome = true
  nodup : ∀ p, (s.children p).Nodup
  unique : ∀ p q c, c ∈ s.children p → c ∈ s.children q → p = q
  exists_root : ∀ r, (s.heap.table? r).isSome = true →
    ∃ root, (s.heap.table? root).isSome = true ∧ Around s.parent? r root ∧ s.parent? root = none
  mem_chain_iff : ∀ r a, (s.heap.table? r).isSome = true →
    (a ∈ Nesting.chain s.heap.table? s.heap.size r ↔ Around s.parent? r a)
  chain_eq : ∀ depth r, s.heap.size ≤ depth →
    Nesting.chain s.heap.table? depth r = Nesting.chain s.heap.table? s.heap.size r
  down_eq : ∀ depth r offset, s.heap.size ≤ depth →
    Nesting.down? s.heap.table? s.extent offset depth r =
      Nesting.down? s.heap.table? s.extent offset s.heap.size r
  lookup_eq : ∀ depth r offset, s.heap.size ≤ depth →
    Nesting.lookup? s.heap.table? s.extent depth r offset =
      Nesting.lookup? s.heap.table? s.extent s.heap.size r offset

structure Renests (s : Session) : Prop where
  addChild_iff : ∀ p c, (s.heap.table? p).isSome = true → (s.heap.table? c).isSome = true →
    ((s.addChild p c).1 = true ↔
      s.parent? c = none ∧ ∀ a, Around s.parent? p a → s.heap.id? a ≠ s.heap.id? c)
  addChild_links : ∀ p c, (s.addChild p c).1 = true →
    (∀ x, (s.addChild p c).2.parent? x = if x = c then some p else s.parent? x) ∧
      ∀ x, (s.addChild p c).2.children x = if x = p then s.children p ++ [c] else s.children x
  addChild_refused : ∀ p c, (s.addChild p c).1 = false → (s.addChild p c).2 = s
  removeChild_links : ∀ p id c, (s.removeChild p id).1 = some c →
    c ∈ s.children p ∧ s.heap.id? c = some id ∧
      (∀ x, (s.removeChild p id).2.parent? x = if x = c then none else s.parent? x) ∧
      ∀ x, (s.removeChild p id).2.children x =
        if x = p then (s.children p).erase c else s.children x
  removeChild_refused : ∀ p id, (s.removeChild p id).1 = none → (s.removeChild p id).2 = s

theorem nests_of_forest (hf : s.heap.Forest) : s.Nests := by
  have hparent := parent?_eq hf.linked
  have hn := hf.nested
  have hsize := s.heap.atMost_size
  rw [← hparent] at hn
  constructor
  case mem_children_iff =>
    intro p c _ _
    exact hn.mem_children_iff p c
  case isSome_of_mem =>
    intro p c hc
    exact (Nesting.isSome_of_parent? ((hf.nested.mem_children_iff p c).mp hc)).1
  case nodup => exact hn.nodup
  case unique =>
    intro p q c hp hq
    have hcp := (hn.mem_children_iff p c).mp hp
    rw [(hn.mem_children_iff q c).mp hq] at hcp
    exact (Option.some.inj hcp).symm
  case exists_root =>
    intro r hr
    obtain ⟨root, haround, hroot⟩ := (hn.grounded r).exists_root
    refine ⟨root, Nesting.isSome_of_around hr ?_, haround, hroot⟩
    rwa [← hparent]
  case mem_chain_iff =>
    intro r a hr
    rw [Nesting.mem_chain_iff hf.nested hsize hr, hparent]
  case chain_eq =>
    intro depth r hd
    exact Nesting.chain_eq_of_le hf.nested hsize hd
  case down_eq =>
    intro depth r offset hd
    exact Nesting.down?_eq_of_le hf.nested hsize s.extent hd r offset
  case lookup_eq =>
    intro depth r offset hd
    exact Nesting.lookup?_eq_of_le hf.nested hsize s.extent hd r offset

theorem grown_nesting (s : Session) (hs : s.Grown) : s.Nests ∧ s.Renests := by
  have hf := hs.forest
  refine ⟨nests_of_forest hf, ?_⟩
  constructor
  case addChild_iff =>
    intro p c hp hc
    exact addChild_eq_true_iff hf hp hc
  case addChild_links =>
    intro p c h
    exact (forest_addChild hf h).2
  case addChild_refused =>
    intro p c h
    exact addChild_refused h
  case removeChild_links =>
    intro p id c h
    exact (forest_removeChild hf h).2
  case removeChild_refused =>
    intro p id h
    exact removeChild_refused h

def outerDied : Session :=
  [ .makeTable "outer" (some ⟨1⟩) "outer", .makeTable "inner" (some ⟨2⟩) "inner",
    .makeTable "leaf" (some ⟨3⟩) "leaf", .addChild "outer" "inner", .addChild "inner" "leaf",
    .drop "outer"].foldl (fun s command => (s.run command).2) (initial {} Uuid.mk)

theorem outerDied_nesting :
    (outerDied.parent? 1 = none ∧ outerDied.parent? 2 = some 1 ∧
      (outerDied.heap.table? 0).isNone = true) ∧ outerDied.Nests ∧ outerDied.Renests := by
  have hgrown : outerDied.Grown := by
    unfold outerDied
    simp only [List.foldl_cons, List.foldl_nil]
    repeat apply Grown.run _ _ rfl
    exact .initial {} Uuid.mk
  exact ⟨by decide +kernel, grown_nesting outerDied hgrown⟩

end BinaryAtlas.Session
