import BinaryAtlas.Proofs.Session.Moves
import BinaryAtlas.Proofs.Session.Reachable

/-!
Who keeps what alive. Symbols own their types, tables their symbols and the tables in them, images
their tables and spaces their images; so of the ways in which an object can own another only those
from table to table lead to an object of the same class, and the tables are a forest. Hence nothing
lives that cannot be reached from a handle.
-/

namespace BinaryAtlas

theorem storeBlind_parts : Session.StoreBlind fun o => o.body.parts := by
  intro o i store hi
  dsimp only
  rw [hi]
  rfl

def ObjectClass.height : ObjectClass → Nat
  | .dataType => 0
  | .symbol => 1
  | .symbolTable => 2
  | .image => 3
  | .addressSpace => 4

theorem ObjectClass.height_le (c : ObjectClass) : c.height ≤ ObjectClass.addressSpace.height := by
  cases c <;> decide

theorem Body.height_of_mem_parts {b : Body} {c : ObjectClass} {r : Ref} (h : (c, r) ∈ b.parts) :
    c.height < b.classOf.height ∨
      c = .symbolTable ∧ ∃ t, b = .table t ∧ r ∈ t.children := by
  cases b with
  | dataType k => cases h
  | symbol y =>
    cases List.mem_singleton.mp h
    exact .inl (Nat.lt_succ_self _)
  | table t =>
    rcases List.mem_append.mp h with h | h
    · obtain ⟨y, _, heq⟩ := List.mem_map.mp h
      cases heq
      exact .inl (Nat.lt_succ_self _)
    · obtain ⟨q, hq, heq⟩ := List.mem_map.mp h
      cases heq
      exact .inr ⟨rfl, t, rfl, hq⟩
  | image i =>
    cases List.mem_singleton.mp h
    exact .inl (Nat.lt_succ_self _)
  | space images =>
    obtain ⟨q, _, heq⟩ := List.mem_map.mp h
    cases heq
    exact .inl (Nat.lt_succ_self _)

def Heap.Owns (h : Heap) (p r : Ref) : Prop := ∃ o, h.get? p = some o ∧ r ∈ o.body.owned

namespace Session

variable {fit : ObjectClass → ObjectClass → Prop} {s s' : Session} {command : Command} {p r : Ref}
  {b : Body}

structure Intact (fit : ObjectClass → ObjectClass → Prop) (s : Session) : Prop where
  parts : ∀ r b, s.heap.body? r = some b → ∀ p ∈ b.parts, s.heap.Stands fit p
  held : ∀ h ∈ s.handles, (s.heap.get? h.2).isSome = true

theorem intact_initial (config : Config) (supply : Nat → Uuid) :
    (initial config supply).Intact fit := ⟨nofun, nofun⟩

theorem Intact.of_eq (h : s.Intact fit) (hheap : s'.heap = s.heap)
    (hhandles : s'.handles = s.handles) : s'.Intact fit := by
  constructor
  · rw [hheap]
    exact h.parts
  · rw [hheap, hhandles]
    exact h.held

theorem isSome_of_keeps {β : Type} {view : Object → β} {fresh : β → Prop}
    (hk : s.heap.Keeps view fresh s'.heap) (hr : (s.heap.get? r).isSome = true) :
    (s'.heap.get? r).isSome = true := by
  obtain ⟨o, ho⟩ := Option.isSome_iff_exists.mp hr
  obtain ⟨o', ho', _⟩ := hk.exists_get? ho
  rw [ho']
  rfl

theorem Intact.of_keeps (h : s.Intact fit)
    (hk : s.heap.Keeps Object.classOf (fun _ => True) s'.heap)
    (hparts : s.heap.Keeps (fun o => o.body.parts) (fun l => ∀ p ∈ l, s.heap.Stands fit p) s'.heap)
    (hhandles : s'.handles = s.handles) : s'.Intact fit where
  parts r b hb p hp := by
    apply Heap.Stands.of_keeps hk
    obtain ⟨o, ho, rfl⟩ := Heap.body?_eq_some_iff.mp hb
    by_cases hr : r < s.heap.next
    · have hold := hparts.old r hr
      rw [ho, Option.map_some, eq_comm, Option.map_eq_some_iff] at hold
      obtain ⟨o₀, ho₀, heq⟩ := hold
      rw [← heq] at hp
      exact h.parts r o₀.body (Heap.body?_eq_some_iff.mpr ⟨o₀, ho₀, rfl⟩) p hp
    · exact hparts.new r o (Nat.le_of_not_lt hr) ho p hp
  held q hq := isSome_of_keeps hk (h.held q (hhandles ▸ hq))

theorem handles_unregister (s : Session) (id : HashId) : (s.unregister id).2.handles = s.handles :=
  reactive_handles.unregister s id

theorem handles_enter (s : Session) (o : Object) : (s.enter o).2.handles = s.handles := by
  unfold enter
  split
  · rfl
  · exact notify_handles _ .added _

theorem handles_reregister (s : Session) (r : Ref) : (s.reregister r).2.handles = s.handles := by
  unfold reregister
  split
  · rfl
  · split
    · rfl
    · exact notify_handles _ .added _

theorem Intact.setBody (h : s.Intact fit) {b₀ : Body} (old : s.heap.body? r = some b₀)
    (hk : s.heap.Keeps Object.classOf (fun _ => True) (s.setBody r b).heap)
    (parts : ∀ p ∈ b.parts, p ∈ b₀.parts ∨ s.heap.Stands fit p) : (s.setBody r b).Intact fit where
  parts q b' hb' p hp := by
    apply Heap.Stands.of_keeps hk
    rw [Session.setBody, Heap.body?_setBody old] at hb'
    split at hb'
    · cases hb'
      rcases parts p hp with hold | hnew
      · exact h.parts r b₀ old p hold
      · exact hnew
    · exact h.parts q b' hb' p hp
  held q hq := isSome_of_keeps hk (h.held q hq)

theorem Intact.move (h : s.Intact fit) (hmove : Move fit s s') : s'.Intact fit := by
  have hk := hmove.keeps
  cases hmove with
  | reads reads => exact h.of_eq reads.heap reads.handles
  | aside => exact h.of_eq rfl rfl
  | bind handle live =>
    refine ⟨h.parts, fun q hq => ?_⟩
    rcases List.mem_cons.mp hq with rfl | hq
    · exact live
    · exact h.held q (List.mem_filter.mp hq).1
  | unbind handle => exact ⟨h.parts, fun q hq => h.held q (List.mem_filter.mp hq).1⟩
  | modify r same => exact h.of_keeps hk (.modify fun o _ => by rw [(same o).2]) rfl
  | setBody old _ parts => exact h.setBody old hk parts
  | changed r =>
    exact h.of_keeps hk (notify_keeps storeBlind_parts s .changed r) (notify_handles s .changed r)
  | enter parts => exact h.of_keeps hk (enter_keeps storeBlind_parts s parts) (handles_enter s _)
  | reregister r =>
    exact h.of_keeps hk (reregister_keeps storeBlind_parts s r) (handles_reregister s r)
  | unregister id =>
    exact h.of_keeps hk (unregister_keeps storeBlind_parts s id) (handles_unregister s id)

theorem Intact.moves (h : s.Intact fit) (hmoves : s.Moves fit s') : s'.Intact fit := by
  induction hmoves with
  | refl => exact h
  | tail _ hmove ih => exact ih.move hmove

theorem Intact.settle (h : s.Intact fit) : s.settle.Intact fit where
  parts r b hb p hp := by
    obtain ⟨o, ho, rfl⟩ := Heap.body?_eq_some_iff.mp hb
    have hbefore := Heap.get?_of_release ho
    obtain ⟨c, hc, hfits⟩ := h.parts r o.body (Heap.body?_eq_some_iff.mpr ⟨o, hbefore, rfl⟩) p hp
    refine ⟨c, ?_, hfits⟩
    have hsurvives := Heap.get?_release_of_owned ho (Body.mem_owned_iff.mpr ⟨p.1, hp⟩)
    rw [Heap.class?, Session.settle, hsurvives]
    exact hc
  held q hq := by
    have hroot : q.2 ∈ s.handles.map (·.2) := List.mem_map_of_mem hq
    rw [Session.settle, Heap.get?_release_of_root hroot]
    exact h.held q hq

theorem Intact.run (hfit : ∀ c, fit c c) (h : s.Intact fit) (hs : s.Supplies fit command) :
    (s.run command).2.Intact fit := by
  refine Intact.settle (s := (s.perform command).2) ?_
  cases hc : command.subscribes with
  | false => exact h.moves (moves_perform hfit hc hs)
  | true =>
    obtain ⟨chain, hs'⟩ := perform_subscribes (s := s) hc
    rw [hs']
    exact h.of_eq rfl rfl

def Settled (s : Session) : Prop :=
  ∀ r o, s.heap.get? r = some o → r ∈ s.handles.map (·.2) ∨ ∃ p, s.heap.Owns p r

theorem settled_settle (s : Session) : s.settle.Settled := by
  intro r o ho
  rcases Heap.held_of_release ho with hroot | ⟨p, q, hq, hmem⟩
  · exact .inl hroot
  · exact .inr ⟨p, q, hq, hmem⟩

section

variable (hs : s.Settled) (hold : ∀ q < s.heap.next, s'.heap.get? q = s.heap.get? q)
  (hhandles : s'.handles = s.handles)

include hs hold hhandles

theorem Settled.survives {o : Object} (ho : s.heap.get? r = some o) :
    s'.settle.heap.get? r = some o := by
  have hsame : s'.settle.heap.get? r = s'.heap.get? r := by
    refine Heap.get?_release_of_held (K := fun q => ∃ o, s.heap.get? q = some o) ?_ ⟨o, ho⟩
    rintro q ⟨o, ho⟩
    rw [hhandles]
    rcases hs q o ho with hroot | ⟨p, o', ho', hmem⟩
    · exact .inl hroot
    · exact .inr ⟨p, o', ⟨o', ho'⟩, (hold p (Heap.lt_next ho')).trans ho', hmem⟩
  rw [hsame, hold r (Heap.lt_next ho), ho]

theorem Settled.get?_settle
    (hnew : ∀ q o, s'.settle.heap.get? q = some o → q < s.heap.next) (q : Ref) :
    s'.settle.heap.get? q = s.heap.get? q := by
  cases hq : s.heap.get? q with
  | some o => exact hs.survives hold hhandles hq
  | none =>
    rw [Option.eq_none_iff_forall_ne_some]
    intro o ho
    have hbefore := Heap.get?_of_release ho
    rw [hold q (hnew q o ho), hq] at hbefore
    cases hbefore

end

theorem Reachable.settled (hs : s.Reachable) : s.Settled := by
  cases hs with
  | initial config supply => exact nofun
  | run command _ _ => exact settled_settle _

theorem mem_handles_of_handle? {handle : String} (h : s.handle? handle = some r) :
    (handle, r) ∈ s.handles := by
  obtain ⟨before, after, hlist, _⟩ := List.lookup_eq_some_iff.mp h
  simp [hlist]

theorem Intact.supplies (h : s.Intact fit) (command : Command) :
    s.Supplies (fun _ _ => True) command := by
  intro p _ r hr
  obtain ⟨o, ho⟩ := Option.isSome_iff_exists.mp (h.held _ (mem_handles_of_handle? hr))
  exact ⟨o.classOf, by rw [Heap.class?, ho]; rfl, trivial⟩

theorem Reachable.intact (hs : s.Reachable) : s.Intact fun _ _ => True := by
  induction hs with
  | initial config supply => exact intact_initial config supply
  | run command _ _ ih => exact ih.run (fun _ => trivial) (ih.supplies command)

theorem supplies_of_puts (s : Session) (h : command.puts = []) : s.Supplies fit command := by
  intro p hp
  rw [h] at hp
  cases hp

theorem supplies_eq_iff (s : Session) (command : Command) : s.Supplies Eq command ↔
    ∀ p ∈ command.puts, ∀ r ∈ s.handle? p.2, s.heap.class? r = some p.1 := by
  simp only [Supplies, Heap.Stands, exists_eq_right', Option.mem_def]

instance (s : Session) (command : Command) : Decidable (s.Supplies Eq command) :=
  decidable_of_iff' _ (supplies_eq_iff s command)

/-- The sessions that commands lead to, as long as what they put into an object is of the class that
belongs there and no table is restored from a record. -/
inductive Tended : Session → Prop
  | initial (config : Config) (supply : Nat → Uuid) : Tended (initial config supply)
  | run {s : Session} (command : Command) (tended : Tended s) (supplied : s.Supplies Eq command)
      (unrestored : s.restoresTable command = false) : Tended (s.run command).2

theorem Tended.intact (hs : s.Tended) : s.Intact Eq := by
  induction hs with
  | initial config supply => exact intact_initial config supply
  | run command _ supplied _ ih => exact ih.run (fun _ => rfl) supplied

theorem Tended.grown (hs : s.Tended) : s.Grown := by
  induction hs with
  | initial config supply => exact .initial config supply
  | run command _ _ unrestored ih => exact ih.run command unrestored

theorem Tended.settled (hs : s.Tended) : s.Settled := by
  cases hs with
  | initial config supply => exact nofun
  | run command _ _ _ => exact settled_settle _

def Held (s : Session) (r : Ref) : Prop :=
  ∃ q ∈ s.handles.map (·.2), Relation.ReflTransGen s.heap.Owns q r

theorem Held.owned (h : s.Held p) (howns : s.heap.Owns p r) : s.Held r := by
  obtain ⟨q, hq, hway⟩ := h
  exact ⟨q, hq, hway.tail howns⟩

theorem Intact.isSome_of_handle (h : s.Intact fit) (hr : r ∈ s.handles.map (·.2)) :
    (s.heap.get? r).isSome = true := by
  obtain ⟨handle, hmem, rfl⟩ := List.mem_map.mp hr
  exact h.held handle hmem

theorem Intact.isSome_of_owns (h : s.Intact fit) (howns : s.heap.Owns p r) :
    (s.heap.get? r).isSome = true := by
  obtain ⟨o, ho, hmem⟩ := howns
  obtain ⟨c, hpart⟩ := Body.mem_owned_iff.mp hmem
  exact (h.parts p o.body (Heap.body?_eq_some_iff.mpr ⟨o, ho, rfl⟩) _ hpart).isSome

theorem Intact.isSome_of_held (h : s.Intact fit) (hr : s.Held r) :
    (s.heap.get? r).isSome = true := by
  obtain ⟨q, hq, hway⟩ := hr
  induction hway with
  | refl => exact h.isSome_of_handle hq
  | tail _ howns _ => exact h.isSome_of_owns howns

theorem Intact.class?_of_owns (h : s.Intact Eq) (howns : s.heap.Owns p r) {c : ObjectClass}
    (hc : s.heap.class? r = some c) : ∃ d, s.heap.class? p = some d ∧
      (c.height < d.height ∨ c = .symbolTable ∧ r ∈ s.children p) := by
  obtain ⟨o, ho, hmem⟩ := howns
  obtain ⟨c', hpart⟩ := Body.mem_owned_iff.mp hmem
  obtain ⟨_, hclass, rfl⟩ := h.parts p o.body (Heap.body?_eq_some_iff.mpr ⟨o, ho, rfl⟩) _ hpart
  cases hc.symm.trans hclass
  refine ⟨o.classOf, by rw [Heap.class?, ho]; rfl, ?_⟩
  rcases Body.height_of_mem_parts hpart with hlt | ⟨hc, t, hb, hchild⟩
  · exact .inl hlt
  · refine .inr ⟨hc, ?_⟩
    rwa [children, Heap.children_of_table? (by rw [Heap.table?, ho, Option.bind_some, hb]; rfl)]

section

variable (hi : s.Intact Eq) (hs : s.Settled) (hf : s.heap.Forest)

include hi hs

theorem held_of_owners {c : ObjectClass} (hc : s.heap.class? r = some c)
    (howners : ∀ p d, s.heap.class? p = some d →
      c.height < d.height ∨ c = .symbolTable ∧ r ∈ s.children p → s.Held p) : s.Held r := by
  obtain ⟨o, ho, _⟩ := Option.map_eq_some_iff.mp hc
  rcases hs r o ho with hroot | ⟨p, howns⟩
  · exact ⟨r, hroot, .refl⟩
  · obtain ⟨d, hd, hcase⟩ := hi.class?_of_owns howns hc
    exact (howners p d hd hcase).owned howns

include hf

theorem held_of_table
    (habove : ∀ q d, s.heap.class? q = some d →
      ObjectClass.symbolTable.height < d.height → s.Held q)
    (hr : s.heap.class? r = some .symbolTable) : s.Held r := by
  have hground := hf.nested.grounded r
  induction hground with
  | root top =>
    refine held_of_owners hi hs hr ?_
    rintro p d hd (hlt | ⟨_, hchild⟩)
    · exact habove p d hd hlt
    · rw [(hf.nested.mem_children_iff p _).mp hchild] at top
      cases top
  | step up _ ih =>
    refine held_of_owners hi hs hr ?_
    rintro p d hd (hlt | ⟨_, hchild⟩)
    · exact habove p d hd hlt
    · cases up.symm.trans ((hf.nested.mem_children_iff p _).mp hchild)
      obtain ⟨t, ht⟩ := Option.isSome_iff_exists.mp (Nesting.isSome_of_parent? up).2
      obtain ⟨_, hclass, rfl⟩ := stands_of_table? (fun _ => rfl) ht
      exact ih hclass

theorem held_of_class? {c : ObjectClass} (hc : s.heap.class? r = some c) : s.Held r := by
  -- by induction on the number of classes further up
  induction hn : ObjectClass.addressSpace.height - c.height using Nat.strong_induction_on
    generalizing r c with
  | h n ih =>
    subst hn
    have habove : ∀ q d, s.heap.class? q = some d → c.height < d.height → s.Held q := by
      intro q d hd hlt
      have hle := d.height_le
      exact ih _ (by omega) hd rfl
    by_cases htable : c = .symbolTable
    · subst htable
      exact held_of_table hi hs hf habove hc
    · refine held_of_owners hi hs hc ?_
      rintro p d hd (hlt | ⟨hc', _⟩)
      · exact habove p d hd hlt
      · exact absurd hc' htable

end

theorem Tended.isSome_iff_held (hs : s.Tended) (r : Ref) :
    (s.heap.get? r).isSome = true ↔ s.Held r := by
  constructor
  · intro hr
    obtain ⟨o, ho⟩ := Option.isSome_iff_exists.mp hr
    exact held_of_class? hs.intact hs.settled hs.grown.forest (by rw [Heap.class?, ho]; rfl)
  · exact hs.intact.isSome_of_held

def Vacant (s : Session) : Prop :=
  (∀ r, s.heap.get? r = none) ∧ (s.registry.objects s.live).length = 0

theorem Tended.vacant (hs : s.Tended) (hhandles : s.handles = []) : s.Vacant := by
  have hnone : ∀ r, s.heap.get? r = none := by
    intro r
    rw [← Option.not_isSome_iff_eq_none, hs.isSome_iff_held]
    rintro ⟨q, hq, _⟩
    rw [hhandles] at hq
    cases hq
  refine ⟨hnone, ?_⟩
  rw [List.length_eq_zero_iff, Registry.objects, List.filter_eq_nil_iff]
  intro r _
  simp [isSome_live, hnone r]

def dropAll (s : Session) (handles : List String) : Session :=
  handles.foldl (fun s handle => (s.run (.drop handle)).2) s

theorem Tended.dropAll (hs : s.Tended) (handles : List String) : (s.dropAll handles).Tended := by
  induction handles generalizing s with
  | nil => exact hs
  | cons handle rest ih => exact ih (hs.run (.drop handle) (supplies_of_puts s rfl) rfl)

theorem mem_handles_of_dropAll {handles : List String} {h : String × Ref}
    (hh : h ∈ (s.dropAll handles).handles) : h ∈ s.handles ∧ h.1 ∉ handles := by
  induction handles generalizing s with
  | nil => exact ⟨hh, nofun⟩
  | cons handle rest ih =>
    obtain ⟨hmem, hrest⟩ := ih hh
    obtain ⟨hold, hne⟩ := List.mem_filter.mp hmem
    refine ⟨hold, ?_⟩
    rw [List.mem_cons, not_or]
    exact ⟨bne_iff_ne.mp hne, hrest⟩

theorem tended_alive_iff (s : Session) (hs : s.Tended) :
    (∀ r, (s.heap.get? r).isSome = true ↔
      ∃ q ∈ s.handles.map (·.2), Relation.ReflTransGen s.heap.Owns q r) ∧
    (s.handles = [] → s.Vacant) ∧ (s.dropAll (s.handles.map (·.1))).Vacant := by
  refine ⟨hs.isSome_iff_held, hs.vacant, (hs.dropAll _).vacant ?_⟩
  rw [List.eq_nil_iff_forall_not_mem]
  intro h hh
  obtain ⟨hmem, hnot⟩ := mem_handles_of_dropAll hh
  exact hnot (List.mem_map_of_mem hmem)

def outerHeld : Session :=
  [ .makeType "int" (some ⟨1⟩) "int" (.struct 4),
    .makeSymbol "count" (some ⟨2⟩) "count" .variable "int",
    .makeTable "inner" (some ⟨3⟩) "inner", .addSymbol "inner" 8 "count",
    .makeTable "outer" (some ⟨4⟩) "outer", .addChild "outer" "inner",
    .drop "int", .drop "count", .drop "inner"].foldl
      (fun s command => (s.run command).2) (initial {} Uuid.mk)

theorem outerHeld_alive :
    (outerHeld.handles = [("outer", 3)] ∧ (outerHeld.heap.get? 0).isSome = true) ∧
      Relation.ReflTransGen outerHeld.heap.Owns 3 0 ∧ (outerHeld.dropAll ["outer"]).Vacant := by
  have hs : outerHeld.Tended := by
    unfold outerHeld
    simp only [List.foldl_cons, List.foldl_nil]
    repeat refine Tended.run _ ?_ (by first | exact supplies_of_puts _ rfl | decide +kernel) rfl
    exact .initial {} Uuid.mk
  have hstate : outerHeld.handles = [("outer", 3)] ∧ (outerHeld.heap.get? 0).isSome = true := by
    decide +kernel
  obtain ⟨halive, _, hdropped⟩ := tended_alive_iff outerHeld hs
  obtain ⟨q, hq, hway⟩ := (halive 0).mp hstate.2
  rw [hstate.1] at hq hdropped
  cases List.mem_singleton.mp hq
  exact ⟨hstate, hway, hdropped⟩

end Session

end BinaryAtlas
