import BinaryAtlas.Proofs.Registry
import BinaryAtlas.Session.Basic

namespace BinaryAtlas

namespace Heap

variable {h : Heap} {r q : Ref}

def without (h : Heap) (r : Ref) : Heap :=
  { h with
    objects := h.objects.erase r
    unused := fun q hq => by
      rw [KeyMap.get?_erase, h.unused q hq]
      exact ite_self none }

theorem get?_without (h : Heap) (r q : Ref) :
    (h.without r).get? q = if q = r then none else h.get? q :=
  KeyMap.get?_erase h.objects r q

def setTemporary (h : Heap) (r : Ref) (value : Bool) : Heap :=
  h.modify r fun o => { o with temporary := value }

def isPermanent (h : Heap) (r : Ref) : Bool := ((h.get? r).map (!·.temporary)).getD false

theorem isPermanent_iff : h.isPermanent r = true ↔ ∃ o, h.get? r = some o ∧ o.temporary = false := by
  cases ho : h.get? r <;> simp [isPermanent, ho]

end Heap

namespace Registry

inductive Event where
  | make (o : Object)
  | die (r : Ref)
  | setTemporary (r : Ref) (value : Bool)
  | insert (r : Ref)
  | get (id : HashId)
  | getAs (id : HashId) (c : ObjectClass)
  | contains (id : HashId)
  | remove (id : HashId)
  | objects
  | len
  | prune

inductive Reply where
  | silent
  | registered (outcome : Registration)
  | found (outcome : Except LookupError Ref)
  | known (value : Bool)
  | removed (object : Option Ref)
  | listed (objects : List Ref)
  | counted (value : Nat)

def replies {σ : Type} (answer : σ → Event → Reply × σ) (s : σ) : List Event → List Reply × σ
  | [] => ([], s)
  | event :: rest =>
    let (reply, s) := answer s event
    let (later, s) := replies answer s rest
    (reply :: later, s)

end Registry

open Registry (Event Reply)

def Session.answer (s : Session) : Event → Reply × Session
  | .make o => (.silent, { s with heap := (s.heap.alloc o).2 })
  | .die r => (.silent, { s with heap := s.heap.without r })
  | .setTemporary r value => (.silent, { s with heap := s.heap.setTemporary r value })
  | .insert r =>
    match s.heap.get? r with
    | none => (.silent, s)
    | some o =>
      let (outcome, registry) := s.registry.insert s.live o.id o.classOf r
      (.registered outcome, { s with registry })
  | .get id =>
    let (outcome, s) := s.find id
    (.found outcome, s)
  | .getAs id c =>
    let (outcome, s) := s.fetch id c
    (.found outcome, s)
  | .contains id => (.known (s.registry.get? s.live id).isSome, s)
  | .remove id =>
    let (object, registry) := s.registry.remove s.live id
    (.removed object, { s with registry })
  | .objects => (.listed s.permanent, s)
  | .len => (.counted (s.registry.objects s.live).length, s)
  | .prune => (.silent, { s with registry := (s.registry.prune s.live).2 })

structure LiveIndex where
  heap : Heap := .empty
  entries : KeyMap Ref := .empty

namespace LiveIndex

def getAs (i : LiveIndex) (id : HashId) (c : ObjectClass) : Except LookupError Ref :=
  match i.entries.get? id with
  | none => .error (.notFound id)
  | some r =>
    match i.heap.class? r with
    | none => .error (.notFound id)
    | some found => if found = c then .ok r else .error (.wrongClass id found.name c.name)

def answer (i : LiveIndex) : Event → Reply × LiveIndex
  | .make o => (.silent, { i with heap := (i.heap.alloc o).2 })
  | .die r =>
    (.silent, { heap := i.heap.without r, entries := i.entries.filter fun _ q => q != r })
  | .setTemporary r value => (.silent, { i with heap := i.heap.setTemporary r value })
  | .insert r =>
    match i.heap.get? r with
    | none => (.silent, i)
    | some o =>
      match i.getAs o.id o.classOf with
      | .ok old => (.registered (.existing old), i)
      | .error _ => (.registered .inserted, { i with entries := i.entries.insert o.id r })
  | .get id =>
    (.found (match i.entries.get? id with
      | some r => .ok r
      | none => .error (.notFound id)), i)
  | .getAs id c => (.found (i.getAs id c), i)
  | .contains id => (.known (i.entries.contains id), i)
  | .remove id => (.removed (i.entries.get? id), { i with entries := i.entries.erase id })
  | .objects => (.listed (i.entries.values.filter i.heap.isPermanent), i)
  | .len => (.counted i.entries.size, i)
  | .prune => (.silent, i)

end LiveIndex

namespace Session

variable {s : Session} {i : LiveIndex}

def Filed (h : Heap) (id : HashId) (r : Ref) : Prop :=
  r < h.next ∧ ∀ o, h.get? r = some o → o.id = id

structure IndexedBy (s : Session) (i : LiveIndex) : Prop where
  heap : i.heap = s.heap
  entries : i.entries = s.registry.index s.live
  filed : ∀ id r, s.registry.entries.get? id = some r → Filed s.heap id r

theorem isSome_live (s : Session) (r : Ref) : (s.live r).isSome = (s.heap.get? r).isSome := by
  rw [live, Heap.class?, Option.isSome_map]

theorem indexedBy_make (h : s.IndexedBy i) (o : Object) :
    (s.answer (.make o)).2.IndexedBy (i.answer (.make o)).2 where
  heap := by
    rw [LiveIndex.answer, answer, h.heap]
  entries := by
    refine h.entries.trans (Registry.index_congr fun id r hr => ?_)
    have hne : r ≠ s.heap.next := Nat.ne_of_lt (h.filed id r hr).1
    rw [isSome_live, isSome_live]
    show _ = ((s.heap.alloc o).2.get? r).isSome
    rw [Heap.get?_alloc, if_neg hne]
  filed id r hr := by
    obtain ⟨hlt, hid⟩ := h.filed id r hr
    refine ⟨Nat.lt_succ_of_lt hlt, fun o' ho' => hid o' ?_⟩
    rwa [answer, Heap.get?_alloc, if_neg (Nat.ne_of_lt hlt)] at ho'

theorem indexedBy_die (h : s.IndexedBy i) (q : Ref) :
    (s.answer (.die q)).2.IndexedBy (i.answer (.die q)).2 where
  heap := by rw [LiveIndex.answer, answer, h.heap]
  entries := by
    apply KeyMap.ext_get?
    intro id
    apply Option.ext
    intro r
    simp only [LiveIndex.answer, h.entries, KeyMap.get?_filter, Option.filter_eq_some_iff,
      Registry.index_get?_eq_some_iff, isSome_live]
    simp only [answer, Heap.get?_without, bne_iff_ne]
    by_cases hr : r = q <;> simp [hr]
  filed id r hr := by
    obtain ⟨hlt, hid⟩ := h.filed id r hr
    refine ⟨hlt, fun o ho => hid o ?_⟩
    rw [answer, Heap.get?_without] at ho
    split at ho
    · cases ho
    · exact ho

theorem indexedBy_setTemporary (h : s.IndexedBy i) (q : Ref) (value : Bool) :
    (s.answer (.setTemporary q value)).2.IndexedBy (i.answer (.setTemporary q value)).2 where
  heap := by rw [LiveIndex.answer, answer, h.heap]
  entries := by
    refine h.entries.trans (Registry.index_congr fun id r _ => ?_)
    rw [isSome_live, isSome_live]
    show _ = ((s.heap.modify q _).get? r).isSome
    rw [Heap.get?_modify]
    split <;> simp
  filed id r hr := by
    obtain ⟨hlt, hid⟩ := h.filed id r hr
    refine ⟨hlt, fun o ho => ?_⟩
    rw [answer, Heap.setTemporary, Heap.get?_modify] at ho
    split at ho
    · obtain ⟨o', ho', rfl⟩ := Option.map_eq_some_iff.mp ho
      exact hid o' ho'
    · exact hid o ho

theorem IndexedBy.setRegistry (h : s.IndexedBy i) {registry : Registry} {entries : KeyMap Ref}
    (hindex : entries = registry.index s.live)
    (hfiled : ∀ id r, registry.entries.get? id = some r →
      s.registry.entries.get? id = some r ∨ Filed s.heap id r) :
    IndexedBy { s with registry } { i with entries } where
  heap := h.heap
  entries := hindex
  filed id r hr := by
    rcases hfiled id r hr with hold | hnew
    · exact h.filed id r hold
    · exact hnew

theorem IndexedBy.forget (h : s.IndexedBy i) (id : HashId) :
    IndexedBy { s with registry := s.registry.forget s.live id } i :=
  h.setRegistry (h.entries.trans (Registry.index_forget s.live s.registry id).symm)
    fun _ _ hr => .inl (Registry.entries_of_forget hr)

theorem IndexedBy.getAs_eq (h : s.IndexedBy i) (id : HashId) (c : ObjectClass) :
    s.registry.getAs s.live id c = i.getAs id c := by
  rw [Registry.getAs, LiveIndex.getAs, Registry.get?_eq_index, h.entries, h.heap]
  rfl

theorem IndexedBy.permanent_eq (h : s.IndexedBy i) :
    s.permanent = i.entries.values.filter i.heap.isPermanent := by
  rw [permanent, Registry.objects_eq_index, h.entries, h.heap]
  rfl

theorem answer_insert (h : s.IndexedBy i) (r : Ref) :
    (s.answer (.insert r)).1 = (i.answer (.insert r)).1 ∧
      (s.answer (.insert r)).2.IndexedBy (i.answer (.insert r)).2 := by
  have hsame : i.heap.get? r = s.heap.get? r := by rw [h.heap]
  simp only [answer, LiveIndex.answer, hsame]
  cases ho : s.heap.get? r with
  | none => exact ⟨rfl, h⟩
  | some o =>
    simp only [Registry.insert, h.getAs_eq]
    cases i.getAs o.id o.classOf with
    | ok old => exact ⟨rfl, h⟩
    | error e =>
      dsimp only
      refine ⟨rfl, h.setRegistry ?_ ?_⟩
      · have hlive : (s.live r).isSome = true := by
          rw [isSome_live, ho]
          rfl
        rw [Registry.index_place hlive, h.entries]
      · intro id q hq
        rcases Registry.entries_of_place hq with ⟨rfl, rfl⟩ | hold
        · refine .inr ⟨Heap.lt_next ho, fun o' ho' => ?_⟩
          rw [ho] at ho'
          exact congrArg Object.id (Option.some.inj ho').symm
        · exact .inl hold

theorem answer_indexed (h : s.IndexedBy i) (event : Event) :
    (s.answer event).1 = (i.answer event).1 ∧
      (s.answer event).2.IndexedBy (i.answer event).2 := by
  cases event with
  | make o => exact ⟨rfl, indexedBy_make h o⟩
  | die r => exact ⟨rfl, indexedBy_die h r⟩
  | setTemporary r value => exact ⟨rfl, indexedBy_setTemporary h r value⟩
  | insert r => exact answer_insert h r
  | get id =>
    refine ⟨?_, h.forget id⟩
    cases hget : (s.registry.index s.live).get? id <;>
      simp only [answer, find, LiveIndex.answer, h.entries, Registry.get?_eq_index, hget]
  | getAs id c =>
    refine ⟨?_, h.forget id⟩
    simp only [answer, fetch, LiveIndex.answer, h.getAs_eq]
  | contains id =>
    refine ⟨?_, h⟩
    simp only [answer, LiveIndex.answer, KeyMap.contains, h.entries, Registry.get?_eq_index]
  | remove id =>
    constructor
    · simp only [answer, Registry.remove, LiveIndex.answer, h.entries, Registry.get?_eq_index]
    · refine h.setRegistry ?_ fun _ _ hr => .inl (Registry.entries_of_remove s.live hr)
      rw [h.entries]
      exact (Registry.index_remove s.live s.registry id).symm
  | objects =>
    refine ⟨?_, h⟩
    simp only [answer, LiveIndex.answer, h.permanent_eq]
  | len =>
    refine ⟨?_, h⟩
    simp only [answer, LiveIndex.answer, Registry.objects_eq_index, h.entries, KeyMap.values,
      List.length_map, KeyMap.size]
  | prune =>
    refine ⟨rfl, h.setRegistry ?_ fun _ _ hr => .inl (Registry.entries_of_sweep hr)⟩
    rw [Registry.index_prune, h.entries]

theorem replies_indexed (h : s.IndexedBy i) (events : List Event) :
    (Registry.replies answer s events).1 = (Registry.replies LiveIndex.answer i events).1 ∧
      (Registry.replies answer s events).2.IndexedBy
        (Registry.replies LiveIndex.answer i events).2 := by
  induction events generalizing s i with
  | nil => exact ⟨rfl, h⟩
  | cons event rest ih =>
    obtain ⟨hreply, hnext⟩ := answer_indexed h event
    obtain ⟨hreplies, hlast⟩ := ih hnext
    refine ⟨?_, hlast⟩
    simp only [Registry.replies, hreply, hreplies]

theorem indexedBy_initial (config : Config) (supply : Nat → Uuid) :
    (initial config supply).IndexedBy {} where
  heap := rfl
  entries := rfl
  filed := nofun

def entered (h : Heap) (id : HashId) (last : Option Ref) : Event → Reply → Option Ref
  | .insert r, .registered .inserted => if h.id? r = some id then some r else last
  | .remove j, _ => if j = id then none else last
  | _, _ => last

def lastEntered (id : HashId) (s : Session) (last : Option Ref) : List Event → Option Ref
  | [] => last
  | event :: rest =>
    lastEntered id (s.answer event).2 (entered s.heap id last event (s.answer event).1) rest

structure Holds (i : LiveIndex) (id : HashId) (last : Option Ref) : Prop where
  get?_eq : i.entries.get? id = last.filter fun r => (i.heap.get? r).isSome
  given : ∀ r, last = some r → r < i.heap.next

theorem holds_insert {id : HashId} {last : Option Ref} (hl : Holds i id last) (r : Ref) :
    Holds (i.answer (.insert r)).2 id
      (entered i.heap id last (.insert r) (i.answer (.insert r)).1) := by
  simp only [LiveIndex.answer]
  cases ho : i.heap.get? r with
  | none => exact hl
  | some o =>
    have hid : i.heap.id? r = some o.id := by rw [Heap.id?, ho]; rfl
    dsimp only
    cases i.getAs o.id o.classOf with
    | ok old => exact hl
    | error e =>
      simp only [entered, hid, Option.some.injEq]
      constructor
      · rw [KeyMap.get?_insert]
        by_cases hj : id = o.id
        · simp [hj, Option.filter, ho]
        · rw [if_neg hj, if_neg fun e => hj e.symm, hl.get?_eq]
      · intro q hq
        split at hq
        · cases hq
          exact Heap.lt_next ho
        · exact hl.given q hq

theorem holds_entered {id : HashId} {last : Option Ref} (hl : Holds i id last) (event : Event) :
    Holds (i.answer event).2 id (entered i.heap id last event (i.answer event).1) := by
  cases event with
  | insert r => exact holds_insert hl r
  | make o =>
    constructor
    · refine hl.get?_eq.trans ?_
      cases hlast : last with
      | none => rfl
      | some r =>
        have hne := Nat.ne_of_lt (hl.given r hlast)
        simp [entered, Option.filter, LiveIndex.answer, Heap.get?_alloc, hne]
    · intro r hr
      exact Nat.lt_succ_of_lt (hl.given r hr)
  | die q =>
    refine ⟨?_, hl.given⟩
    simp only [LiveIndex.answer, KeyMap.get?_filter, hl.get?_eq, entered, Heap.get?_without,
      Option.filter_filter]
    cases last with
    | none => rfl
    | some r => by_cases hr : r = q <;> simp [Option.filter, hr]
  | setTemporary q value =>
    refine ⟨hl.get?_eq.trans ?_, hl.given⟩
    cases last with
    | none => rfl
    | some r =>
      by_cases hr : r = q <;>
        simp [entered, LiveIndex.answer, Option.filter, Heap.setTemporary,
          Heap.get?_modify, hr]
  | remove j =>
    simp only [entered, LiveIndex.answer]
    constructor
    · rw [KeyMap.get?_erase, hl.get?_eq]
      by_cases hj : id = j
      · simp [hj]
      · rw [if_neg hj, if_neg fun e => hj e.symm]
    · intro r hr
      split at hr
      · cases hr
      · exact hl.given r hr
  | get _ => exact hl
  | getAs _ _ => exact hl
  | contains _ => exact hl
  | objects => exact hl
  | len => exact hl
  | prune => exact hl

theorem holds_lastEntered (h : s.IndexedBy i) {id : HashId} {last : Option Ref}
    (hl : Holds i id last) (events : List Event) :
    Holds (Registry.replies LiveIndex.answer i events).2 id (lastEntered id s last events) := by
  induction events generalizing s i last with
  | nil => exact hl
  | cons event rest ih =>
    obtain ⟨hreply, hnext⟩ := answer_indexed h event
    rw [lastEntered, hreply, ← h.heap]
    exact ih hnext (holds_entered hl event)

structure Mirrors (s : Session) (i : LiveIndex) : Prop where
  heap_eq : s.heap = i.heap
  entry_iff : ∀ id r, i.entries.get? id = some r ↔
    s.registry.entries.get? id = some r ∧ (s.heap.get? r).isSome = true
  find_iff : ∀ id r, (s.find id).1 = .ok r ↔ i.entries.get? id = some r
  fetch_iff : ∀ id c r, (s.fetch id c).1 = .ok r ↔
    i.entries.get? id = some r ∧ s.heap.class? r = some c
  existing_iff : ∀ r o, s.heap.get? r = some o → ∀ q,
    (s.registry.insert s.live o.id o.classOf r).1 = .existing q ↔
      i.entries.get? o.id = some q ∧ s.heap.class? q = some o.classOf
  existing_unchanged : ∀ (r : Ref) (o : Object) (q : Ref),
    (s.registry.insert s.live o.id o.classOf r).1 = .existing q →
      (s.registry.insert s.live o.id o.classOf r).2 = s.registry
  mem_permanent_iff : ∀ r, r ∈ s.permanent ↔ ∃ o, s.heap.get? r = some o ∧ o.temporary = false ∧
    i.entries.get? o.id = some r
  ascending : s.permanent.Pairwise fun p q =>
    ∃ a b, s.heap.id? p = some a ∧ s.heap.id? q = some b ∧ a < b

theorem insert_eq_existing_iff {r q : Ref} {o : Object} :
    (s.registry.insert s.live o.id o.classOf r).1 = .existing q ↔
      s.registry.getAs s.live o.id o.classOf = .ok q := by
  rw [Registry.insert]
  cases s.registry.getAs s.live o.id o.classOf <;> simp

theorem IndexedBy.id?_of_entry (h : s.IndexedBy i) {id : HashId} {r : Ref}
    (hr : i.entries.get? id = some r) : ∃ o, s.heap.get? r = some o ∧ o.id = id := by
  rw [h.entries] at hr
  obtain ⟨hentry, hlive⟩ := Registry.index_get?_eq_some_iff.mp hr
  rw [isSome_live] at hlive
  obtain ⟨o, ho⟩ := Option.isSome_iff_exists.mp hlive
  exact ⟨o, ho, (h.filed id r hentry).2 o ho⟩

theorem IndexedBy.mem_permanent_iff (h : s.IndexedBy i) (r : Ref) :
    r ∈ s.permanent ↔ ∃ o, s.heap.get? r = some o ∧ o.temporary = false ∧
      i.entries.get? o.id = some r := by
  have hvalues : r ∈ i.entries.values ↔ ∃ id, i.entries.get? id = some r := by
    simp only [KeyMap.values, List.mem_map, KeyMap.get?_eq_some_iff]
    constructor
    · rintro ⟨⟨id, q⟩, hmem, rfl⟩
      exact ⟨id, hmem⟩
    · rintro ⟨id, hmem⟩
      exact ⟨(id, r), hmem, rfl⟩
  rw [h.permanent_eq, List.mem_filter, hvalues, Heap.isPermanent_iff, h.heap]
  constructor
  · rintro ⟨⟨id, hid⟩, o, ho, htemporary⟩
    obtain ⟨o', ho', rfl⟩ := h.id?_of_entry hid
    rw [ho] at ho'
    cases ho'
    exact ⟨o, ho, htemporary, hid⟩
  · rintro ⟨o, ho, htemporary, hid⟩
    exact ⟨⟨o.id, hid⟩, o, ho, htemporary⟩

theorem IndexedBy.ascending (h : s.IndexedBy i) : s.permanent.Pairwise fun p q =>
    ∃ a b, s.heap.id? p = some a ∧ s.heap.id? q = some b ∧ a < b := by
  rw [h.permanent_eq, KeyMap.values]
  apply List.Pairwise.filter
  rw [List.pairwise_map]
  apply List.Pairwise.imp_of_mem _ i.entries.ascending
  intro p q hp hq hlt
  have hid : ∀ p ∈ i.entries.toList, s.heap.id? p.2 = some p.1 := by
    intro p hp
    obtain ⟨o, ho, hid⟩ := h.id?_of_entry (KeyMap.get?_eq_some_iff.mpr hp)
    rw [Heap.id?, ho, Option.map_some, hid]
  exact ⟨p.1, q.1, hid p hp, hid q hq, hlt⟩

theorem IndexedBy.mirrors (h : s.IndexedBy i) : s.Mirrors i := by
  have hgetAs : ∀ id c r, s.registry.getAs s.live id c = .ok r ↔
      i.entries.get? id = some r ∧ s.heap.class? r = some c := by
    intro id c r
    rw [Registry.getAs_eq_ok_iff, h.entries]
    rfl
  constructor
  case heap_eq => exact h.heap.symm
  case entry_iff =>
    intro id r
    rw [h.entries, Registry.index_get?_eq_some_iff, isSome_live]
  case find_iff =>
    intro id r
    rw [find, Registry.get?_eq_index, h.entries]
    cases (s.registry.index s.live).get? id <;> simp
  case fetch_iff => exact hgetAs
  case existing_iff =>
    intro r o ho q
    rw [insert_eq_existing_iff, hgetAs]
  case existing_unchanged =>
    intro r o q hq
    rw [insert_eq_existing_iff] at hq
    rw [Registry.insert, hq]
  case mem_permanent_iff => exact h.mem_permanent_iff
  case ascending => exact h.ascending

theorem registry_mirrors_liveIndex (config : Config) (supply : Nat → Uuid) (events : List Event) :
    let run := Registry.replies answer (initial config supply) events
    let reference := Registry.replies LiveIndex.answer {} events
    run.1 = reference.1 ∧ run.2.Mirrors reference.2 ∧
      ∀ id r, reference.2.entries.get? id = some r ↔
        lastEntered id (initial config supply) none events = some r ∧
          (run.2.heap.get? r).isSome = true := by
  intro run reference
  have hinitial := indexedBy_initial config supply
  obtain ⟨hreplies, hindexed⟩ := replies_indexed hinitial events
  refine ⟨hreplies, hindexed.mirrors, fun id r => ?_⟩
  have hnone : Holds {} id none := ⟨rfl, nofun⟩
  have hholds := holds_lastEntered hinitial hnone events
  rw [hholds.get?_eq, Option.filter_eq_some_iff, hindexed.heap]

end Session

end BinaryAtlas
