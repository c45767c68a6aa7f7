import BinaryAtlas.Proofs.Session.Ownership

/-!
What an observer can tell of the registry. One that takes notes from the beginning has heard of
every entry made and every entry taken out; what it heard last under a hash id, together with what
is alive, says what is registered there.
-/

namespace BinaryAtlas

def Note.registration? (tag : String) : Note → Option (EventKind × HashId × Ref)
  | .event t kind r id _ _ => if t = tag ∧ kind ≠ .changed then some (kind, id, r) else none
  | _ => none

namespace Session

variable {tag : String} {fit : ObjectClass → ObjectClass → Prop} {s s' s₁ : Session} {r : Ref}
  {o : Object} {id : HashId} {f : Object → Object} {p : Nat × Observer} {kind : EventKind}

def heard (tag : String) (log : List Note) : List (EventKind × HashId × Ref) :=
  log.filterMap (Note.registration? tag)

def lastUnder (id : HashId) (events : List (EventKind × HashId × Ref)) :
    Option (EventKind × HashId × Ref) :=
  (events.filter (·.2.1 = id)).getLast?

theorem lastUnder_append (id : HashId) (events later : List (EventKind × HashId × Ref)) :
    lastUnder id (events ++ later) = (lastUnder id later).or (lastUnder id events) := by
  rw [lastUnder, List.filter_append, List.getLast?_append]
  rfl

theorem lastUnder_singleton (id : HashId) (e : EventKind × HashId × Ref) :
    lastUnder id [e] = if e.2.1 = id then some e else none := by
  unfold lastUnder
  split <;> simp [*]

theorem mem_of_lastUnder {events : List (EventKind × HashId × Ref)} {e : EventKind × HashId × Ref}
    (h : lastUnder id events = some e) : e ∈ events :=
  (List.mem_filter.mp (List.mem_of_getLast? h)).1

def Filing (s : Session) : Prop :=
  ∀ id r, s.registry.entries.get? id = some r → Filed s.heap id r

theorem Filed.modify {h : Heap} (hf : ∀ o, (f o).id = o.id) {q : Ref} (hq : Filed h id q)
    (r : Ref) : Filed (h.modify r f) id q := by
  refine ⟨hq.1, fun o ho => ?_⟩
  rw [Heap.get?_modify] at ho
  split at ho
  · obtain ⟨o', ho', rfl⟩ := Option.map_eq_some_iff.mp ho
    rw [hf, hq.2 o' ho']
  · exact hq.2 o ho

theorem Filed.setBody {h : Heap} {q : Ref} (hq : Filed h id q) (r : Ref) (b : Body) :
    Filed (h.setBody r b) id q :=
  Filed.modify (f := fun o => { o with body := b }) (fun _ => rfl) hq r

theorem Filed.alloc {h : Heap} {q : Ref} (hq : Filed h id q) (o : Object) :
    Filed (h.alloc o).2 id q := by
  refine ⟨Nat.lt_succ_of_lt hq.1, fun o' ho' => hq.2 o' ?_⟩
  rwa [Heap.get?_alloc, if_neg (Nat.ne_of_lt hq.1)] at ho'

theorem filed_of_get? {h : Heap} (ho : h.get? r = some o) : Filed h o.id r := by
  refine ⟨Heap.lt_next ho, fun o' ho' => ?_⟩
  cases ho.symm.trans ho'
  rfl

theorem reactive_filing : Reactive fun s s' => s.Filing → s'.Filing where
  refl _ h := h
  trans _ _ _ h h' hs := h' (h hs)
  subscribe _ _ _ h := h
  write _ _ h := h
  forget _ _ h j q hq := h j q (Registry.entries_of_forget hq)
  store _ r _ _ _ _ _ h j q hq := (h j q hq).setBody r _
  remove s _ h j q hq := h j q (Registry.entries_of_remove s.live hq)

theorem Filing.place (h : s.Filing) (ho : s.heap.get? r = some o) :
    Filing { s with registry := s.registry.place s.live o.id r } := by
  intro j q hq
  rcases Registry.entries_of_place hq with ⟨rfl, rfl⟩ | hold
  · exact filed_of_get? ho
  · exact h j q hold

theorem Filing.alloc (h : s.Filing) (o : Object) :
    Filing { s with
      registry := s.registry.place s.live o.id s.heap.next, heap := (s.heap.alloc o).2 } := by
  intro j q hq
  rcases Registry.entries_of_place hq with ⟨rfl, rfl⟩ | hold
  · exact filed_of_get? (by rw [Heap.get?_alloc, if_pos rfl])
  · exact (h j q hold).alloc o

theorem Filing.get?_alloc (h : s.Filing) (o : Object) (j : HashId) :
    let s' := { s with
      registry := s.registry.place s.live o.id s.heap.next, heap := (s.heap.alloc o).2 }
    s'.registry.get? s'.live j =
      if j = o.id then some s.heap.next else s.registry.get? s.live j := by
  intro s'
  have hagree : ∀ j q, s.registry.entries.get? j = some q →
      (s'.live q).isSome = (s.live q).isSome := by
    intro j q hq
    rw [isSome_live, isSome_live, Heap.get?_alloc, if_neg (Nat.ne_of_lt (h j q hq).1)]
  have hnew : (s'.live s.heap.next).isSome = true := by
    rw [isSome_live, Heap.get?_alloc, if_pos rfl]
    rfl
  rw [Registry.get?_place_of_agrees hagree hnew, Registry.get?_eq_index s.live,
    Registry.get?_eq_index s'.live, Registry.index_congr hagree]

theorem enter_cases (s : Session) (o : Object) :
    (∃ q, (s.fetch o.id o.classOf).1 = .ok q ∧ s.enter o = (q, s)) ∨
      (∃ e, (s.fetch o.id o.classOf).1 = .error e) ∧ s.enter o = (s.heap.next, notify
        { s with registry := s.registry.place s.live o.id s.heap.next, heap := (s.heap.alloc o).2 }
        .added s.heap.next) := by
  simp only [fetch, enter, Registry.insert]
  cases s.registry.getAs s.live o.id o.classOf with
  | ok q => exact .inl ⟨q, rfl, rfl⟩
  | error e => exact .inr ⟨⟨e, rfl⟩, rfl⟩

theorem reregister_cases (ho : s.heap.get? r = some o) :
    (∃ q, (s.fetch o.id o.classOf).1 = .ok q ∧ s.reregister r = (q, s)) ∨
      (∃ e, (s.fetch o.id o.classOf).1 = .error e) ∧ s.reregister r = (r, notify
        { s with registry := s.registry.place s.live o.id r } .added r) := by
  simp only [fetch, reregister, ho, Registry.insert]
  cases s.registry.getAs s.live o.id o.classOf with
  | ok q => exact .inl ⟨q, rfl, rfl⟩
  | error e => exact .inr ⟨⟨e, rfl⟩, rfl⟩

theorem Filing.move (h : s.Filing) (hmove : Move fit s s') : s'.Filing := by
  cases hmove with
  | reads reads =>
    intro j q hq
    rw [reads.heap]
    exact h j q (reads.entries j q hq)
  | aside | bind | unbind => exact h
  | modify r same => exact fun j q hq => (h j q hq).modify (fun o => (same o).1) r
  | setBody => exact fun j q hq => (h j q hq).setBody _ _
  | changed r => exact reactive_filing.notify s .changed r h
  | @enter o _ =>
    rcases enter_cases s o with ⟨q, _, hs⟩ | ⟨_, hs⟩
    · rwa [hs]
    · rw [hs]
      exact reactive_filing.notify _ .added _ (h.alloc o)
  | reregister r =>
    cases ho : s.heap.get? r with
    | none => simpa only [reregister, ho] using h
    | some o =>
      rcases reregister_cases ho with ⟨q, _, hs⟩ | ⟨_, hs⟩
      · rwa [hs]
      · rw [hs]
        exact reactive_filing.notify _ .added _ (h.place ho)
  | unregister id => exact reactive_filing.unregister s id h

theorem Filing.moves (h : s.Filing) (hmoves : s.Moves fit s') : s'.Filing := by
  induction hmoves with
  | refl => exact h
  | tail _ hmove ih => exact ih.move hmove

theorem Filing.settle (h : s.Filing) : s.settle.Filing := by
  intro id r hr
  obtain ⟨hlt, hid⟩ := h id r hr
  exact ⟨by rwa [Session.settle, Heap.next_release], fun o ho => hid o (Heap.get?_of_release ho)⟩

theorem Reachable.filing (hs : s.Reachable) : s.Filing := by
  induction hs with
  | initial config supply => exact nofun
  | @run s command reachable _ ih =>
    refine Filing.settle (s := (s.perform command).2) ?_
    cases hc : command.subscribes with
    | false =>
      exact ih.moves (moves_perform (fun _ => trivial) hc (reachable.intact.supplies command))
    | true =>
      obtain ⟨chain, hs'⟩ := perform_subscribes (s := s) hc
      rwa [hs']

structure Apart (tag : String) (p : Nat × Observer) : Prop where
  handle : p.1 ≠ 0
  other : p.2.tag ≠ tag
  spawned : p.2.reaction = .spawn → p.2.tag ++ "+" ≠ tag

structure Recorded (tag : String) (c : Chain Observer) : Prop where
  next : 0 < c.next
  first : ∃ rest, c.active = (0, { tag }) :: rest ∧ ∀ p ∈ rest, Apart tag p

theorem Recorded.subscribe {c : Chain Observer} (h : Recorded tag c) {observer : Observer}
    (htag : observer.tag ≠ tag)
    (hspawned : observer.reaction = .spawn → observer.tag ++ "+" ≠ tag) :
    Recorded tag (c.subscribe observer).2 := by
  obtain ⟨rest, hactive, hrest⟩ := h.first
  refine ⟨Nat.succ_pos _, rest ++ [(c.next, observer)], ?_, fun p hp => ?_⟩
  · rw [Chain.subscribe, hactive]
    rfl
  · rcases List.mem_append.mp hp with hp | hp
    · exact hrest p hp
    · rw [List.mem_singleton.mp hp]
      exact ⟨Nat.ne_of_gt h.next, htag, hspawned⟩

theorem Recorded.unsubscribe {c : Chain Observer} (h : Recorded tag c) {handle : Nat}
    (hhandle : handle ≠ 0) : Recorded tag (c.unsubscribe handle).2 := by
  obtain ⟨rest, hactive, hrest⟩ := h.first
  refine ⟨h.next, rest.filter (·.1 != handle), ?_, fun p hp => hrest p (List.mem_filter.mp hp).1⟩
  have hkept : ((0 : Nat) != handle) = true := bne_iff_ne.mpr hhandle.symm
  rw [Chain.unsubscribe, hactive]
  simp [hkept]

structure Unheard (tag : String) (s s' : Session) : Prop where
  chain : Recorded tag s.chain → Recorded tag s'.chain
  filing : s.Filing → s'.Filing
  next : s'.heap.next = s.heap.next
  live : ∀ r, (s'.heap.get? r).isSome = (s.heap.get? r).isSome
  answers : ∀ id, s'.registry.get? s'.live id = s.registry.get? s.live id
  heard : heard tag s'.log = heard tag s.log

theorem Unheard.refl (s : Session) : Unheard tag s s :=
  ⟨id, id, rfl, fun _ => rfl, fun _ => rfl, rfl⟩

theorem Unheard.trans (h : Unheard tag s s₁) (h₁ : Unheard tag s₁ s') : Unheard tag s s' where
  chain hs := h₁.chain (h.chain hs)
  filing hs := h₁.filing (h.filing hs)
  next := h₁.next.trans h.next
  live r := (h₁.live r).trans (h.live r)
  answers id := (h₁.answers id).trans (h.answers id)
  heard := h₁.heard.trans h.heard

theorem unheard_reads (h : s.Reads s') : Unheard tag s s' where
  chain hs := by rwa [h.rest]
  filing hs j q hq := by
    rw [h.heap]
    exact hs j q (h.entries j q hq)
  next := by rw [h.heap]
  live r := by rw [h.heap]
  answers id := by rw [h.live, h.answers]
  heard := by rw [h.rest]

theorem unheard_modify (s : Session) (r : Ref) (hf : ∀ o, (f o).id = o.id) :
    Unheard tag s { s with heap := s.heap.modify r f } := by
  have hlive : ∀ q, ((s.heap.modify r f).get? q).isSome = (s.heap.get? q).isSome := by
    intro q
    rw [Heap.get?_modify]
    split
    · rw [Option.isSome_map]
    · rfl
  refine ⟨id, fun hs j q hq => (hs j q hq).modify hf r, rfl, hlive, fun id => ?_, rfl⟩
  refine Registry.get?_congr (fun q => ?_) s.registry id
  rw [isSome_live, isSome_live]
  exact hlive q

theorem unheard_setBody (s : Session) (r : Ref) (b : Body) : Unheard tag s (s.setBody r b) :=
  unheard_modify (f := fun o => { o with body := b }) s r fun _ => rfl

theorem unheard_disk (s : Session) (disk : Disk) : Unheard tag s { s with disk } :=
  ⟨id, id, rfl, fun _ => rfl, fun _ => rfl, rfl⟩

theorem unheard_chain (s : Session) (spent : List Nat) {chain : Chain Observer}
    (h : Recorded tag s.chain → Recorded tag chain) : Unheard tag s { s with spent, chain } :=
  ⟨h, id, rfl, fun _ => rfl, fun _ => rfl, rfl⟩

theorem heard_write (s : Session) (n : Note) :
    heard tag (s.write n).log = heard tag s.log ++ (n.registration? tag).toList := by
  rw [write, heard, List.filterMap_append]
  cases hn : n.registration? tag <;> simp [hn, heard]

theorem unheard_write (s : Session) {n : Note} (h : n.registration? tag = none) :
    Unheard tag s (s.write n) :=
  ⟨id, id, rfl, fun _ => rfl, fun _ => rfl, by rw [heard_write, h]; exact List.append_nil _⟩

theorem unheard_observe (s : Session) {t : String} (kind : EventKind)
    (h : t ≠ tag ∨ kind = .changed) (r : Ref) :
    Unheard tag s (s.observe t kind r) := by
  unfold observe
  split
  · refine unheard_write s (if_neg ?_)
    rintro ⟨htag, hkind⟩
    exact h.elim (absurd htag) (absurd · hkind)
  · exact .refl s

theorem unheard_updateImage (s : Session) (r : Ref)
    {f : Image → Disk → Except Error Unit × Image × Disk} (hf : Stores f) :
    Unheard tag s (s.updateImage r f).2 := by
  rcases updateImage_cases hf s r with hsame | ⟨i, store, disk, _, _, hs⟩
  · rw [hsame]
    exact .refl s
  · rw [hs]
    exact (unheard_setBody s r _).trans (unheard_disk _ disk)

theorem unheard_patch (s : Session) (t : String) (r : Ref) : Unheard tag s (s.patch t r) := by
  unfold patch
  split
  · exact .refl s
  · rename_i id _
    have hfetch : Unheard tag s (s.fetch id .image).2 := unheard_reads (fetch_reads s id .image)
    split
    · rename_i hfail
      rwa [hfail] at hfetch
    · rename_i image s₁ hfound
      rw [hfound] at hfetch
      have hflush := hfetch.trans (unheard_updateImage s₁ image stores_flush)
      have hwrite := hflush.trans (unheard_updateImage _ image (stores_writeRaw 0 [0x90]))
      exact hwrite.trans (unheard_write _ rfl)

theorem unheard_reactQuietly (hp : Apart tag p) (kind : EventKind) (r : Ref) (s : Session) :
    Unheard tag s (reactQuietly kind r s p) := by
  obtain ⟨handle, observer⟩ := p
  have hobserve := unheard_observe s kind (.inl hp.other) r
  cases hr : observer.reaction with
  | silent => simpa only [reactQuietly, hr] using .refl s
  | record => simpa only [reactQuietly, hr] using hobserve
  | reap className => simpa only [reactQuietly, hr] using hobserve
  | once =>
    simp only [reactQuietly, hr]
    split
    · exact hobserve
    · exact hobserve.trans (unheard_chain _ _ fun h => h.unsubscribe hp.handle)
  | spawn =>
    simp only [reactQuietly, hr]
    split
    · exact hobserve
    · refine hobserve.trans (unheard_chain _ _ fun h => h.subscribe (hp.spawned hr) ?_)
      intro hspawns
      cases hspawns
  | patch =>
    simp only [reactQuietly, hr]
    split
    · exact hobserve.trans (unheard_patch _ observer.tag r)
    · exact hobserve

theorem unheard_foldl {rest : List (Nat × Observer)} (hrest : ∀ p ∈ rest, Apart tag p)
    (kind : EventKind) (r : Ref) (s : Session) :
    Unheard tag s (rest.foldl (reactQuietly kind r) s) := by
  induction rest generalizing s with
  | nil => exact .refl s
  | cons p rest ih =>
    have hp := unheard_reactQuietly (hrest p List.mem_cons_self) kind r s
    exact hp.trans (ih (fun q hq => hrest q (List.mem_cons_of_mem p hq)) _)

theorem unheard_changed (h : Recorded tag s.chain) (r : Ref) :
    Unheard tag s (s.notify .changed r) := by
  obtain ⟨rest, hactive, hrest⟩ := h.first
  rw [notify_changed, notifyQuietly, Chain.deliver, hactive, List.foldl_cons]
  exact (unheard_observe s .changed (.inr rfl) r).trans (unheard_foldl hrest .changed r _)

/-- What is registered is what the observer of the tag heard to be added last, if it is alive. -/
structure Tells (tag : String) (s : Session) : Prop where
  chain : Recorded tag s.chain
  filing : s.Filing
  given : ∀ e ∈ heard tag s.log, e.2.2 < s.heap.next
  registered : ∀ id r, s.registry.get? s.live id = some r ↔
    lastUnder id (heard tag s.log) = some (.added, id, r) ∧ (s.heap.get? r).isSome = true

theorem Tells.unheard (h : s.Tells tag) (hs : Unheard tag s s') : s'.Tells tag where
  chain := hs.chain h.chain
  filing := hs.filing h.filing
  given := by
    rw [hs.heard, hs.next]
    exact h.given
  registered id r := by
    rw [hs.answers, hs.heard, hs.live]
    exact h.registered id r

theorem find_eq_ok_iff : (s.find id).1 = .ok r ↔ s.registry.get? s.live id = some r := by
  rw [find]
  cases s.registry.get? s.live id <;> simp

theorem find_eq_error_iff {e : LookupError} :
    (s.find id).1 = .error e ↔ s.registry.get? s.live id = none ∧ e = .notFound id := by
  rw [find]
  cases s.registry.get? s.live id <;> simp [eq_comm]

theorem Tells.find_iff (h : s.Tells tag) (id : HashId) (r : Ref) : (s.find id).1 = .ok r ↔
    lastUnder id (heard tag s.log) = some (.added, id, r) ∧ (s.heap.get? r).isSome = true := by
  rw [find_eq_ok_iff, h.registered]

theorem get?_eq_some_iff : s.registry.get? s.live id = some r ↔
    s.registry.entries.get? id = some r ∧ (s.heap.get? r).isSome = true := by
  rw [Registry.get?, Option.filter_eq_some_iff, isSome_live]

theorem Filing.get? (h : s.Filing) (hr : s.registry.get? s.live id = some r) :
    ∃ o, s.heap.get? r = some o ∧ o.id = id := by
  obtain ⟨hentry, hlive⟩ := get?_eq_some_iff.mp hr
  obtain ⟨o, ho⟩ := Option.isSome_iff_exists.mp hlive
  exact ⟨o, ho, (h id r hentry).2 o ho⟩

theorem unregister_absent (h : s.registry.get? s.live id = none) :
    s.unregister id =
      (.error (.notFound id), { s with registry := (s.registry.remove s.live id).2 }) := by
  simp only [unregister, Registry.remove, h]

theorem unregister_present (h : s.registry.get? s.live id = some r) :
    s.unregister id =
      (.ok r, notifyQuietly { s with registry := (s.registry.remove s.live id).2 } .removed r) := by
  simp only [unregister, Registry.remove, h]

theorem get?_removed (s : Session) (id j : HashId) :
    (s.registry.remove s.live id).2.get? s.live j =
      if j = id then none else s.registry.get? s.live j :=
  Registry.get?_erase s.live s.registry id j

theorem unheard_unregister (h : s.registry.get? s.live id = none) :
    Unheard tag s (s.unregister id).2 := by
  rw [unregister_absent h]
  refine ⟨fun h => h, reactive_filing.remove s id, rfl, fun _ => rfl, fun j => ?_, rfl⟩
  refine (get?_removed s id j).trans ?_
  split
  · rename_i hj
    rw [hj, h]
  · rfl

theorem Tells.hear (h : s.Tells tag) (ho : s₁.heap.get? r = some o) (kind : EventKind)
    (hkind : kind ≠ .changed) (hchain : s₁.chain = s.chain) (hlog : s₁.log = s.log)
    (hfiling : s₁.Filing) (hnext : s.heap.next ≤ s₁.heap.next)
    (hlive : ∀ q < s.heap.next, (s₁.heap.get? q).isSome = (s.heap.get? q).isSome)
    (hanswers : ∀ j, s₁.registry.get? s₁.live j =
      if j = o.id then (if kind = .added then some r else none) else s.registry.get? s.live j) :
    (s₁.observe tag kind r).Tells tag ∧
      heard tag (s₁.observe tag kind r).log = heard tag s.log ++ [(kind, o.id, r)] := by
  have hheard : heard tag (s₁.write (.event tag kind r o.id o.classOf o.name)).log =
      heard tag s.log ++ [(kind, o.id, r)] := by
    rw [heard_write, Note.registration?, if_pos ⟨rfl, hkind⟩, hlog]
    rfl
  simp only [observe, ho]
  refine ⟨⟨?_, hfiling, fun e he => ?_, fun j q => ?_⟩, hheard⟩
  · exact hchain ▸ h.chain
  · rw [hheard] at he
    rcases List.mem_append.mp he with he | he
    · exact Nat.lt_of_lt_of_le (h.given e he) hnext
    · rw [List.mem_singleton.mp he]
      exact Heap.lt_next ho
  · rw [hheard, lastUnder_append, lastUnder_singleton]
    change s₁.registry.get? s₁.live j = some q ↔ _ ∧ (s₁.heap.get? q).isSome = true
    rw [hanswers]
    by_cases hj : j = o.id
    · subst hj
      by_cases hadded : kind = .added
      · simp only [hadded, if_true, Option.some_or, Option.some.injEq, Prod.mk.injEq, true_and]
        constructor
        · rintro rfl
          exact ⟨rfl, by rw [ho]; rfl⟩
        · exact And.left
      · simp [hadded]
    · -- whatever was heard last under another hash id is of an old object
      rw [if_neg hj, if_neg fun e => hj e.symm, Option.none_or, h.registered]
      refine and_congr_right fun hlast => ?_
      rw [hlive q (h.given _ (mem_of_lastUnder hlast))]

theorem Tells.unregister (h : s.Tells tag) (hr : s.registry.get? s.live id = some r) :
    (s.unregister id).2.Tells tag ∧
      heard tag (s.unregister id).2.log = heard tag s.log ++ [(.removed, id, r)] := by
  obtain ⟨o, ho, rfl⟩ := h.filing.get? hr
  obtain ⟨rest, hactive, hrest⟩ := h.chain.first
  rw [unregister_present hr, notifyQuietly, Chain.deliver, hactive, List.foldl_cons]
  let removed : Session := { s with registry := (s.registry.remove s.live o.id).2 }
  have ho' : removed.heap.get? r = some o := ho
  obtain ⟨htells, hheard⟩ := h.hear ho' .removed nofun rfl rfl
    (reactive_filing.remove s o.id h.filing) (Nat.le_refl _) (fun _ _ => rfl) (get?_removed s o.id)
  have hothers := unheard_foldl hrest .removed r (removed.observe tag .removed r)
  exact ⟨htells.unheard hothers, hothers.heard.trans hheard⟩

def Withdraws (tag : String) (id : HashId) (s s' : Session) : Prop :=
  ∃ later, heard tag s'.log = heard tag s.log ++ later ∧ ∀ e ∈ later, e.1 = .removed ∧ e.2.1 = id

theorem Unheard.withdraws (h : Unheard tag s s') (id : HashId) : Withdraws tag id s s' :=
  ⟨[], by rw [h.heard, List.append_nil], nofun⟩

theorem Withdraws.trans (h : Withdraws tag id s s₁) (h₁ : Withdraws tag id s₁ s') :
    Withdraws tag id s s' := by
  obtain ⟨later, hheard, hlater⟩ := h
  obtain ⟨later₁, hheard₁, hlater₁⟩ := h₁
  refine ⟨later ++ later₁, by rw [hheard₁, hheard, List.append_assoc], fun e he => ?_⟩
  rcases List.mem_append.mp he with he | he
  · exact hlater e he
  · exact hlater₁ e he

theorem Tells.withdraw (h : s.Tells tag) (id : HashId) :
    (s.unregister id).2.Tells tag ∧ Withdraws tag id s (s.unregister id).2 := by
  cases hr : s.registry.get? s.live id with
  | none =>
    have hsame : Unheard tag s (s.unregister id).2 := unheard_unregister hr
    exact ⟨h.unheard hsame, hsame.withdraws id⟩
  | some r =>
    obtain ⟨htells, hheard⟩ := h.unregister hr
    refine ⟨htells, [(.removed, id, r)], hheard, fun e he => ?_⟩
    rw [List.mem_singleton.mp he]
    exact ⟨rfl, rfl⟩

theorem Tells.react (h : s.Tells tag) (hp : Apart tag p) (ho : s.heap.id? r = some id)
    (kind : EventKind) :
    (Session.react kind r s p).Tells tag ∧ Withdraws tag id s (Session.react kind r s p) := by
  have hquiet := unheard_reactQuietly hp kind r s
  unfold Session.react
  split
  · rename_i className o _ hget
    have hid : o.id = id := by
      rw [Heap.id?, hget] at ho
      exact Option.some.inj ho
    have hobserve := unheard_observe s .added (.inl hp.other) r
    dsimp only
    split
    · obtain ⟨htells, hwithdraws⟩ := (h.unheard hobserve).withdraw o.id
      let reaped := (s.observe p.2.tag .added r).unregister o.id
      have hsaid : Unheard tag reaped.2 (reaped.2.write (.reaped p.2.tag reaped.1.isOk)) :=
        unheard_write reaped.2 rfl
      refine ⟨htells.unheard hsaid, ?_⟩
      rw [← hid]
      exact ((hobserve.withdraws o.id).trans hwithdraws).trans (hsaid.withdraws o.id)
    · exact ⟨h.unheard hobserve, hobserve.withdraws id⟩
  · exact ⟨h.unheard hquiet, hquiet.withdraws id⟩

theorem storeBlind_id : StoreBlind Object.id := fun _ _ _ _ => rfl

theorem id?_react (ho : s.heap.id? r = some id) (kind : EventKind) (p : Nat × Observer) :
    (react kind r s p).heap.id? r = some id := by
  obtain ⟨o, hget, rfl⟩ := Option.map_eq_some_iff.mp ho
  have hk : s.heap.Keeps Object.id (fun _ => True) (react kind r s p).heap :=
    storeBlind_id.reactive.react kind r s p
  exact (hk.old r (Heap.lt_next hget)).trans ho

theorem Tells.foldl_react (h : s.Tells tag) {rest : List (Nat × Observer)}
    (hrest : ∀ p ∈ rest, Apart tag p) (ho : s.heap.id? r = some id) (kind : EventKind) :
    (rest.foldl (Session.react kind r) s).Tells tag ∧
      Withdraws tag id s (rest.foldl (Session.react kind r) s) := by
  induction rest generalizing s with
  | nil => exact ⟨h, (Unheard.refl s).withdraws id⟩
  | cons p rest ih =>
    obtain ⟨htells, hwithdraws⟩ := h.react (hrest p List.mem_cons_self) ho kind
    obtain ⟨hlast, hlater⟩ :=
      ih htells (fun q hq => hrest q (List.mem_cons_of_mem p hq)) (id?_react ho kind p)
    exact ⟨hlast, hwithdraws.trans hlater⟩

def Enters (tag : String) (id : HashId) (r : Ref) (s s' : Session) : Prop :=
  ∃ later, heard tag s'.log = heard tag s.log ++ (.added, id, r) :: later ∧
    (∀ e ∈ later, e.1 = .removed ∧ e.2.1 = id) ∧ ((s'.find id).1 = .ok r ↔ later = [])

theorem Tells.find_iff_of_heard (h : s.Tells tag) (hr : (s.heap.get? r).isSome = true)
    {before later : List (EventKind × HashId × Ref)}
    (hheard : heard tag s.log = before ++ (.added, id, r) :: later)
    (hlater : ∀ e ∈ later, e.1 = .removed ∧ e.2.1 = id) :
    (s.find id).1 = .ok r ↔ later = [] := by
  rw [h.find_iff, hheard, List.append_cons, lastUnder_append]
  rcases List.eq_nil_or_concat later with rfl | ⟨init, e, rfl⟩
  · simp [lastUnder, hr]
  · obtain ⟨hkind, hid⟩ := hlater e (by simp)
    have hlast : lastUnder id (init ++ [e]) = some e := by
      rw [lastUnder_append, lastUnder_singleton, if_pos hid]
      rfl
    rw [List.concat_eq_append, hlast]
    constructor
    · rintro ⟨heq, _⟩
      cases heq
      cases hkind
    · intro hnil
      simp at hnil

theorem Tells.added (h : s.Tells tag) (ho : s₁.heap.get? r = some o)
    (hchain : s₁.chain = s.chain) (hlog : s₁.log = s.log) (hfiling : s₁.Filing)
    (hnext : s.heap.next ≤ s₁.heap.next)
    (hlive : ∀ q < s.heap.next, (s₁.heap.get? q).isSome = (s.heap.get? q).isSome)
    (hanswers : ∀ j, s₁.registry.get? s₁.live j =
      if j = o.id then some r else s.registry.get? s.live j) :
    (s₁.notify .added r).Tells tag ∧ Enters tag o.id r s (s₁.notify .added r) := by
  obtain ⟨rest, hactive, hrest⟩ := h.chain.first
  obtain ⟨htells, hheard⟩ := h.hear ho .added nofun hchain hlog hfiling hnext hlive hanswers
  have hid : (s₁.observe tag .added r).heap.id? r = some o.id := by
    simp only [observe, ho]
    exact congrArg (Option.map Object.id) ho
  obtain ⟨hlast, later, hlater, hremoved⟩ := htells.foldl_react hrest hid .added
  have hnotify : s₁.notify .added r =
      rest.foldl (Session.react .added r) (s₁.observe tag .added r) := by
    rw [notify, Chain.deliver, hchain, hactive, List.foldl_cons]
    rfl
  have hheard' : heard tag (s₁.notify .added r).log =
      heard tag s.log ++ (.added, o.id, r) :: later := by
    rw [hnotify, hlater, hheard, List.append_assoc, List.singleton_append]
  rw [← hnotify] at hlast
  have hk : s₁.heap.Keeps Object.id (fun _ => True) (s₁.notify .added r).heap :=
    notify_keeps storeBlind_id s₁ .added r
  have hr : ((s₁.notify .added r).heap.get? r).isSome = true :=
    isSome_of_keeps hk (by rw [ho]; rfl)
  exact ⟨hlast, later, hheard', hremoved, hlast.find_iff_of_heard hr hheard' hremoved⟩

def Registers (tag : String) (s : Session) (o : Object) (r : Ref) (result : Ref × Session) : Prop :=
  (∀ q, (s.fetch o.id o.classOf).1 = .ok q → result.1 = q ∧ result.2.log = s.log) ∧
    ∀ e, (s.fetch o.id o.classOf).1 = .error e → result.1 = r ∧ Enters tag o.id r s result.2

theorem registers_existing {q : Ref} (hq : (s.fetch o.id o.classOf).1 = .ok q)
    (hlog : s'.log = s.log) : s.Registers tag o r (q, s') := by
  refine ⟨fun q' hq' => ?_, fun e he => ?_⟩
  · cases hq.symm.trans hq'
    exact ⟨rfl, hlog⟩
  · cases hq.symm.trans he

theorem registers_new {e : LookupError} (he : (s.fetch o.id o.classOf).1 = .error e)
    (henters : Enters tag o.id r s s') : s.Registers tag o r (r, s') := by
  refine ⟨fun q hq => ?_, fun _ _ => ⟨rfl, henters⟩⟩
  cases he.symm.trans hq

theorem Tells.enter (h : s.Tells tag) (o : Object) :
    (s.enter o).2.Tells tag ∧ s.Registers tag o s.heap.next (s.enter o) := by
  rcases enter_cases s o with ⟨q, hq, hs⟩ | ⟨⟨e, he⟩, hs⟩
  · rw [hs]
    exact ⟨h, registers_existing hq rfl⟩
  · let entered : Session := { s with
      registry := s.registry.place s.live o.id s.heap.next, heap := (s.heap.alloc o).2 }
    have ho : entered.heap.get? s.heap.next = some o := by rw [Heap.get?_alloc, if_pos rfl]
    have hlive : ∀ q < s.heap.next, (entered.heap.get? q).isSome = (s.heap.get? q).isSome := by
      intro q hq
      rw [Heap.get?_alloc, if_neg (Nat.ne_of_lt hq)]
    obtain ⟨htells, henters⟩ := h.added ho rfl rfl (h.filing.alloc o) (Nat.le_succ _) hlive
      (h.filing.get?_alloc o)
    rw [hs]
    exact ⟨htells, registers_new he henters⟩

theorem Tells.reregister (h : s.Tells tag) (ho : s.heap.get? r = some o) :
    (s.reregister r).2.Tells tag ∧ s.Registers tag o r (s.reregister r) := by
  rcases reregister_cases ho with ⟨q, hq, hs⟩ | ⟨⟨e, he⟩, hs⟩
  · rw [hs]
    exact ⟨h, registers_existing hq rfl⟩
  · have hlive : (s.live r).isSome = true := by
      rw [isSome_live, ho]
      rfl
    have ho' : Heap.get? { s with registry := s.registry.place s.live o.id r }.heap r = some o := ho
    obtain ⟨htells, henters⟩ := h.added ho' rfl rfl (h.filing.place ho) (Nat.le_refl _)
      (fun _ _ => rfl) fun j => Registry.get?_place s.live s.registry o.id j hlive
    rw [hs]
    exact ⟨htells, registers_new he henters⟩

theorem Tells.move (h : s.Tells tag) (hmove : Move fit s s') : s'.Tells tag := by
  cases hmove with
  | reads reads => exact h.unheard (unheard_reads reads)
  | aside | bind | unbind =>
    exact h.unheard ⟨fun h => h, fun h => h, rfl, fun _ => rfl, fun _ => rfl, rfl⟩
  | modify r same => exact h.unheard (unheard_modify s r fun o => (same o).1)
  | setBody => exact h.unheard (unheard_setBody s _ _)
  | changed r => exact h.unheard (unheard_changed h.chain r)
  | @enter o _ => exact (h.enter o).1
  | reregister r =>
    cases ho : s.heap.get? r with
    | none => simpa only [Session.reregister, ho] using h
    | some o => exact (h.reregister ho).1
  | unregister id => exact (h.withdraw id).1

theorem Tells.moves (h : s.Tells tag) (hmoves : s.Moves fit s') : s'.Tells tag := by
  induction hmoves with
  | refl => exact h
  | tail _ hmove ih => exact ih.move hmove

theorem isSome_of_settle (h : (s.settle.heap.get? r).isSome = true) :
    (s.heap.get? r).isSome = true := by
  obtain ⟨o, ho⟩ := Option.isSome_iff_exists.mp h
  rw [Heap.get?_of_release ho]
  rfl

theorem get?_settle_eq_some_iff : s.settle.registry.get? s.settle.live id = some r ↔
    s.registry.get? s.live id = some r ∧ (s.settle.heap.get? r).isSome = true := by
  rw [get?_eq_some_iff, get?_eq_some_iff]
  constructor
  · rintro ⟨hentry, hlive⟩
    exact ⟨⟨hentry, isSome_of_settle hlive⟩, hlive⟩
  · rintro ⟨⟨hentry, _⟩, hlive⟩
    exact ⟨hentry, hlive⟩

theorem Tells.settle (h : s.Tells tag) : s.settle.Tells tag where
  chain := h.chain
  filing := h.filing.settle
  given e he := by
    rw [Session.settle, Heap.next_release]
    exact h.given e he
  registered id r := by
    rw [get?_settle_eq_some_iff, h.registered]
    constructor
    · rintro ⟨⟨hlast, _⟩, hlive⟩
      exact ⟨hlast, hlive⟩
    · rintro ⟨hlast, hlive⟩
      exact ⟨⟨hlast, isSome_of_settle hlive⟩, hlive⟩

end Session

def Command.Respects (tag : String) : Command → Prop
  | .subscribe observer =>
    observer.tag ≠ tag ∧ (observer.reaction = .spawn → observer.tag ++ "+" ≠ tag)
  | .unsubscribe subscription => subscription ≠ 0
  | _ => True

namespace Session

variable {tag : String} {s : Session}

theorem Tells.run (h : s.Tells tag) (hi : s.Intact fun _ _ => True) {command : Command}
    (hc : command.Respects tag) : (s.run command).2.Tells tag := by
  refine Tells.settle (s := (s.perform command).2) ?_
  cases hn : command.subscribes with
  | false => exact h.moves (moves_perform (fun _ => trivial) hn (hi.supplies command))
  | true =>
    cases command with
    | subscribe observer =>
      exact h.unheard (unheard_chain s s.spent fun hchain => hchain.subscribe hc.1 hc.2)
    | unsubscribe subscription =>
      exact h.unheard (unheard_chain s s.spent fun hchain => hchain.unsubscribe hc)
    | _ => cases hn

/-- The sessions that commands lead to after an observer has subscribed that takes notes under a
tag, before anything else. Those that subscribe later may react in any way. -/
inductive Watched (tag : String) : Session → Prop
  | start (config : Config) (supply : Nat → Uuid) :
    Watched tag ((initial config supply).run (.subscribe { tag })).2
  | run {s : Session} (command : Command) (watched : Watched tag s)
      (respects : command.Respects tag) : Watched tag (s.run command).2

theorem Watched.intact (hs : s.Watched tag) : s.Intact fun _ _ => True := by
  induction hs with
  | start config supply =>
    exact (intact_initial config supply).run (fun _ => trivial) (supplies_of_puts _ rfl)
  | run command _ _ ih => exact ih.run (fun _ => trivial) (ih.supplies command)

theorem tells_subscribe (config : Config) (supply : Nat → Uuid) :
    Tells tag ((initial config supply).perform (.subscribe { tag })).2 where
  chain := ⟨Nat.zero_lt_one, [], rfl, nofun⟩
  filing := nofun
  given := nofun
  registered id r := by
    constructor
    · nofun
    · rintro ⟨hlast, _⟩
      cases hlast

theorem Watched.tells (hs : s.Watched tag) : s.Tells tag := by
  induction hs with
  | start config supply => exact (tells_subscribe config supply).settle
  | run command watched respects ih => exact ih.run watched.intact respects

structure Reports (tag : String) (s : Session) : Prop where
  create : ∀ id name b, s.Registers tag (Object.create (s.identify id).1 name b) s.heap.next
    (s.create id name b)
  reregister : ∀ r o, s.heap.get? r = some o → s.Registers tag o r (s.reregister r)
  remove : ∀ id r, (s.find id).1 = .ok r → (s.unregister id).1 = .ok r ∧
    heard tag (s.unregister id).2.log = heard tag s.log ++ [(.removed, id, r)] ∧
    ((s.unregister id).2.find id).1 = .error (.notFound id)
  remove_absent : ∀ id e, (s.find id).1 = .error e →
    (s.unregister id).1 = .error e ∧ (s.unregister id).2.log = s.log
  discard : ∀ id r o, (s.find id).1 = .ok r → s.heap.get? r = some o → o.temporary = true →
    (s.discard id).1 = .ok true ∧
    heard tag (s.discard id).2.log = heard tag s.log ++ [(.removed, id, r)] ∧
    ((s.discard id).2.find id).1 = .error (.notFound id)
  discard_permanent : ∀ id r o, (s.find id).1 = .ok r → s.heap.get? r = some o →
    o.temporary = false →
    (s.discard id).1 = .ok false ∧ (s.discard id).2.log = s.log ∧
    ((s.discard id).2.find id).1 = .ok r
  discard_absent : ∀ id e, (s.find id).1 = .error e →
    (s.discard id).1 = .error e ∧ (s.discard id).2.log = s.log

theorem Tells.remove (h : s.Tells tag) {id : HashId} {r : Ref} (hr : (s.find id).1 = .ok r) :
    (s.unregister id).1 = .ok r ∧
      heard tag (s.unregister id).2.log = heard tag s.log ++ [(.removed, id, r)] ∧
      ((s.unregister id).2.find id).1 = .error (.notFound id) := by
  rw [find_eq_ok_iff] at hr
  obtain ⟨htells, hheard⟩ := h.unregister hr
  refine ⟨by rw [unregister_present hr], hheard, find_eq_error_iff.mpr ⟨?_, rfl⟩⟩
  rw [Option.eq_none_iff_forall_ne_some]
  intro q hq
  have hlast := ((htells.registered id q).mp hq).1
  rw [hheard, lastUnder_append, lastUnder_singleton, if_pos rfl] at hlast
  cases hlast

theorem unregister_of_find_error {id : HashId} {e : LookupError} (he : (s.find id).1 = .error e) :
    (s.unregister id).1 = .error e ∧ (s.unregister id).2.log = s.log := by
  obtain ⟨hnone, rfl⟩ := find_eq_error_iff.mp he
  rw [unregister_absent hnone]
  exact ⟨rfl, rfl⟩

section

variable {id : HashId} {r : Ref} {o : Object}

theorem discard_absent {e : LookupError} (he : (s.find id).1 = .error e) :
    s.discard id = (.error e, (s.find id).2) := by
  have hfind : s.find id = (.error e, (s.find id).2) := Prod.ext he rfl
  rw [discard, hfind]

variable (hr : (s.find id).1 = .ok r) (ho : s.heap.get? r = some o)

include hr ho

theorem discard_permanent (htemporary : o.temporary = false) :
    s.discard id = (.ok false, (s.find id).2) := by
  have hfind : s.find id = (.ok r, (s.find id).2) := Prod.ext hr rfl
  have hkept : (((s.find id).2.heap.get? r).map (·.temporary)).getD false = false := by
    rw [(find_reads s id).heap, ho]
    exact htemporary
  rw [discard, hfind]
  simp [hkept]

theorem discard_temporary (htemporary : o.temporary = true)
    (hremoved : ((s.find id).2.unregister id).1 = .ok r) :
    s.discard id = (.ok true, ((s.find id).2.unregister id).2) := by
  have hfind : s.find id = (.ok r, (s.find id).2) := Prod.ext hr rfl
  have hkept : (((s.find id).2.heap.get? r).map (·.temporary)).getD false = true := by
    rw [(find_reads s id).heap, ho]
    exact htemporary
  have hunregister : (s.find id).2.unregister id = (.ok r, ((s.find id).2.unregister id).2) :=
    Prod.ext hremoved rfl
  rw [discard, hfind]
  simp only [hkept, if_true]
  rw [hunregister]

end

theorem Tells.reports (h : s.Tells tag) : s.Reports tag := by
  have hagain : ∀ id j, ((s.find id).2.find j).1 = (s.find j).1 := fun id => (find_reads s id).find
  constructor
  case create =>
    intro id name b
    cases id with
    | some uuid => exact (h.enter _).2
    | none =>
      have hidentified : Tells tag { s with issued := s.issued + 1 } :=
        h.unheard ⟨fun h => h, fun h => h, rfl, fun _ => rfl, fun _ => rfl, rfl⟩
      exact (hidentified.enter _).2
  case reregister => exact fun r o ho => (h.reregister ho).2
  case remove => exact fun id r hr => h.remove hr
  case remove_absent => exact fun id e he => unregister_of_find_error he
  case discard =>
    intro id r o hr ho htemporary
    have hfound : (s.find id).2.Tells tag := h.unheard (unheard_reads (find_reads s id))
    obtain ⟨hremoved, hheard, hgone⟩ := hfound.remove ((hagain id id).trans hr)
    rw [discard_temporary hr ho htemporary hremoved]
    exact ⟨rfl, hheard, hgone⟩
  case discard_permanent =>
    intro id r o hr ho htemporary
    rw [Session.discard_permanent hr ho htemporary]
    exact ⟨rfl, rfl, (hagain id id).trans hr⟩
  case discard_absent =>
    intro id e he
    rw [Session.discard_absent he]
    exact ⟨rfl, rfl⟩

theorem watched_registry_iff (tag : String) (s : Session) (hs : s.Watched tag) :
    (∀ id r, (s.find id).1 = .ok r ↔
      lastUnder id (heard tag s.log) = some (.added, id, r) ∧ (s.heap.get? r).isSome = true) ∧
    s.Reports tag :=
  ⟨hs.tells.find_iff, hs.tells.reports⟩

def reregistered : Session :=
  [ .subscribe { tag := "notes" }, .subscribe { tag := "reaper", reaction := .reap "SymbolTable" },
    .makeTable "table" (some ⟨1⟩) "table", .unsubscribe 1, .register "table"].foldl
      (fun s command => (s.run command).2) (initial {} Uuid.mk)

theorem reregistered_registry :
    let id := HashId.of "SymbolTable" ⟨1⟩
    heard "notes" reregistered.log = [(.added, id, 0), (.removed, id, 0), (.added, id, 0)] ∧
      (reregistered.find id).1 = .ok 0 ∧ reregistered.Reports "notes" := by
  intro id
  have hs : reregistered.Watched "notes" := by
    unfold reregistered
    simp only [List.foldl_cons, List.foldl_nil]
    refine .run _ (.run _ (.run _ (.run _ (.start {} Uuid.mk) ?_) trivial) Nat.one_ne_zero) trivial
    exact ⟨by decide, nofun⟩
  have hstate :
      heard "notes" reregistered.log = [(.added, id, 0), (.removed, id, 0), (.added, id, 0)] ∧
      lastUnder id (heard "notes" reregistered.log) = some (.added, id, 0) ∧
      (reregistered.heap.get? 0).isSome = true := by
    decide +kernel
  obtain ⟨hiff, hreports⟩ := watched_registry_iff "notes" reregistered hs
  exact ⟨hstate.1, (hiff id 0).mpr hstate.2, hreports⟩

end Session

end BinaryAtlas
