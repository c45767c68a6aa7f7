import BinaryAtlas.Proofs.Session.Announcement
import BinaryAtlas.Proofs.Session.Layout
import BinaryAtlas.Proofs.Session.Registration

/-!
Making an image. The image and its table are registered and announced before the analysis that may
fail; if it fails both are taken out again, which is announced too, and die. So a failure leaves
everything that can be asked for as it was.
-/

namespace BinaryAtlas.Session

variable {s s' s₁ : Session} {r : Ref} {o : Object} {kind : EventKind} {id : HashId}

def Passive (s : Session) : Prop :=
  ∀ p ∈ s.chain.active, p.2.reaction = .record ∨ p.2.reaction = .silent

def notes (s : Session) (kind : EventKind) (r : Ref) (o : Object) : List Note :=
  s.chain.active.flatMap (noted kind r o)

theorem foldl_passive (ho : s.heap.get? r = some o) {l : List (Nat × Observer)}
    (hl : ∀ p ∈ l, p.2.reaction = .record ∨ p.2.reaction = .silent) :
    l.foldl (reactQuietly kind r) s = { s with log := s.log ++ l.flatMap (noted kind r o) } := by
  induction l generalizing s with
  | nil => simp
  | cons p rest ih =>
    have hp : reactQuietly kind r s p = { s with log := s.log ++ noted kind r o p } := by
      rcases hl p List.mem_cons_self with hrecord | hsilent
      · simp only [reactQuietly, hrecord, observe, ho, noted, reduceCtorEq, if_false, write]
      · simp [reactQuietly, hsilent, noted]
    have hrest := ih (s := { s with log := s.log ++ noted kind r o p }) ho
      fun q hq => hl q (List.mem_cons_of_mem p hq)
    rw [List.foldl_cons, hp, hrest, List.flatMap_cons, List.append_assoc]

theorem notifyQuietly_passive (hp : s.Passive) (ho : s.heap.get? r = some o) :
    s.notifyQuietly kind r = { s with log := s.log ++ s.notes kind r o } :=
  foldl_passive ho hp

theorem notify_passive (hp : s.Passive) (ho : s.heap.get? r = some o) :
    s.notify kind r = { s with log := s.log ++ s.notes kind r o } := by
  refine Eq.trans ?_ (notifyQuietly_passive hp ho)
  refine List.foldl_ext _ _ s fun s p hmem => ?_
  unfold react
  split
  · rename_i hreap _
    rcases hp p hmem with h | h <;> cases hreap.symm.trans h
  · rfl

structure Adds (s s' : Session) (r : Ref) (o : Object) : Prop where
  fresh : s.heap.next = r
  next : s'.heap.next = r + 1
  get? : ∀ q, s'.heap.get? q = if q = r then some o else s.heap.get? q
  answers : ∀ j, s'.registry.get? s'.live j = if j = o.id then some r else s.registry.get? s.live j
  filing : s'.Filing
  supply : s'.supply = s.supply
  chain : s'.chain = s.chain
  handles : s'.handles = s.handles
  log : s'.log = s.log ++ s.notes .added r o

theorem enter_adds (hp : s.Passive) (hf : s.Filing) (hfree : s.registry.get? s.live o.id = none) :
    (s.enter o).1 = s.heap.next ∧ (s.enter o).2.issued = s.issued ∧
      s.Adds (s.enter o).2 s.heap.next o := by
  rcases enter_cases s o with ⟨q, hq, _⟩ | ⟨_, henter⟩
  · obtain ⟨hget, _⟩ := Registry.getAs_eq_ok_iff.mp hq
    rw [← Registry.get?_eq_index] at hget
    cases hfree.symm.trans hget
  · let entered : Session := { s with
      registry := s.registry.place s.live o.id s.heap.next, heap := (s.heap.alloc o).2 }
    have ho : entered.heap.get? s.heap.next = some o := by rw [Heap.get?_alloc, if_pos rfl]
    have hpassive : entered.Passive := hp
    rw [henter, notify_passive hpassive ho]
    exact ⟨rfl, rfl, rfl, rfl, Heap.get?_alloc s.heap o, hf.get?_alloc o, hf.alloc o, rfl,
      rfl, rfl, rfl⟩

theorem create_adds (hp : s.Passive) (hf : s.Filing) (name : String) (b : Body)
    (hfree : s.registry.get? s.live (HashId.of b.classOf.name (s.supply s.issued)) = none) :
    (s.create none name b).1 = s.heap.next ∧ (s.create none name b).2.issued = s.issued + 1 ∧
      s.Adds (s.create none name b).2 s.heap.next (.create (s.supply s.issued) name b) := by
  obtain ⟨hr, hissued, hadds⟩ := enter_adds (s := { s with issued := s.issued + 1 })
    (o := .create (s.supply s.issued) name b) hp hf hfree
  exact ⟨hr, hissued, hadds.fresh, hadds.next, hadds.get?, hadds.answers, hadds.filing,
    hadds.supply, hadds.chain, hadds.handles, hadds.log⟩

structure Removes (s s' : Session) (r : Ref) (o : Object) : Prop where
  heap : s'.heap = s.heap
  answers : ∀ j, s'.registry.get? s'.live j = if j = o.id then none else s.registry.get? s.live j
  chain : s'.chain = s.chain
  handles : s'.handles = s.handles
  log : s'.log = s.log ++ s.notes .removed r o

theorem unregisterObject_removes (hp : s.Passive) (ho : s.heap.get? r = some o)
    (hr : s.registry.get? s.live o.id = some r) : s.Removes (s.unregisterObject r) r o := by
  have hid : s.heap.id? r = some o.id := by rw [Heap.id?, ho]; rfl
  let removed : Session := { s with registry := (s.registry.remove s.live o.id).2 }
  have hpassive : removed.Passive := hp
  have ho' : removed.heap.get? r = some o := ho
  simp only [unregisterObject, hid, unregister_present hr]
  rw [notifyQuietly_passive hpassive ho']
  exact ⟨rfl, get?_removed s o.id, rfl, rfl, rfl⟩

structure Made (s s' : Session) (table image : Object) : Prop where
  get? : ∀ q, s'.heap.get? q = if q = s.heap.next + 1 then some image
    else if q = s.heap.next then some table else s.heap.get? q
  answers : ∀ j, s'.registry.get? s'.live j = if j = image.id then some (s.heap.next + 1)
    else if j = table.id then some s.heap.next else s.registry.get? s.live j
  chain : s'.chain = s.chain
  handles : s'.handles = s.handles
  log : s'.log = s.log ++ s.notes .added s.heap.next table ++ s.notes .added (s.heap.next + 1) image

theorem notes_of_chain (h : s'.chain = s.chain) : s'.notes = s.notes := by
  funext kind r o
  rw [notes, h, notes]

theorem Passive.of_chain (hp : s.Passive) (h : s'.chain = s.chain) : s'.Passive := by
  rw [Passive, h]
  exact hp

theorem Adds.made {table image : Object} (h : s.Adds s₁ s.heap.next table)
    (h₁ : s₁.Adds s' (s.heap.next + 1) image) : s.Made s' table image where
  get? q := by rw [h₁.get?, h.get?]
  answers j := by rw [h₁.answers, h.answers]
  chain := h₁.chain.trans h.chain
  handles := h₁.handles.trans h.handles
  log := by rw [h₁.log, h.log, notes_of_chain h.chain]

theorem get?_settle_made {table image : Object} {fit : ObjectClass → ObjectClass → Prop}
    (hs : s.Settled) (hi : s.Intact fit)
    (hget : ∀ q, s'.heap.get? q = if q = s.heap.next + 1 then some image
      else if q = s.heap.next then some table else s.heap.get? q)
    (htable : table.body.owned = []) (himage : image.body.owned = [s.heap.next])
    (hhandles : s'.handles = s.handles) (q : Ref) : s'.settle.heap.get? q = s.heap.get? q := by
  have hlt : ∀ q, (s.heap.get? q).isSome = true → q < s.heap.next := by
    intro q hq
    obtain ⟨o, ho⟩ := Option.isSome_iff_exists.mp hq
    exact Heap.lt_next ho
  have hold : ∀ q < s.heap.next, s'.heap.get? q = s.heap.get? q := by
    intro q hq
    rw [hget, if_neg (Nat.ne_of_lt (Nat.lt_succ_of_lt hq)), if_neg (Nat.ne_of_lt hq)]
  have hheld : ∀ q o, s'.settle.heap.get? q = some o → q < s.heap.next ∨
      q = s.heap.next ∧ ∃ o', s'.settle.heap.get? (s.heap.next + 1) = some o' := by
    intro q o ho
    rcases Heap.held_of_release ho with hroot | ⟨p, o', ho', hmem⟩
    · rw [hhandles] at hroot
      exact .inl (hlt q (hi.isSome_of_handle hroot))
    · have hp := Heap.get?_of_release ho'
      rw [hget] at hp
      split at hp
      · rename_i heq
        subst heq
        cases hp
        rw [himage] at hmem
        exact .inr ⟨List.mem_singleton.mp hmem, image, ho'⟩
      · split at hp
        · cases hp
          rw [htable] at hmem
          cases hmem
        · exact .inl (hlt q (hi.isSome_of_owns ⟨o', hp, hmem⟩))
  refine hs.get?_settle hold hhandles (fun q o ho => ?_) q
  rcases hheld q o ho with hq | ⟨_, o', ho'⟩
  · exact hq
  · rcases hheld _ o' ho' with h | ⟨h, _⟩
    · exact absurd h Nat.not_succ_lt_self
    · exact absurd h (Nat.succ_ne_self _)

structure Unaltered (s s' : Session) : Prop where
  get? : ∀ q, s'.heap.get? q = s.heap.get? q
  find : ∀ id, (s'.find id).1 = (s.find id).1
  fetch : ∀ id c, (s'.fetch id c).1 = (s.fetch id c).1
  count : (s'.registry.objects s'.live).length = (s.registry.objects s.live).length
  permanent : s'.permanent = s.permanent
  records : s'.records = s.records

theorem unaltered_of_answers (hget : ∀ q, s'.heap.get? q = s.heap.get? q)
    (hanswers : ∀ j, s'.registry.get? s'.live j = s.registry.get? s.live j) : s.Unaltered s' := by
  have hlive : s'.live = s.live := by
    funext q
    simp only [live, Heap.class?, hget]
  have hid : s'.idJson = s.idJson := by
    funext q
    simp only [idJson, Heap.id?, hget]
  have hfields : s'.bodyFields = s.bodyFields := by
    funext b
    cases b <;> simp only [bodyFields, hid]
  have hrecord : s'.record = s.record := by
    funext q
    have hof : s'.recordOf = s.recordOf := by
      funext o
      simp only [recordOf, hfields]
    rw [record, record, hget, hof]
  have hobjects : s'.registry.objects s'.live = s.registry.objects s.live := by
    rw [Registry.objects_eq_index, Registry.objects_eq_index, hlive]
    rw [hlive] at hanswers
    rw [Registry.index_eq_of_get? hanswers]
  have hpermanent : s'.permanent = s.permanent := by
    simp only [permanent, hobjects, hget]
  constructor
  case get? => exact hget
  case find =>
    intro id
    simp only [find, hanswers]
  case fetch =>
    intro id c
    simp only [fetch, Registry.getAs, hanswers]
    rw [hlive]
  case count => rw [hobjects]
  case permanent => exact hpermanent
  case records => rw [records, hrecord, hpermanent, records]

theorem unaltered_settle (hget : ∀ q, s'.settle.heap.get? q = s.heap.get? q)
    (hanswers : ∀ j, s'.registry.get? s'.live j = s.registry.get? s.live j) :
    s.Unaltered s'.settle := by
  refine unaltered_of_answers hget fun j => Option.ext fun q => ?_
  rw [get?_settle_eq_some_iff, hanswers, hget]
  constructor
  · exact And.left
  · intro hq
    exact ⟨hq, (get?_eq_some_iff.mp hq).2⟩

def globalTable (s : Session) (name : String) : Object :=
  .create (s.supply s.issued) (name ++ ".global") (.table {})

def newImage (s : Session) (name : String) (i : Image) : Object :=
  .create (s.supply (s.issued + 1)) name (.image i)

/-- The next two identifiers made up give hash ids under which nothing is registered. -/
structure FreshIds (s : Session) : Prop where
  table : s.registry.get? s.live (HashId.of "SymbolTable" (s.supply s.issued)) = none
  image : s.registry.get? s.live (HashId.of "Image" (s.supply (s.issued + 1))) = none
  distinct : HashId.of "Image" (s.supply (s.issued + 1)) ≠
    HashId.of "SymbolTable" (s.supply s.issued)

theorem openSource_cases (s : Session) (source : Source) :
    (∃ e, s.openSource source = .error (.store e)) ∨ ∃ store, s.openSource source = .ok store := by
  cases source with
  | memory store => exact .inr ⟨_, rfl⟩
  | file path =>
    simp only [openSource]
    split
    · exact .inr ⟨_, rfl⟩
    · exact .inl ⟨_, rfl⟩

theorem create_both (hp : s.Passive) (hf : s.Filing) (hfresh : s.FreshIds) (name : String)
    (i : Image) :
    let table := s.create none (name ++ ".global") (.table {})
    let image := table.2.create none name (.image i)
    table.1 = s.heap.next ∧ image.1 = s.heap.next + 1 ∧
      s.Made image.2 (s.globalTable name) (s.newImage name i) := by
  intro table image
  obtain ⟨htable, hissued, hadds⟩ :=
    create_adds hp hf (name ++ ".global") (.table {}) hfresh.table
  have hfree : table.2.registry.get? table.2.live
      (HashId.of "Image" (table.2.supply table.2.issued)) = none := by
    rw [hadds.answers, hissued, hadds.supply]
    exact (if_neg hfresh.distinct).trans hfresh.image
  obtain ⟨himage, _, hadds'⟩ :=
    create_adds (hp.of_chain hadds.chain) hadds.filing name (.image i) hfree
  rw [hadds.next] at himage
  rw [hadds.next, hissued, hadds.supply] at hadds'
  exact ⟨htable, himage, hadds.made hadds'⟩

theorem Made.image? {table : Object} {name : String} {i : Image}
    (h : s.Made s₁ table (s.newImage name i)) : s₁.heap.image? (s.heap.next + 1) = some i := by
  rw [Heap.image?, h.get?, if_pos rfl]
  rfl

theorem createImage_cases (hp : s.Passive) (hf : s.Filing) (hfresh : s.FreshIds)
    (name analyser : String) (source : Source) :
    (∃ e, s.createImage name analyser source = (.error e, s) ∧
      ∀ m, e ≠ .during "analyse" 0 (.malformed m)) ∨
    ∃ store a, s.openSource source = .ok store ∧ s.analysers.get? analyser = some a ∧
      ∃ i s₁, i = { store, analyser := a, globals := s.heap.next } ∧
        s.Made s₁ (s.globalTable name) (s.newImage name i) ∧
        (∀ j, i.analyse = .ok j → s.createImage name analyser source =
          (.ok (s.heap.next + 1), s₁.updateBody (s.heap.next + 1) (.image j))) ∧
        ∀ m, i.analyse = .error m → s.createImage name analyser source =
          (.error (.during "analyse" 0 (.malformed m)),
            (s₁.unregisterObject (s.heap.next + 1)).unregisterObject s.heap.next) := by
  obtain ⟨e, hopen⟩ | ⟨store, hopen⟩ := openSource_cases s source
  · exact .inl ⟨.store e, by rw [createImage, hopen], nofun⟩
  · cases ha : s.analysers.get? analyser with
    | none =>
      refine .inl ⟨.unknownAnalyser analyser, ?_, nofun⟩
      simp only [createImage, hopen, chooseAnalyser, ha]
    | some a =>
      obtain ⟨htable, himage, hmade⟩ := create_both hp hf hfresh name
        { store, analyser := a, globals := s.heap.next }
      refine .inr ⟨store, a, hopen, rfl, _, _, rfl, hmade, fun j hj => ?_, fun m hm => ?_⟩
      · simp only [createImage, hopen, chooseAnalyser, ha]
        rw [htable, himage, analyse_of_ok hmade.image? hj]
      · simp only [createImage, hopen, chooseAnalyser, ha]
        rw [htable, himage, analyse_of_error hmade.image? hm]

theorem Made.withdrawn {table image : Object} (h : s.Made s₁ table image) (hp : s.Passive)
    (htable : s.registry.get? s.live table.id = none)
    (himage : s.registry.get? s.live image.id = none) (hne : image.id ≠ table.id) :
    let s' := (s₁.unregisterObject (s.heap.next + 1)).unregisterObject s.heap.next
    s'.heap = s₁.heap ∧ s'.handles = s.handles ∧
      (∀ j, s'.registry.get? s'.live j = s.registry.get? s.live j) ∧
      s'.log = s₁.log ++ s.notes .removed (s.heap.next + 1) image ++
        s.notes .removed s.heap.next table := by
  intro s'
  have ho : s₁.heap.get? (s.heap.next + 1) = some image := by rw [h.get?, if_pos rfl]
  have hr : s₁.registry.get? s₁.live image.id = some (s.heap.next + 1) := by
    rw [h.answers, if_pos rfl]
  have hfirst := unregisterObject_removes (hp.of_chain h.chain) ho hr
  have ho' : (s₁.unregisterObject (s.heap.next + 1)).heap.get? s.heap.next = some table := by
    rw [hfirst.heap, h.get?, if_neg (Nat.ne_of_lt (Nat.lt_succ_self _)), if_pos rfl]
  have hr' : (s₁.unregisterObject (s.heap.next + 1)).registry.get?
      (s₁.unregisterObject (s.heap.next + 1)).live table.id = some s.heap.next := by
    rw [hfirst.answers, if_neg hne.symm, h.answers, if_neg hne.symm, if_pos rfl]
  have hsecond := unregisterObject_removes (hp.of_chain (hfirst.chain.trans h.chain)) ho' hr'
  refine ⟨hsecond.heap.trans hfirst.heap, (hsecond.handles.trans hfirst.handles).trans h.handles,
    fun j => ?_, ?_⟩
  · rw [hsecond.answers, hfirst.answers, h.answers]
    by_cases hjt : j = table.id
    · rw [if_pos hjt, hjt, htable]
    · by_cases hji : j = image.id
      · rw [if_neg hjt, if_pos hji, hji, himage]
      · rw [if_neg hjt, if_neg hji, if_neg hji, if_neg hjt]
  · rw [hsecond.log, hfirst.log, notes_of_chain (hfirst.chain.trans h.chain),
      notes_of_chain h.chain]

structure Gains (s s' : Session) (name : String) (r : Ref) (i : Image) : Prop where
  ref : r = s.heap.next + 1
  globals : i.globals = s.heap.next
  analysed : i.isAnalysed = true
  get? : ∀ q, s'.heap.get? q = if q = r then some (s.newImage name i)
    else if q = s.heap.next then some (s.globalTable name) else s.heap.get? q
  find : ∀ id, (s'.find id).1 = if id = (s.newImage name i).id then .ok r
    else if id = (s.globalTable name).id then .ok s.heap.next else (s.find id).1
  count : (s'.registry.objects s'.live).length = (s.registry.objects s.live).length + 2
  log : s'.log = s.log ++ s.notes .added s.heap.next (s.globalTable name) ++
    s.notes .added r (s.newImage name i) ++ s.notes .changed r (s.newImage name i)

theorem find_fst (s : Session) (id : HashId) :
    (s.find id).1 = (s.registry.get? s.live id).elim (.error (.notFound id)) .ok := by
  rw [find]
  cases s.registry.get? s.live id <;> rfl

theorem length_objects_of_answers {table image : HashId} {q r : Ref}
    (htable : s.registry.get? s.live table = none) (himage : s.registry.get? s.live image = none)
    (hne : image ≠ table)
    (h : ∀ id, s'.registry.get? s'.live id = if id = image then some r
      else if id = table then some q else s.registry.get? s.live id) :
    (s'.registry.objects s'.live).length = (s.registry.objects s.live).length + 2 := by
  have hindex : s'.registry.index s'.live =
      ((s.registry.index s.live).insert table q).insert image r := by
    apply KeyMap.ext_get?
    intro id
    rw [← Registry.get?_eq_index, h, KeyMap.get?_insert, KeyMap.get?_insert, Registry.get?_eq_index]
  have hlength : ∀ m : KeyMap Ref, m.values.length = m.size := fun m => List.length_map _
  rw [Registry.get?_eq_index] at htable himage
  rw [Registry.objects_eq_index, Registry.objects_eq_index, hindex, hlength, hlength,
    KeyMap.size_insert, KeyMap.size_insert htable]
  rw [KeyMap.get?_insert, if_neg hne, himage]

theorem Made.gains {name : String} {i j : Image}
    (h : s.Made s₁ (s.globalTable name) (s.newImage name i)) (hp : s.Passive) (hfresh : s.FreshIds)
    (hglobals : j.globals = s.heap.next) (hanalysed : j.isAnalysed = true) :
    s.Gains (s₁.updateBody (s.heap.next + 1) (.image j)) name (s.heap.next + 1) j := by
  let set := s₁.setBody (s.heap.next + 1) (.image j)
  have hget : ∀ q, set.heap.get? q = if q = s.heap.next + 1 then some (s.newImage name j)
      else if q = s.heap.next then some (s.globalTable name) else s.heap.get? q := by
    intro q
    refine (Heap.get?_modify s₁.heap _ _ q).trans ?_
    rw [h.get?]
    split <;> rfl
  have hanswers : ∀ id, set.registry.get? set.live id =
      if id = (s.newImage name j).id then some (s.heap.next + 1)
      else if id = (s.globalTable name).id then some s.heap.next
      else s.registry.get? s.live id := by
    intro id
    refine Eq.trans (Registry.get?_congr (fun q => ?_) s₁.registry id) (h.answers id)
    rw [isSome_live, isSome_live, hget, h.get?]
    split <;> rfl
  have hupdate : s₁.updateBody (s.heap.next + 1) (.image j) =
      { set with log := s₁.log ++ s.notes .changed (s.heap.next + 1) (s.newImage name j) } := by
    have hpassive : set.Passive := hp.of_chain h.chain
    have hnotes : set.notes = s.notes := notes_of_chain h.chain
    have ho : set.heap.get? (s.heap.next + 1) = some (s.newImage name j) := by
      rw [hget, if_pos rfl]
    rw [← hnotes]
    exact notify_passive hpassive ho
  rw [hupdate]
  constructor
  case ref => rfl
  case globals => exact hglobals
  case analysed => exact hanalysed
  case get? => exact hget
  case find =>
    intro id
    rw [find_fst, find_fst]
    change (set.registry.get? set.live id).elim _ _ = _
    rw [hanswers]
    split_ifs <;> rfl
  case count => exact length_objects_of_answers hfresh.table hfresh.image hfresh.distinct hanswers
  case log => exact congrArg (· ++ _) h.log

theorem createImage_all_or_nothing (s : Session) (hs : s.Reachable) (hp : s.Passive)
    (hfresh : s.FreshIds) (name analyser : String) (source : Source) :
    (∀ e s', s.createImage name analyser source = (.error e, s') → s.Unaltered s'.settle ∧
      ((s'.log = s.log ∧ ∀ m, e ≠ .during "analyse" 0 (.malformed m)) ∨
        (∃ m, e = .during "analyse" 0 (.malformed m)) ∧ ∃ i : Image,
          s'.log = s.log ++ s.notes .added s.heap.next (s.globalTable name) ++
            s.notes .added (s.heap.next + 1) (s.newImage name i) ++
            s.notes .removed (s.heap.next + 1) (s.newImage name i) ++
            s.notes .removed s.heap.next (s.globalTable name))) ∧
    ∀ r s', s.createImage name analyser source = (.ok r, s') →
      ∃ store a found, s.openSource source = .ok store ∧ s.analysers.get? analyser = some a ∧
        a.run store.bytes = .ok found ∧ s.Gains s' name r
          { store, analyser := a, globals := s.heap.next,
            layout := some (Layout.ofAnalysis found store.bytes) } := by
  rcases createImage_cases hp hs.filing hfresh name analyser source with
    ⟨e, hrun, hother⟩ | ⟨store, a, hstore, ha, i, s₁, rfl, hmade, hworks, hfails⟩
  · rw [hrun]
    refine ⟨fun e' s' h => ?_, nofun⟩
    cases h
    have hget : ∀ q, s.settle.heap.get? q = s.heap.get? q :=
      hs.settled.get?_settle (fun _ _ => rfl) rfl
        fun q o ho => Heap.lt_next (Heap.get?_of_release ho)
    exact ⟨unaltered_settle hget fun _ => rfl, .inl ⟨rfl, hother⟩⟩
  · cases hanalyse : Image.analyse { store, analyser := a, globals := s.heap.next } with
    | error m =>
      rw [hfails m hanalyse]
      refine ⟨fun e s' h => ?_, nofun⟩
      cases h
      obtain ⟨hheap, hhandles, hanswers, hlog⟩ :=
        hmade.withdrawn hp hfresh.table hfresh.image hfresh.distinct
      rw [hmade.log] at hlog
      have hget := hmade.get?
      rw [← hheap] at hget
      have hsettle := get?_settle_made hs.settled hs.intact hget rfl rfl hhandles
      exact ⟨unaltered_settle hsettle hanswers, .inr ⟨⟨m, rfl⟩, _, hlog⟩⟩
    | ok j =>
      rw [hworks j hanalyse]
      refine ⟨nofun, fun r s' h => ?_⟩
      cases h
      obtain ⟨found, hfound, _, rfl⟩ := (Image.analyse_eq_ok_iff _ j).mp hanalyse
      exact ⟨store, a, found, hstore, ha, hfound, hmade.gains hp hfresh rfl rfl⟩

def besideFile : Session :=
  [ .subscribe { tag := "notes" }, .outside { files := [("a.bin", [0x90, 0xc3])] },
    .makeType "int" (some ⟨101⟩) "int" (.scalar 4 true false),
    .makeTable "names" (some ⟨102⟩) "names",
    .createImage "first" "first" "Flat" (.memory { bytes := [1] })].foldl
      (fun s command => (s.run command).2) (initial {} Uuid.mk)

theorem besideFile_state :
    besideFile.log.length = 5 ∧ besideFile.chain.active = [(0, { tag := "notes" })] ∧
      besideFile.registry.get? besideFile.live (HashId.of "SymbolTable" ⟨2⟩) = none ∧
      besideFile.registry.get? besideFile.live (HashId.of "Image" ⟨3⟩) = none ∧
      HashId.of "Image" ⟨3⟩ ≠ HashId.of "SymbolTable" ⟨2⟩ ∧
      besideFile.supply besideFile.issued = ⟨2⟩ ∧ besideFile.supply (besideFile.issued + 1) = ⟨3⟩ ∧
      ((besideFile.createImage "second" "Flat" (.file "a.bin")).2.heap.image? 5).map
        (fun i => (i.store.bytes, i.sections.map (·.name), i.size)) =
          some ([0x90, 0xc3], ["flat"], 2) ∧
      (besideFile.createImage "missing" "Flat" (.file "b.bin")).1 = .error (.store .system) ∧
      (besideFile.createImage "empty" "Flat" (.memory {})).1 =
        .error (.during "analyse" 0 (.malformed (.truncated 1 0))) ∧
      (besideFile.createImage "second" "Flat" (.file "a.bin")).1 = .ok 5 := by
  decide +kernel

theorem besideFile_images :
    (∃ s', besideFile.createImage "missing" "Flat" (.file "b.bin") =
        (.error (.store .system), s') ∧
      besideFile.Unaltered s'.settle ∧ s'.log = besideFile.log) ∧
    (∃ s', besideFile.createImage "empty" "Flat" (.memory {}) =
        (.error (.during "analyse" 0 (.malformed (.truncated 1 0))), s') ∧
      besideFile.Unaltered s'.settle ∧ s'.log.length = 9) ∧
    ∃ s' i, besideFile.createImage "second" "Flat" (.file "a.bin") = (.ok 5, s') ∧
      besideFile.Gains s' "second" 5 i ∧ i.store.bytes = [0x90, 0xc3] ∧
        i.sections.map (·.name) = ["flat"] ∧ i.size = 2 := by
  obtain ⟨hlength, hchain, htable, himage, hdistinct, hsecond, hthird, hread, hmissing, hempty,
    hworks⟩ := besideFile_state
  have hs : besideFile.Reachable :=
    (Reachable.initial {} Uuid.mk).runs (by simp [Command.Fits, TypeKind.Fits, Word.limit])
  have hp : besideFile.Passive := by
    intro p hp
    rw [hchain, List.mem_singleton] at hp
    exact .inl (by rw [hp])
  have hfresh : besideFile.FreshIds :=
    ⟨hsecond ▸ htable, hthird ▸ himage, hsecond ▸ hthird ▸ hdistinct⟩
  have hall := createImage_all_or_nothing besideFile hs hp hfresh
  refine ⟨⟨_, Prod.ext hmissing rfl, ?_⟩, ⟨_, Prod.ext hempty rfl, ?_⟩, ?_⟩
  · obtain ⟨hsame, ⟨hlog, _⟩ | ⟨⟨m, hm⟩, _⟩⟩ :=
      (hall "missing" "Flat" (.file "b.bin")).1 _ _ (Prod.ext hmissing rfl)
    · exact ⟨hsame, hlog⟩
    · cases hm
  · obtain ⟨hsame, ⟨_, hother⟩ | ⟨_, i, hlog⟩⟩ :=
      (hall "empty" "Flat" (.memory {})).1 _ _ (Prod.ext hempty rfl)
    · exact absurd rfl (hother _)
    · refine ⟨hsame, ?_⟩
      simp [hlog, notes, hchain, noted, hlength]
  · obtain ⟨store, a, found, hopen, ha, hfound, hgains⟩ :=
      (hall "second" "Flat" (.file "a.bin")).2 5 _ (Prod.ext hworks rfl)
    rw [Heap.image?, hgains.get?, if_pos rfl] at hread
    have hread := Prod.mk.inj (Option.some.inj hread)
    exact ⟨_, _, Prod.ext hworks rfl, hgains, hread.1, Prod.mk.inj hread.2⟩

end BinaryAtlas.Session
