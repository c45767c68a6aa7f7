import BinaryAtlas.Proofs.Nesting.Adoption
import BinaryAtlas.Proofs.Session.Nesting

namespace BinaryAtlas.Session

open Nesting (Adoptable Around refill reroute)

variable {s s' s₁ : Session} {r t q : Ref} {c : ObjectClass} {id : HashId} {record : Json}
  {cs : List Ref}

theorem isSome_table?_of_fetch (h : (s.fetch id .symbolTable).1 = .ok r) :
    (s.heap.table? r).isSome = true := by
  have hclass : s.heap.class? r = some .symbolTable := (Registry.getAs_eq_ok_iff.mp h).2
  obtain ⟨o, ho, hc⟩ := Option.map_eq_some_iff.mp hclass
  cases hb : o.body with
  | table t => simp [Heap.table?, ho, hb, Body.table?]
  | _ => simp [Object.classOf, hb, Body.classOf] at hc

theorem isSome_table?_of_namedChildren (h : s.namedChildren? record = some cs) :
    ∀ c ∈ cs, (s.heap.table? c).isSome = true := by
  intro c hc
  obtain ⟨items, _, hitems⟩ := Option.bind_eq_some_iff.mp h
  obtain ⟨j, _, hj⟩ := exists_of_mem_mapM hitems hc
  obtain ⟨id, _, hid⟩ := named?_eq_some_iff.mp hj
  exact isSome_table?_of_fetch hid

def rehomed (s : Session) (r q : Ref) (cs : List Ref) (record : Json) : Session :=
  readMeta { s with heap := cs.foldl (Heap.adopt q) s.heap } r record

theorem table?_readMeta (s : Session) (r : Ref) (record : Json) (x : Ref) :
    (s.readMeta r record).heap.table? x = s.heap.table? x := by
  rw [readMeta, Heap.table?, Heap.get?_modify]
  split
  · rw [Heap.table?]
    cases s.heap.get? x <;> rfl
  · rfl

theorem isSome_table?_rehomed (s : Session) (r q : Ref) (cs : List Ref) (record : Json) (x : Ref) :
    ((s.rehomed r q cs record).heap.table? x).isSome = (s.heap.table? x).isSome := by
  rw [rehomed, table?_readMeta]
  exact Heap.isSome_table?_adopted q s.heap cs x

theorem restoreTable_cases (s : Session) (r : Ref) (id : HashId) (record : Json) :
    (∃ e s₁, s.restoreTable r id record = (.error e, s₁) ∧ s.Reads s₁ ∧
      (items? s.entry? record "symbols" = none ∨ s.namedChildren? record = none ∨
        ∃ e, (s.fetch id .symbolTable).1 = .error e)) ∨
    ∃ symbols cs q s₁ s', s.restoreTable r id record = (.ok (), s') ∧ s.Reads s₁ ∧
      items? s.entry? record "symbols" = some symbols ∧ s.namedChildren? record = some cs ∧
      (s.fetch id .symbolTable).1 = .ok q ∧
      ∀ t, (s₁.rehomed r q cs record).heap.table? r = some t →
        s' = (s₁.rehomed r q cs record).updateBody r
          (.table { t with symbols := .ofList symbols, children := cs }) := by
  unfold restoreTable
  split
  · rename_i e hsymbols
    exact .inl ⟨e, s, rfl, .refl s, .inl (by rw [items?, arrayField_eq_error hsymbols]; rfl)⟩
  rename_i entries hentries
  have hread := readEach_reads readEntry_reads s entries
  have hlist := toOption_readEntries s entries
  have hitems : items? s.entry? record "symbols" = entries.mapM s.entry? := by
    rw [items?, arrayField_eq_ok_iff.mp hentries, Option.bind_some]
  rw [← hlist] at hitems
  split
  · rename_i e s₁ hfail
    rw [hfail] at hread hitems
    exact .inl ⟨e, s₁, rfl, hread, .inl hitems⟩
  rename_i symbols s₁ hsymbols
  rw [hsymbols] at hread hitems
  split
  · rename_i e hchildren
    refine .inl ⟨e, s₁, rfl, hread, .inr (.inl ?_)⟩
    rw [namedChildren?, arrayField_eq_error hchildren]
    rfl
  rename_i items hchildren
  have hread' := hread.trans (readEach_reads (readId_reads .symbolTable .childTableId) s₁ items)
  have hnamed : s.namedChildren? record =
      (readEach (readId .symbolTable .childTableId) s₁ items).1.toOption := by
    rw [namedChildren?, arrayField_eq_ok_iff.mp hchildren, Option.bind_some, toOption_readIds,
      hread.named?]
  split
  · rename_i e s₂ hfail
    rw [hfail] at hread' hnamed
    exact .inl ⟨e, s₂, rfl, hread', .inr (.inl hnamed)⟩
  rename_i cs s₂ hcs
  rw [hcs] at hread' hnamed
  have hown := hread'.trans (fetch_reads s₂ id .symbolTable)
  have hfetch := hread'.fetch id .symbolTable
  split
  · rename_i e s₃ hfail
    rw [hfail] at hown hfetch
    exact .inl ⟨_, s₃, rfl, hown, .inr (.inr ⟨e, hfetch.symm⟩)⟩
  rename_i q s₃ hq
  rw [hq] at hown hfetch
  dsimp only
  split
  · rename_i hnone
    refine .inr ⟨symbols, cs, q, s₃, _, rfl, hown, hitems, hnamed, hfetch.symm, fun t ht => ?_⟩
    cases hnone.symm.trans ht
  · rename_i u hu
    refine .inr ⟨symbols, cs, q, s₃, _, rfl, hown, hitems, hnamed, hfetch.symm, fun t ht => ?_⟩
    cases hu.symm.trans ht
    rfl

theorem restoreTable_eq_ok (h : s.restoreTable r id record = (.ok (), s')) :
    ∃ symbols cs q s₁, items? s.entry? record "symbols" = some symbols ∧
      s.namedChildren? record = some cs ∧ (s.fetch id .symbolTable).1 = .ok q ∧ s.Reads s₁ ∧
      ∀ t, (s₁.rehomed r q cs record).heap.table? r = some t →
        s' = (s₁.rehomed r q cs record).updateBody r
          (.table { t with symbols := .ofList symbols, children := cs }) := by
  rcases restoreTable_cases s r id record with
    ⟨e, s₁, herror, _⟩ | ⟨symbols, cs, q, s₁, s₂, hok, hreads, hsymbols, hcs, hq, hs₂⟩
  · cases h.symm.trans herror
  · cases h.symm.trans hok
    exact ⟨symbols, cs, q, s₁, hsymbols, hcs, hq, hreads, hs₂⟩

theorem adopted_of_restoreTable (hl : s.heap.Linked) (hr : (s.heap.table? r).isSome = true)
    (h : s.restoreTable r id record = (.ok (), s')) :
    ∃ cs q, s.namedChildren? record = some cs ∧ (s.fetch id .symbolTable).1 = .ok q ∧
      s.heap.Adopted s'.heap r q cs ∧ s'.handles = s.handles := by
  obtain ⟨symbols, cs, q, s₁, -, hcs, hq, hreads, hupdate⟩ := restoreTable_eq_ok h
  have hqtable := isSome_table?_of_fetch hq
  have hcstable := isSome_table?_of_namedChildren hcs
  rw [← hreads.heap] at hl hr hqtable hcstable
  have hmeta : (cs.foldl (Heap.adopt q) s₁.heap).Keeps (fun o => o.body.nesting?) Unnested
      (s₁.rehomed r q cs record).heap :=
    readMeta_quiet { s₁ with heap := cs.foldl (Heap.adopt q) s₁.heap } r record
  have htable := (isSome_table?_rehomed s₁ r q cs record r).trans hr
  obtain ⟨t, ht⟩ := Option.isSome_iff_exists.mp htable
  rw [hupdate t ht]
  refine ⟨cs, q, hcs, hq, ?_, (notify_handles _ .changed r).trans hreads.handles⟩
  rw [← hreads.heap]
  exact (Heap.adopted_setEntries hl hqtable hcstable hmeta ht (.ofList symbols)).of_keeps
    (notify_quiet ((s₁.rehomed r q cs record).setBody r _) .changed r)

theorem forest_of_nests (hl : s.heap.Linked) (h : s.Nests) : s.heap.Forest := by
  refine ⟨hl, ?_⟩
  rw [← parent?_eq hl]
  constructor
  case mem_children_iff =>
    intro p c
    constructor
    · intro hc
      have hp : (s.heap.table? p).isSome = true := by
        cases hp : s.heap.table? p with
        | none => simp [Nesting.children, hp] at hc
        | some t => rfl
      exact (h.mem_children_iff p c hp (h.isSome_of_mem p c hc)).mp hc
    · intro hc
      obtain ⟨hclive, hplive⟩ := Nesting.isSome_of_parent? (parent?_eq hl ▸ hc)
      exact (h.mem_children_iff p c hplive hclive).mpr hc
  case nodup => exact h.nodup
  case grounded =>
    intro r
    cases hr : s.heap.table? r with
    | none => exact .root (by rw [parent?, hr]; rfl)
    | some t =>
      obtain ⟨root, _, haround, htop⟩ := h.exists_root r (by rw [hr]; rfl)
      exact .of_around haround htop

theorem nests_iff_forest (hl : s.heap.Linked) : s.Nests ↔ s.heap.Forest :=
  ⟨forest_of_nests hl, nests_of_forest⟩

/-- What makes the tables nest after `t` was restored to the children `cs`: these are adoptable,
given the objects that outlive the restoration, and the table `q` they name is `t`. -/
def Restorable (s s' : Session) (t q : Ref) (cs : List Ref) : Prop :=
  Adoptable s.parent? s.children (fun x => (s'.heap.get? x).isSome = true) t cs ∧
    (cs = [] ∨ q = t)

theorem children_settle (ha : s.heap.Adopted s₁.heap t q cs) (x : Ref) :
    s₁.settle.children x =
      if (s₁.settle.heap.get? x).isSome = true then refill s.children t cs x else [] := by
  have hchildren : refill s.children t cs = Nesting.children s₁.heap.table? := ha.children_eq.symm
  rw [hchildren]
  exact s₁.heap.children_release _ x

theorem nests_settle_iff (hf : s.heap.Forest) (ha : s.heap.Adopted s₁.heap t q cs)
    (hcs : ∀ c ∈ cs, (s.heap.table? c).isSome = true)
    (ht : (s₁.settle.heap.get? t).isSome = true) :
    s₁.settle.Nests ↔ s.Restorable s₁.settle t q cs := by
  have howned : ∀ p c, (s₁.settle.heap.get? p).isSome = true →
      c ∈ refill (Nesting.children s.heap.table?) t cs p →
        (s₁.settle.heap.get? c).isSome = true := by
    intro p c hp hc
    have hlive : (s.heap.table? c).isSome = true := by
      rw [refill] at hc
      split at hc
      · exact hcs c hc
      · exact (Nesting.isSome_of_parent? ((hf.nested.mem_children_iff p c).mp hc)).1
    rw [← ha.children_eq] at hc
    exact Heap.isSome_release_of_child hp hc (ha.live c hlive)
  have hg : ∀ x y, Nesting.parent? s₁.settle.heap.table? x = some y ↔
      reroute (Nesting.parent? s.heap.table?) q cs x = some y ∧
        (s₁.settle.heap.get? x).isSome = true ∧ (s₁.settle.heap.get? y).isSome = true := by
    intro x y
    rw [← ha.parent?_eq]
    exact Heap.parent?_release x y
  have hchildren := funext (children_settle ha)
  have hl := ha.linked.release (s₁.handles.map (·.2))
  rw [nests_iff_forest hl, Restorable, parent?_eq hf.linked]
  constructor
  · intro hforest
    have hnested := hforest.nested
    change Nesting.Nested _ s₁.settle.children at hnested
    rw [hchildren] at hnested
    exact hf.nested.adoptable ht howned hg hnested
  · rintro ⟨hadoptable, hown⟩
    refine ⟨hl, ?_⟩
    change Nesting.Nested _ s₁.settle.children
    rw [hchildren]
    exact hf.nested.of_adoptable ht howned hg hadoptable hown

theorem restoreTable_of_run {handle : String} (ht : s.handle? handle = some t)
    (htable : (s.heap.table? t).isSome = true)
    (hrun : s.run (.restore handle record) = (.ok .done, s')) :
    ∃ id s₁, s.heap.id? t = some id ∧ s.restoreTable t id record = (.ok (), s₁) ∧
      s' = s₁.settle := by
  obtain ⟨u, hu⟩ := Option.isSome_iff_exists.mp htable
  obtain ⟨o, ho, hb⟩ := Option.bind_eq_some_iff.mp hu
  rw [Body.table?_eq_some_iff] at hb
  have hid : s.heap.id? t = some o.id := by rw [Heap.id?, ho]; rfl
  simp only [run, perform, withHandle, ht, restore, ho, hb] at hrun
  cases hrestore : s.restoreTable t o.id record with
  | mk result s₁ =>
    rw [hrestore] at hrun
    cases result with
    | error e => cases hrun
    | ok done =>
      cases hrun
      exact ⟨o.id, s₁, hid, hrestore, rfl⟩

theorem mem_roots_of_handle? {handle : String} (ht : s.handle? handle = some t) :
    t ∈ s.handles.map (·.2) := by
  obtain ⟨before, after, hlist, _⟩ := List.lookup_eq_some_iff.mp ht
  simp [hlist]

theorem restore_nests_iff (s s' : Session) (hf : s.heap.Forest) (handle : String) (t : Ref)
    (record : Json) (ht : s.handle? handle = some t) (htable : (s.heap.table? t).isSome = true)
    (hrun : s.run (.restore handle record) = (.ok .done, s')) :
    ∃ id cs q, s.heap.id? t = some id ∧ s.namedChildren? record = some cs ∧
      (s.fetch id .symbolTable).1 = .ok q ∧ s'.children t = cs ∧
      (s'.Nests ↔ s.Restorable s' t q cs) := by
  obtain ⟨id, s₁, hid, hrestore, rfl⟩ := restoreTable_of_run ht htable hrun
  obtain ⟨cs, q, hcs, hq, ha, hhandles⟩ := adopted_of_restoreTable hf.linked htable hrestore
  have hlive : (s₁.settle.heap.get? t).isSome = true := by
    have hroot : t ∈ s₁.handles.map (·.2) := hhandles ▸ mem_roots_of_handle? ht
    rw [settle, Heap.get?_release_of_root hroot]
    exact Heap.isSome_of_table? (ha.live t htable)
  refine ⟨id, cs, q, hid, hcs, hq, ?_, ?_⟩
  · rw [children_settle ha, if_pos hlive, refill, if_pos rfl]
  · exact nests_settle_iff hf ha (isSome_table?_of_namedChildren hcs) hlive

def nestedTables : Session :=
  (addChild
    { heap := [
        { uuid := ⟨1⟩, id := 11, name := "outer", body := .table {} },
        { uuid := ⟨2⟩, id := 12, name := "inner", body := .table {} },
        { uuid := ⟨3⟩, id := 13, name := "other", body := .table {} }].foldl
          (fun h o => (h.alloc o).2) .empty
      registry := { entries := .ofList [(11, 0), (12, 1), (13, 2)] }
      handles := [("outer", 0), ("inner", 1), ("other", 2)]
      supply := Uuid.mk } 0 1).2

theorem forest_nestedTables : nestedTables.heap.Forest := by
  refine (forest_addChild ?_ (by decide)).1
  simp only [List.foldl_cons, List.foldl_nil]
  repeat apply Heap.Forest.alloc _ unnested_table
  exact .empty

def childrenRecord (ids : List HashId) : Json :=
  .obj [("children", .arr (ids.map .natural)), ("symbols", .arr [])]

theorem nestedTables_extended :
    nestedTables.heap.Forest ∧ nestedTables.handle? "outer" = some 0 ∧
      (nestedTables.run (.restore "outer" (childrenRecord [12, 13]))).1 = .ok .done ∧
      (nestedTables.run (.restore "outer" (childrenRecord [12, 13]))).2.Nests := by
  have hok : (nestedTables.run (.restore "outer" (childrenRecord [12, 13]))).1 = .ok .done := by
    decide +kernel
  obtain ⟨id, cs, q, hid, hcs, hq, -, hnests⟩ := restore_nests_iff nestedTables _ forest_nestedTables
    "outer" 0 (childrenRecord [12, 13]) (by decide) (by decide) (Prod.ext hok rfl)
  have hcs' : nestedTables.namedChildren? (childrenRecord [12, 13]) = some [1, 2] := by decide
  have hid' : nestedTables.heap.id? 0 = some 11 := by decide
  have hq' : (nestedTables.fetch 11 .symbolTable).1 = .ok 0 := by decide
  cases hcs.symm.trans hcs'
  cases hid.symm.trans hid'
  cases hq.symm.trans hq'
  have hchildren : nestedTables.children 0 = [1] := by decide
  have hparents : nestedTables.parent? 0 = none ∧ nestedTables.parent? 1 = some 0 ∧
      nestedTables.parent? 2 = none := by decide
  refine ⟨forest_nestedTables, by decide, hok, hnests.mpr ⟨?_, .inr rfl⟩⟩
  constructor
  case nodup => decide
  case inward =>
    intro c hc
    rw [Nesting.around_none hparents.1]
    rintro rfl
    revert hc
    decide
  case free =>
    intro c hc p hp
    rcases List.mem_pair.mp hc with rfl | rfl
    · exact .inl (Option.some.inj (hp.symm.trans hparents.2.1))
    · cases hp.symm.trans hparents.2.2
  case complete =>
    intro d hd
    rw [hchildren] at hd
    exact .inl (List.mem_cons.mpr (.inl (List.mem_singleton.mp hd)))

theorem nestedTables_broken :
    let emptied := (nestedTables.run (.restore "outer" (childrenRecord []))).2
    let knotted := (nestedTables.run (.restore "outer" (childrenRecord [12, 11]))).2
    nestedTables.heap.Forest ∧
      (nestedTables.run (.restore "outer" (childrenRecord []))).1 = .ok .done ∧
      (emptied.children 0 = [] ∧ emptied.parent? 1 = some 0 ∧
        (emptied.addChild 2 1).1 = false ∧ ¬ emptied.Nests) ∧
      (nestedTables.run (.restore "outer" (childrenRecord [12, 11]))).1 = .ok .done ∧
      (knotted.parent? 0 = some 0 ∧ ¬ knotted.Nests) := by
  intro emptied knotted
  have hchildren : emptied.children 0 = [] := by decide +kernel
  have hparent : emptied.parent? 1 = some 0 := by decide +kernel
  have hself : knotted.parent? 0 = some 0 := by decide +kernel
  refine ⟨forest_nestedTables, by decide +kernel, ⟨hchildren, hparent, by decide +kernel, ?_⟩,
    by decide +kernel, hself, ?_⟩
  · intro hn
    have hmem := (hn.mem_children_iff 0 1 (by decide +kernel) (by decide +kernel)).mpr hparent
    rw [hchildren] at hmem
    cases hmem
  · intro hn
    have hstays : ∀ x, Around knotted.parent? 0 x → x = 0 := by
      intro x hx
      induction hx with
      | refl => rfl
      | tail _ hstep ih =>
        rw [ih, hself] at hstep
        exact (Option.some.inj hstep).symm
    obtain ⟨root, _, haround, htop⟩ := hn.exists_root 0 (by decide +kernel)
    rw [hstays root haround, hself] at htop
    cases htop

end BinaryAtlas.Session
