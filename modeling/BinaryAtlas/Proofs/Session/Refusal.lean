import BinaryAtlas.Proofs.Session.Restore

/-!
Records that are refused. A table, an image and a space look at all of a record before they take
any of it, so a refusal leaves everything as it was. A type and a symbol have taken name and comment
by the time they find that they cannot take the rest.
-/

namespace BinaryAtlas

def Body.announces : Body → Bool
  | .table _ => true
  | .image _ => true
  | _ => false

namespace Session

variable {s : Session} {r : Ref} {o : Object} {id : HashId} {record : Json}

def accepts (s : Session) (o : Object) (record : Json) : Bool :=
  match o.body with
  | .dataType _ => (record.get? "kind").all fun j => (TypeKind.ofJson? j).isSome
  | .symbol _ => (record.get? "data_type").all fun j => (s.named? .dataType j).isSome
  | .table _ =>
    (items? s.entry? record "symbols").isSome && (s.namedChildren? record).isSome &&
      (s.fetch o.id .symbolTable).1.toOption.isSome
  | .image _ => (record.get? "layout").all fun j => j.isNull || (Layout.ofJson? j).isSome
  | .space _ => (items? (s.named? .image) record "images").isSome

theorem readMeta_live (s : Session) (r : Ref) (record : Json) :
    (s.readMeta r record).live = s.live := by
  funext q
  simp only [live, readMeta, Heap.class?, Heap.get?_modify]
  split
  · rw [Option.map_map]
    rfl
  · rfl

theorem fetch_readMeta (s : Session) (r : Ref) (record : Json) (id : HashId) (c : ObjectClass) :
    (s.readMeta r record).fetch id c = ((s.fetch id c).1, (s.fetch id c).2.readMeta r record) := by
  rw [fetch, readMeta_live]
  rfl

theorem restoreType_cases (s : Session) (r : Ref) (record : Json) :
    (∃ e, s.restoreType r record = (.error e, s.readMeta r record) ∧
      (record.get? "kind").all (fun j => (TypeKind.ofJson? j).isSome) = false) ∨
    (∃ s', s.restoreType r record = (.ok (), s') ∧
      (record.get? "kind").all (fun j => (TypeKind.ofJson? j).isSome) = true) := by
  unfold restoreType
  cases record.get? "kind" with
  | none => exact .inr ⟨_, rfl, rfl⟩
  | some j =>
    dsimp only
    cases hk : TypeKind.ofJson? j with
    | none => exact .inl ⟨_, rfl, by simp [hk]⟩
    | some k => exact .inr ⟨_, rfl, by simp [hk]⟩

theorem restoreSymbol_cases (s : Session) (r : Ref) (y : Symbol) (record : Json) :
    (∃ e s₁, s.restoreSymbol r y record = (.error e, s₁.readMeta r record) ∧ s.Reads s₁ ∧
      (record.get? "data_type").all (fun j => (s.named? .dataType j).isSome) = false) ∨
    (∃ s', s.restoreSymbol r y record = (.ok (), s') ∧
      (record.get? "data_type").all (fun j => (s.named? .dataType j).isSome) = true) := by
  unfold restoreSymbol
  cases hget : record.get? "data_type" with
  | none => exact .inr ⟨_, rfl, rfl⟩
  | some j =>
    dsimp only
    split
    · rename_i e hfield
      have hword := integerField_eq_error hfield
      rw [hget, Option.bind_some] at hword
      exact .inl ⟨e, s, rfl, .refl s, by simp [named?, hword]⟩
    · rename_i id hfield
      have hword := integerField_eq_ok_iff.mp hfield
      rw [hget, Option.bind_some] at hword
      simp only [fetch_readMeta]
      cases hfetch : (s.fetch id .dataType).1 with
      | error e =>
        refine .inl ⟨_, _, rfl, fetch_reads s id .dataType, ?_⟩
        simp [named?, hword, hfetch, Except.toOption]
      | ok type =>
        refine .inr ⟨_, rfl, ?_⟩
        simp [named?, hword, hfetch, Except.toOption]

theorem restoreImage_cases (s : Session) (r : Ref) (i : Image) (record : Json) :
    (∃ e, s.restoreImage r i record = (.error e, s) ∧
      (record.get? "layout").all (fun j => j.isNull || (Layout.ofJson? j).isSome) = false) ∨
    (∃ s', s.restoreImage r i record = (.ok (), s') ∧
      (record.get? "layout").all (fun j => j.isNull || (Layout.ofJson? j).isSome) = true) := by
  unfold restoreImage
  cases record.get? "layout" with
  | none => exact .inr ⟨_, rfl, rfl⟩
  | some j =>
    cases hnull : j.isNull with
    | true =>
      exact .inr ⟨(s.readMeta r record).notify .changed r, by simp [Option.filter, hnull],
        by simp [hnull]⟩
    | false =>
      simp only [Option.filter, hnull, Bool.not_false, if_true]
      cases hl : Layout.ofJson? j with
      | none => exact .inl ⟨_, rfl, by simp [hl, hnull]⟩
      | some l => exact .inr ⟨_, rfl, by simp [hl]⟩

theorem restoreSpace_cases (s : Session) (r : Ref) (record : Json) :
    (∃ e s₁, s.restoreSpace r record = (.error e, s₁) ∧ s.Reads s₁ ∧
      items? (s.named? .image) record "images" = none) ∨
    (∃ images s₁, s.restoreSpace r record =
        (.ok (), (s₁.readMeta r record).setBody r (.space images)) ∧ s.Reads s₁ ∧
      items? (s.named? .image) record "images" = some images) := by
  unfold restoreSpace
  split
  · rename_i e hfield
    exact .inl ⟨e, s, rfl, .refl s, by rw [items?, arrayField_eq_error hfield]; rfl⟩
  · rename_i items hfield
    have hreads := readEach_reads (readId_reads .image .imageId) s items
    have hitems : items? (s.named? .image) record "images" =
        (readEach (readId .image .imageId) s items).1.toOption := by
      rw [items?, arrayField_eq_ok_iff.mp hfield, Option.bind_some, toOption_readIds]
    split
    · rename_i e s₁ hfail
      rw [hfail] at hreads hitems
      exact .inl ⟨e, s₁, rfl, hreads, hitems⟩
    · rename_i images s₁ hdone
      rw [hdone] at hreads hitems
      exact .inr ⟨images, s₁, rfl, hreads, hitems⟩

def takesMetaFirst (o : Object) : Bool :=
  match o.body with
  | .dataType _ => true
  | .symbol _ => true
  | _ => false

theorem restore_cases (ho : s.heap.get? r = some o) (record : Json) :
    (∃ e s₁, s.restore r record =
        (.error e, if takesMetaFirst o then s₁.readMeta r record else s₁) ∧ s.Reads s₁ ∧
      s.accepts o record = false) ∨
    (∃ s', s.restore r record = (.ok (), s') ∧ s.accepts o record = true) := by
  unfold restore accepts takesMetaFirst
  rw [ho]
  cases hb : o.body with
  | dataType k =>
    simp only [hb, if_true]
    rcases restoreType_cases s r record with ⟨e, h, hkind⟩ | h
    · exact .inl ⟨e, s, h, .refl s, hkind⟩
    · exact .inr h
  | symbol y =>
    simp only [hb, if_true]
    exact restoreSymbol_cases s r y record
  | table t =>
    simp only [hb, Bool.false_eq_true, if_false]
    rcases restoreTable_cases s r o.id record with
      ⟨e, s₁, h, hreads, hnamed⟩ | ⟨symbols, cs, q, s₁, s', h, _, hsymbols, hcs, hq, _⟩
    · refine .inl ⟨e, s₁, h, hreads, ?_⟩
      rcases hnamed with hsymbols | hcs | ⟨e, hown⟩
      · simp [hsymbols]
      · simp [hcs]
      · simp [hown, Except.toOption]
    · exact .inr ⟨s', h, by simp [hsymbols, hcs, hq, Except.toOption]⟩
  | image i =>
    simp only [hb, Bool.false_eq_true, if_false]
    rcases restoreImage_cases s r i record with ⟨e, h, hlayout⟩ | h
    · exact .inl ⟨e, s, h, .refl s, hlayout⟩
    · exact .inr h
  | space images =>
    simp only [hb, Bool.false_eq_true, if_false]
    rcases restoreSpace_cases s r record with ⟨e, s₁, h, hreads, himages⟩ | ⟨_, _, h, _, himages⟩
    · exact .inl ⟨e, s₁, h, hreads, by simp [himages]⟩
    · exact .inr ⟨_, h, by simp [himages]⟩

theorem exists_error_iff (ho : s.heap.get? r = some o) (record : Json) :
    (∃ e, (s.restore r record).1 = .error e) ↔ s.accepts o record = false := by
  rcases restore_cases ho record with ⟨e, s₁, h, _, hrefused⟩ | ⟨s', h, haccepted⟩
  · simp [h, hrefused]
  · simp [h, haccepted]

theorem Reads.permanent {s' : Session} (h : s.Reads s') : s'.permanent = s.permanent := by
  have hobjects : s'.registry.objects s.live = s.registry.objects s.live := by
    rw [Registry.objects_eq_index, Registry.objects_eq_index, Registry.index_eq_of_get? h.answers]
  rw [Session.permanent, h.live, hobjects, h.heap]
  rfl

theorem refused_unchanged (s : Session) (r : Ref) (o : Object) (ho : s.heap.get? r = some o)
    (hclass : o.classOf ∈ [.symbolTable, .image, .addressSpace]) (record : Json) :
    ((∃ e, (s.restore r record).1 = .error e) ↔ s.accepts o record = false) ∧
    ∀ e s', s.restore r record = (.error e, s') →
      s' = { s with registry := s'.registry } ∧ (∀ id, (s'.find id).1 = (s.find id).1) ∧
        (∀ id c, (s'.fetch id c).1 = (s.fetch id c).1) ∧ s'.permanent = s.permanent := by
  refine ⟨exists_error_iff ho record, fun e s' h => ?_⟩
  have hlater : takesMetaFirst o = false := by
    unfold takesMetaFirst
    unfold Object.classOf at hclass
    cases hb : o.body <;> simp [hb, Body.classOf] at hclass ⊢
  rcases restore_cases ho record with ⟨e₁, s₁, herror, hreads, _⟩ | ⟨s₁, hok, _⟩
  · cases h.symm.trans herror
    rw [hlater]
    exact ⟨hreads.rest, hreads.find, hreads.fetch, hreads.permanent⟩
  · cases h.symm.trans hok

def strayRecord : Json :=
  .obj [("name", .str "renamed"), ("symbols", .arr []), ("children", .arr [.natural 13, .natural 99])]

theorem nestedTables_refuses :
    ∃ s', nestedTables.restore 0 strayRecord = (.error (.lookup (.notFound 99)), s') ∧
      s'.heap = nestedTables.heap ∧ s'.log = nestedTables.log := by
  obtain ⟨s', hrun⟩ : ∃ s', nestedTables.restore 0 strayRecord =
      (.error (.lookup (.notFound 99)), s') := ⟨_, Prod.ext (by decide) rfl⟩
  obtain ⟨o, ho, hclass⟩ : ∃ o, nestedTables.heap.get? 0 = some o ∧ o.classOf = .symbolTable :=
    ⟨_, rfl, rfl⟩
  have hmem : o.classOf ∈ [ObjectClass.symbolTable, .image, .addressSpace] := by simp [hclass]
  obtain ⟨hrest, _⟩ := (refused_unchanged nestedTables 0 o ho hmem strayRecord).2 _ s' hrun
  exact ⟨s', hrun, by rw [hrest], by rw [hrest]⟩

theorem readMeta_eq_self_iff (o : Object) (record : Json) :
    o.readMeta record = o ↔
      (∀ name, (record.get? "name").bind Json.str? = some name → name = o.name) ∧
      ∀ comment, (record.get? "comment").bind Json.str? = some comment → comment = o.comment := by
  obtain ⟨uuid, id, name, comment, temporary, body⟩ := o
  simp only [Object.readMeta, Object.mk.injEq, true_and, and_true]
  cases (record.get? "name").bind Json.str? <;>
    cases (record.get? "comment").bind Json.str? <;> simp

theorem readMeta_unchanged (ho : s.heap.get? r = some o) (hmeta : o.readMeta record = o) :
    s.readMeta r record = s := by
  rw [readMeta, Heap.modify_eq_self ho hmeta]

theorem heap_readMeta_eq_iff (ho : s.heap.get? r = some o) (record : Json) :
    (s.readMeta r record).heap = s.heap ↔ o.readMeta record = o := by
  constructor
  · intro h
    have hr := get?_readMeta ho record r
    rw [h, ho, if_pos rfl, Option.some.injEq] at hr
    exact hr.symm
  · intro h
    rw [readMeta_unchanged ho h]

/-- A refused record leaves a type or a symbol its kind and its type, but gives it the name and the
comment that it holds. So all is as before exactly if it holds no others. -/
theorem refused_takes_meta (s : Session) (r : Ref) (o : Object) (ho : s.heap.get? r = some o)
    (hclass : o.classOf ∈ [.dataType, .symbol]) (record : Json) :
    ((∃ e, (s.restore r record).1 = .error e) ↔ s.accepts o record = false) ∧
    ∀ e s', s.restore r record = (.error e, s') →
      s' = { s with heap := s'.heap, registry := s'.registry } ∧
      (∀ id c, (s'.fetch id c).1 = (s.fetch id c).1) ∧
      (∀ q, s'.heap.get? q = if q = r then some (o.readMeta record) else s.heap.get? q) ∧
      (s'.heap = s.heap ↔
        (∀ name, (record.get? "name").bind Json.str? = some name → name = o.name) ∧
        ∀ comment, (record.get? "comment").bind Json.str? = some comment →
          comment = o.comment) := by
  refine ⟨exists_error_iff ho record, fun e s' h => ?_⟩
  have hfirst : takesMetaFirst o = true := by
    unfold takesMetaFirst
    unfold Object.classOf at hclass
    cases hb : o.body <;> simp [hb, Body.classOf] at hclass ⊢
  rcases restore_cases ho record with ⟨e₁, s₁, herror, hreads, _⟩ | ⟨s₁, hok, _⟩
  · cases h.symm.trans herror
    rw [hfirst, if_pos rfl]
    have ho₁ : s₁.heap.get? r = some o := by rw [hreads.heap, ho]
    refine ⟨?_, fun id c => ?_, fun q => ?_, ?_⟩
    · rw [hreads.rest]
      rfl
    · rw [fetch_readMeta]
      exact hreads.fetch id c
    · rw [get?_readMeta ho₁, hreads.heap]
    · rw [← readMeta_eq_self_iff, ← heap_readMeta_eq_iff ho₁, hreads.heap]
  · cases h.symm.trans hok

def typeAndSymbol : Session where
  heap := [
    { uuid := ⟨1⟩, id := 21, name := "int", body := .dataType (.struct 4) },
    { uuid := ⟨2⟩, id := 22, name := "counter", body := .symbol { kind := .variable, type := 0 } }
    ].foldl (fun h o => (h.alloc o).2) .empty
  registry := { entries := .ofList [(21, 0), (22, 1)] }
  supply := Uuid.mk

theorem typeAndSymbol_refuses :
    ∃ s', typeAndSymbol.restore 0 (.obj [("comment", .str ""), ("kind", .natural 5)]) =
        (.error (.record .unreadable), s') ∧ s'.heap = typeAndSymbol.heap := by
  obtain ⟨s', hrun⟩ : ∃ s',
      typeAndSymbol.restore 0 (.obj [("comment", .str ""), ("kind", .natural 5)]) =
        (.error (.record .unreadable), s') := ⟨_, rfl⟩
  obtain ⟨o, ho, hclass, hcomment⟩ : ∃ o, typeAndSymbol.heap.get? 0 = some o ∧
      o.classOf = .dataType ∧ o.comment = "" := ⟨_, rfl, rfl, rfl⟩
  have hmem : o.classOf ∈ [ObjectClass.dataType, .symbol] := by simp [hclass]
  obtain ⟨_, _, _, hsame⟩ := (refused_takes_meta typeAndSymbol 0 o ho hmem _).2 _ s' hrun
  refine ⟨s', hrun, hsame.mpr ⟨nofun, ?_⟩⟩
  rintro _ ⟨⟩
  exact hcomment.symm

theorem typeAndSymbol_renamed :
    (typeAndSymbol.restore 0 (.obj [("name", .str "renamed"), ("kind", .natural 5)])).1 =
        .error (.record .unreadable) ∧
      typeAndSymbol.heap.name? 0 = some "int" ∧
      (typeAndSymbol.restore 0
        (.obj [("name", .str "renamed"), ("kind", .natural 5)])).2.heap.name? 0 = some "renamed" ∧
      (typeAndSymbol.restore 1 (.obj [("comment", .str "new"), ("data_type", .natural 22)])).1 =
        .error (.record (.symbolType (.wrongClass 22 "Symbol" "DataType"))) ∧
      (typeAndSymbol.heap.get? 1).map (·.comment) = some "" ∧
      ((typeAndSymbol.restore 1
        (.obj [("comment", .str "new"), ("data_type", .natural 22)])).2.heap.get? 1).map (·.comment) =
          some "new" := by
  decide

end Session

end BinaryAtlas
