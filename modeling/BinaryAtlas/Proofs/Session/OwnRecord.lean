import BinaryAtlas.Proofs.Session.Patching
import BinaryAtlas.Proofs.Session.Reachable
import BinaryAtlas.Proofs.Session.Refusal

namespace BinaryAtlas

def Body.references : Body → List (ObjectClass × Ref)
  | .dataType _ => []
  | .symbol y => [(.dataType, y.type)]
  | .table t =>
    t.symbols.toList.map (fun p => (.symbol, p.2)) ++ t.children.map fun c => (.symbolTable, c)
  | .image i => [(.symbolTable, i.globals)]
  | .space images => images.map fun r => (.image, r)

namespace Session

variable {s : Session} {r x : Ref} {o : Object} {c : ObjectClass}

theorem setBody_eq_self (ho : s.heap.get? r = some o) : s.setBody r o.body = s := by
  rw [setBody, Heap.setBody, Heap.modify_eq_self ho rfl]

theorem updateBody_eq_notify (ho : s.heap.get? r = some o) :
    s.updateBody r o.body = s.notify .changed r := by
  rw [updateBody, update, Heap.modify_eq_self ho rfl]

theorem readMeta_recordOf (s : Session) (o : Object) : o.readMeta (s.recordOf o) = o := rfl

theorem get?_layout_recordOf (s : Session) {i : Image} (hb : o.body = .image i) :
    (s.recordOf o).get? "layout" = i.layout.map Layout.toJson := by
  rw [recordOf, hb]
  show ((i.layout.map fun l => ("layout", l.toJson)).toList).lookup "layout" = _
  cases i.layout <;> rfl

theorem adopt_eq_self {h : Heap} {t : SymbolTable} (ht : h.table? r = some t)
    (hparent : t.parent = some x) : Heap.adopt x h r = h := by
  obtain ⟨o, ho, hb⟩ := Option.bind_eq_some_iff.mp ht
  rw [Body.table?_eq_some_iff] at hb
  rw [Heap.adopt, ht]
  refine Heap.modify_eq_self ho ?_
  rw [← hparent, ← hb]

theorem adopt_children_eq_self (hn : s.Nests) {t : SymbolTable} (ht : s.heap.table? x = some t) :
    t.children.foldl (Heap.adopt x) s.heap = s.heap := by
  have hlinked : ∀ c ∈ t.children, Heap.adopt x s.heap c = s.heap := by
    intro c hc
    have hmem : c ∈ s.children x := by
      rw [children, Heap.children_of_table? ht]
      exact hc
    have hparent := (hn.mem_children_iff x c (by rw [ht]; rfl) (hn.isSome_of_mem x c hmem)).mp hmem
    obtain ⟨hparent, _⟩ := Option.filter_eq_some_iff.mp hparent
    obtain ⟨u, hu, hux⟩ := Option.bind_eq_some_iff.mp hparent
    exact adopt_eq_self hu hux
  clear ht
  generalize t.children = cs at hlinked ⊢
  induction cs with
  | nil => rfl
  | cons c rest ih =>
    rw [List.foldl_cons, hlinked c List.mem_cons_self]
    exact ih fun d hd => hlinked d (List.mem_cons_of_mem c hd)

section

variable (hs : s.Fits)

include hs

theorem named?_idJson (hr : s.Registered c r) : s.named? c (s.idJson r) = some r := by
  obtain ⟨id, hid, hfetch⟩ := hr
  obtain ⟨o, ho, rfl⟩ := Option.map_eq_some_iff.mp hid
  have hword := Json.word?_natural (hs.objects r o ho).id
  rw [idJson, hid, Option.getD_some, named?_eq_some_iff]
  exact ⟨o.id, hword, hfetch⟩

theorem mapM_named?_idJson {refs : List Ref} (hrefs : ∀ r ∈ refs, s.Registered c r) :
    (refs.map s.idJson).mapM (s.named? c) = some refs :=
  mapM_map_eq_some fun r hr => named?_idJson hs (hrefs r hr)

theorem restoreType_own {k : TypeKind} (ho : s.heap.get? x = some o) (hb : o.body = .dataType k) :
    s.restoreType x (s.recordOf o) = (.ok (), s) := by
  have hfits := (hs.objects x o ho).body
  rw [hb] at hfits
  have hkind : (s.recordOf o).get? "kind" = some k.toJson := by
    rw [recordOf, hb]
    rfl
  rw [restoreType, hkind, readMeta_unchanged ho (readMeta_recordOf s o)]
  dsimp only
  rw [TypeKind.ofJson?_toJson hfits]
  dsimp only
  rw [← hb, setBody_eq_self ho]

theorem restoreSymbol_own {y : Symbol} (ho : s.heap.get? x = some o) (hb : o.body = .symbol y)
    (hy : s.Registered .dataType y.type) :
    ∃ s₁, s.Reads s₁ ∧ s.restoreSymbol x y (s.recordOf o) = (.ok (), s₁) := by
  obtain ⟨id, hid, hfetch⟩ := hy
  have htype : (s.recordOf o).get? "data_type" = some (s.idJson y.type) := by
    rw [recordOf, hb]
    rfl
  obtain ⟨p, hp, rfl⟩ := Option.map_eq_some_iff.mp hid
  have hfield : integerField (s.recordOf o) "data_type" = .ok p.id := by
    rw [integerField_eq_ok_iff, htype, Option.bind_some, idJson, hid]
    exact Json.word?_natural (hs.objects y.type p hp).id
  have hreads := fetch_reads s p.id .dataType
  refine ⟨_, hreads, ?_⟩
  have ho₁ : (s.fetch p.id .dataType).2.heap.get? x = some o := ho
  have hpair : s.fetch p.id .dataType = (.ok y.type, (s.fetch p.id .dataType).2) :=
    Prod.ext hfetch rfl
  rw [restoreSymbol, htype, readMeta_unchanged ho (readMeta_recordOf s o)]
  dsimp only
  rw [hfield]
  dsimp only
  rw [hpair]
  dsimp only
  rw [← hb, setBody_eq_self ho₁]

theorem entry?_own {offset : Nat} (hoffset : offset < Word.limit) (hr : s.Registered .symbol r) :
    s.entry? (.obj [("offset", .natural offset), ("symbol", s.idJson r)]) = some (offset, r) := by
  show ((Json.natural offset).word?.bind fun offset =>
    (s.named? .symbol (s.idJson r)).map fun symbol => (offset, symbol)) = some (offset, r)
  rw [Json.word?_natural hoffset, named?_idJson hs hr]
  rfl

theorem restoreTable_own (hn : s.Nests) {t : SymbolTable} (ho : s.heap.get? x = some o)
    (hb : o.body = .table t) (hx : (s.fetch o.id .symbolTable).1 = .ok x)
    (hsymbols : ∀ p ∈ t.symbols.toList, s.Registered .symbol p.2)
    (hchildren : ∀ c ∈ t.children, s.Registered .symbolTable c) :
    ∃ s₁, s.Reads s₁ ∧
      s.restoreTable x o.id (s.recordOf o) = (.ok (), s₁.notify .changed x) := by
  have ht : s.heap.table? x = some t := by simp [Heap.table?, ho, hb, Body.table?]
  have hentries : items? s.entry? (s.recordOf o) "symbols" = some t.symbols.toList := by
    rw [recordOf, hb]
    exact mapM_map_eq_some fun p hp => entry?_own hs (hs.table ht p hp) (hsymbols p hp)
  have hnamed : s.namedChildren? (s.recordOf o) = some t.children := by
    rw [recordOf, hb]
    exact mapM_named?_idJson hs hchildren
  rcases restoreTable_cases s x o.id (s.recordOf o) with
    ⟨e, s₁, _, _, hnone | hnone | ⟨e, hfail⟩⟩ |
      ⟨symbols, cs, q, s₁, s₂, hrun, hreads, hsome, hcs, hq, hs₂⟩
  · cases hnone.symm.trans hentries
  · cases hnone.symm.trans hnamed
  · cases hfail.symm.trans hx
  · cases hsome.symm.trans hentries
    cases hcs.symm.trans hnamed
    cases hq.symm.trans hx
    have ho₁ : s₁.heap.get? x = some o := by rw [hreads.heap, ho]
    have hrehomed : s₁.rehomed x x t.children (s.recordOf o) = s₁ := by
      rw [rehomed, hreads.heap, adopt_children_eq_self hn ht, ← hreads.heap]
      exact readMeta_unchanged ho₁ (readMeta_recordOf s o)
    refine ⟨s₁, hreads, ?_⟩
    rw [hrun, hs₂ t (by rw [hrehomed, hreads.heap, ht]), hrehomed, KeyMap.ofList_toList]
    rw [← updateBody_eq_notify ho₁, hb]

theorem restoreImage_own {i : Image} (ho : s.heap.get? x = some o) (hb : o.body = .image i) :
    s.restoreImage x i (s.recordOf o) = (.ok (), s.notify .changed x) := by
  have hfits := (hs.objects x o ho).body
  rw [hb] at hfits
  rw [restoreImage, get?_layout_recordOf s hb, readMeta_unchanged ho (readMeta_recordOf s o)]
  cases hl : i.layout with
  | none => rfl
  | some l =>
    have hsame : i.restoreLayout l = i := by
      unfold Image.restoreLayout
      split
      · rw [← hl]
      · rfl
    have hread : (Option.map Layout.toJson (some l)).filter (!·.isNull) = some l.toJson := rfl
    rw [hread]
    dsimp only
    rw [Layout.ofJson?_toJson (hfits.2 l hl)]
    dsimp only
    rw [hsame, ← hb, updateBody_eq_notify ho]

theorem restoreSpace_own {images : List Ref} (ho : s.heap.get? x = some o)
    (hb : o.body = .space images) (himages : ∀ r ∈ images, s.Registered .image r) :
    ∃ s₁, s.Reads s₁ ∧ s.restoreSpace x (s.recordOf o) = (.ok (), s₁) := by
  have hitems : items? (s.named? .image) (s.recordOf o) "images" = some images := by
    rw [recordOf, hb]
    exact mapM_named?_idJson hs himages
  rcases restoreSpace_cases s x (s.recordOf o) with
    ⟨e, s₁, _, _, hnone⟩ | ⟨images', s₁, hrun, hreads, hsome⟩
  · cases hnone.symm.trans hitems
  · cases hsome.symm.trans hitems
    have ho₁ : s₁.heap.get? x = some o := by rw [hreads.heap, ho]
    refine ⟨s₁, hreads, ?_⟩
    rw [hrun, readMeta_unchanged ho₁ (readMeta_recordOf s o), ← hb, setBody_eq_self ho₁]

theorem restore_own (hn : s.Nests) (ho : s.heap.get? x = some o) (hx : s.Registered o.classOf x)
    (hrefs : ∀ p ∈ o.body.references, s.Registered p.1 p.2) :
    ∃ s₁, s.Reads s₁ ∧ s.restore x (s.record x) =
      (.ok (), if o.body.announces then s₁.notify .changed x else s₁) := by
  have hrecord : s.record x = s.recordOf o := by rw [record, ho]; rfl
  rw [hrecord, restore, ho]
  cases hb : o.body with
  | dataType k => exact ⟨s, .refl s, by simp only [hb]; exact restoreType_own hs ho hb⟩
  | symbol y =>
    rw [hb] at hrefs
    obtain ⟨s₁, hreads, hrun⟩ := restoreSymbol_own hs ho hb (hrefs _ List.mem_cons_self)
    exact ⟨s₁, hreads, by simp only [hb]; exact hrun⟩
  | table t =>
    rw [hb] at hrefs
    obtain ⟨id, hid, hfetch⟩ := hx
    rw [Heap.id?, ho] at hid
    cases hid
    rw [Object.classOf, hb] at hfetch
    have hsymbols : ∀ p ∈ t.symbols.toList, s.Registered .symbol p.2 := fun p hp =>
      hrefs (.symbol, p.2) (List.mem_append_left _ (List.mem_map.mpr ⟨p, hp, rfl⟩))
    have hchildren : ∀ c ∈ t.children, s.Registered .symbolTable c := fun c hc =>
      hrefs (.symbolTable, c) (List.mem_append_right _ (List.mem_map.mpr ⟨c, hc, rfl⟩))
    obtain ⟨s₁, hreads, hrun⟩ := restoreTable_own hs hn ho hb hfetch hsymbols hchildren
    exact ⟨s₁, hreads, by simp only [hb]; exact hrun⟩
  | image i => exact ⟨s, .refl s, by simp only [hb]; exact restoreImage_own hs ho hb⟩
  | space images =>
    rw [hb] at hrefs
    have himages : ∀ r ∈ images, s.Registered .image r := fun r hr =>
      hrefs (.image, r) (List.mem_map.mpr ⟨r, hr, rfl⟩)
    obtain ⟨s₁, hreads, hrun⟩ := restoreSpace_own hs ho hb himages
    exact ⟨s₁, hreads, by simp only [hb]; exact hrun⟩

end

/-- The restoration itself changes nothing. What observers do when they hear of it is their own. -/
theorem own_record_restored (s : Session) (hs : s.Reachable) (hn : s.Nests) (x : Ref) (o : Object)
    (ho : s.heap.get? x = some o) (hx : s.Registered o.classOf x)
    (hrefs : ∀ p ∈ o.body.references, s.Registered p.1 p.2) :
    ∃ told, s.Unmoved told ∧ s.Reads told ∧
      s.restore x (s.record x) =
        (.ok (), if o.body.announces then told.notify .changed x else told) ∧
      (o.body.announces = false ∨ s.ObserversIdle x →
        s.Unmoved (s.restore x (s.record x)).2) := by
  obtain ⟨told, hreads, hrun⟩ := restore_own hs.fits hn ho hx hrefs
  have htold : s.Unmoved told := .of_reads hreads
  refine ⟨told, htold, hreads, hrun, fun h => ?_⟩
  rw [hrun]
  dsimp only
  split
  · rename_i hannounces
    have hidle := h.resolve_left (by simp [hannounces])
    exact unmoved_notify hidle htold (by rw [hreads.rest])
  · exact htold

def eachClass : Session :=
  [ .makeType "int" (some ⟨1⟩) "int" (.struct 4),
    .makeSymbol "counter" (some ⟨2⟩) "counter" .variable "int",
    .makeTable "outer" (some ⟨3⟩) "outer", .makeTable "inner" (some ⟨4⟩) "inner",
    .addSymbol "outer" 64 "counter", .addChild "outer" "inner",
    .makeImage "code" (some ⟨5⟩) "code" "outer" (.memory { bytes := [1, 2] }) (.given (.flat 0)),
    .analyse "code", .writeRaw "code" 0 [9], .makeSpace "process" (some ⟨6⟩) "process",
    .addImage "process" "code", .subscribe { tag := "notes" }].foldl
      (fun s command => (s.run command).2) (initial {} Uuid.mk)

theorem reachable_eachClass : eachClass.Reachable :=
  (Reachable.initial {} Uuid.mk).runs
    (by simp [Command.Fits, TypeKind.Fits, Analyser.fits_flat, Word.limit])

theorem nests_eachClass : eachClass.Nests := by
  have hgrown : eachClass.Grown := (Grown.initial {} Uuid.mk).runs (by simp [restoresTable])
  exact nests_of_forest hgrown.forest

theorem eachClass_restored :
    ((List.range 6).map fun x => (eachClass.heap.get? x).map fun o =>
        (o.classOf, o.body.references)) =
      [some (.dataType, []), some (.symbol, [(.dataType, 0)]),
        some (.symbolTable, [(.symbol, 1), (.symbolTable, 3)]), some (.symbolTable, []),
        some (.image, [(.symbolTable, 2)]), some (.addressSpace, [(.image, 4)])] ∧
      (eachClass.heap.image? 4).map (fun i => (i.isAnalysed, i.store.bytes)) =
        some (true, [9, 2]) ∧
      ∀ x < 6, (eachClass.restore x (eachClass.record x)).1 = .ok () ∧
        eachClass.Unmoved (eachClass.restore x (eachClass.record x)).2 := by
  have hstate : ((List.range 6).map fun x => (eachClass.heap.get? x).map fun o =>
        (o.classOf, o.body.references)) =
      [some (.dataType, []), some (.symbol, [(.dataType, 0)]),
        some (.symbolTable, [(.symbol, 1), (.symbolTable, 3)]), some (.symbolTable, []),
        some (.image, [(.symbolTable, 2)]), some (.addressSpace, [(.image, 4)])] ∧
      (eachClass.heap.image? 4).map (fun i => (i.isAnalysed, i.store.bytes)) =
        some (true, [9, 2]) ∧
      (∀ x < 6, ∃ o ∈ eachClass.heap.get? x, eachClass.Registered o.classOf x ∧
        ∀ p ∈ o.body.references, eachClass.Registered p.1 p.2) ∧
      eachClass.chain.active = [(0, { tag := "notes" })] := by decide +kernel
  obtain ⟨hview, hpatched, hregistered, hchain⟩ := hstate
  refine ⟨hview, hpatched, fun x hx => ?_⟩
  obtain ⟨o, ho, hown, hrefs⟩ := hregistered x hx
  have hidle : eachClass.ObserversIdle x := by
    refine observersIdle_of_unpatched fun p hp hpatch => ?_
    rw [hchain, List.mem_singleton] at hp
    rw [hp] at hpatch
    cases hpatch
  obtain ⟨told, _, _, hrun, hsame⟩ :=
    own_record_restored eachClass reachable_eachClass nests_eachClass x o ho hown hrefs
  exact ⟨by rw [hrun], hsame (.inr hidle)⟩

end Session

end BinaryAtlas
