import BinaryAtlas.Proofs.Session.LiveIndex
import BinaryAtlas.Proofs.Session.Refusal
import BinaryAtlas.Proofs.Translation

/-!
What commands are made of. Whatever a command does before anything dies is a sequence of elementary
moves, so what every move preserves every command preserves. What a move puts into an object is
there at that time, and of a class that fits the place where it is put.
-/

namespace BinaryAtlas

def Body.parts : Body → List (ObjectClass × Ref)
  | .dataType _ => []
  | .symbol s => [(.dataType, s.type)]
  | .table t => t.symbols.values.map (.symbol, ·) ++ t.children.map (.symbolTable, ·)
  | .image i => [(.symbolTable, i.globals)]
  | .space images => images.map (.image, ·)

theorem Body.owned_eq_parts (b : Body) : b.owned = b.parts.map (·.2) := by
  cases b <;> simp [owned, parts, Function.comp_def]

theorem Body.mem_owned_iff {b : Body} {r : Ref} : r ∈ b.owned ↔ ∃ c, (c, r) ∈ b.parts := by
  simp [owned_eq_parts]

namespace Heap

variable {fit : ObjectClass → ObjectClass → Prop} {h h' : Heap} {r : Ref} {b : Body}

def body? (h : Heap) (r : Ref) : Option Body := (h.get? r).map (·.body)

def Stands (fit : ObjectClass → ObjectClass → Prop) (h : Heap) (p : ObjectClass × Ref) : Prop :=
  ∃ c, h.class? p.2 = some c ∧ fit p.1 c

theorem Stands.isSome {p : ObjectClass × Ref} (hp : h.Stands fit p) :
    (h.get? p.2).isSome = true := by
  obtain ⟨c, hc, _⟩ := hp
  obtain ⟨o, ho, _⟩ := Option.map_eq_some_iff.mp hc
  rw [ho]
  rfl

theorem Stands.of_keeps {fresh : ObjectClass → Prop} (hk : h.Keeps Object.classOf fresh h')
    {p : ObjectClass × Ref} (hp : h.Stands fit p) : h'.Stands fit p := by
  obtain ⟨o, ho⟩ := Option.isSome_iff_exists.mp hp.isSome
  obtain ⟨c, hc, hfit⟩ := hp
  have hold := hk.old p.2 (lt_next ho)
  exact ⟨c, hold.trans hc, hfit⟩

theorem body?_eq_some_iff : h.body? r = some b ↔ ∃ o, h.get? r = some o ∧ o.body = b :=
  Option.map_eq_some_iff

theorem body?_of_kind? {k : TypeKind} (hr : h.kind? r = some k) :
    h.body? r = some (.dataType k) := by
  obtain ⟨o, ho, hb⟩ := Option.bind_eq_some_iff.mp hr
  exact body?_eq_some_iff.mpr ⟨o, ho, Body.kind?_eq_some_iff.mp hb⟩

theorem body?_of_symbol? {y : Symbol} (hr : h.symbol? r = some y) :
    h.body? r = some (.symbol y) := by
  obtain ⟨o, ho, hb⟩ := Option.bind_eq_some_iff.mp hr
  exact body?_eq_some_iff.mpr ⟨o, ho, Body.symbol?_eq_some_iff.mp hb⟩

theorem body?_of_table? {t : SymbolTable} (hr : h.table? r = some t) :
    h.body? r = some (.table t) := by
  obtain ⟨o, ho, hb⟩ := Option.bind_eq_some_iff.mp hr
  exact body?_eq_some_iff.mpr ⟨o, ho, Body.table?_eq_some_iff.mp hb⟩

theorem body?_of_image? {i : Image} (hr : h.image? r = some i) : h.body? r = some (.image i) := by
  obtain ⟨o, ho, hb⟩ := Option.bind_eq_some_iff.mp hr
  exact body?_eq_some_iff.mpr ⟨o, ho, Body.image?_eq_some_iff.mp hb⟩

theorem body?_of_images? {images : List Ref} (hr : h.images? r = some images) :
    h.body? r = some (.space images) := by
  obtain ⟨o, ho, hb⟩ := Option.bind_eq_some_iff.mp hr
  exact body?_eq_some_iff.mpr ⟨o, ho, Body.images?_eq_some_iff.mp hb⟩

theorem body?_setBody {b₀ : Body} (hr : h.body? r = some b₀) (b : Body) (q : Ref) :
    (h.setBody r b).body? q = if q = r then some b else h.body? q := by
  obtain ⟨o, ho, _⟩ := body?_eq_some_iff.mp hr
  rw [body?, setBody, get?_modify]
  split
  · rename_i hq
    rw [hq, ho]
    rfl
  · rfl

end Heap

namespace Session

variable {fit : ObjectClass → ObjectClass → Prop} {s s' s₁ : Session} {r : Ref} {id : HashId}
  {c : ObjectClass} {record : Json}

theorem storeBlind_classOf : StoreBlind Object.classOf := by
  intro o i store hi
  rw [Object.classOf, Object.classOf, hi]
  rfl

/-- The elementary moves of commands. Observers may react to those that are announced. -/
inductive Move (fit : ObjectClass → ObjectClass → Prop) : Session → Session → Prop
  | reads {s s' : Session} (reads : s.Reads s') : Move fit s s'
  | aside (s : Session) (disk : Disk) (analysers : AnalyserTable) (issued : Nat) :
      Move fit s { s with disk, analysers, issued }
  | bind {s : Session} (handle : String) {r : Ref} (live : (s.heap.get? r).isSome = true) :
      Move fit s (s.bind handle r)
  | unbind (s : Session) (handle : String) : Move fit s (s.unbind handle)
  | modify (s : Session) (r : Ref) {f : Object → Object}
      (same : ∀ o, (f o).id = o.id ∧ (f o).body = o.body) :
      Move fit s { s with heap := s.heap.modify r f }
  | setBody {s : Session} {r : Ref} {b₀ b : Body} (old : s.heap.body? r = some b₀)
      (sameClass : b.classOf = b₀.classOf)
      (parts : ∀ p ∈ b.parts, p ∈ b₀.parts ∨ s.heap.Stands fit p) :
      Move fit s (s.setBody r b)
  | changed (s : Session) (r : Ref) : Move fit s (s.notify .changed r)
  | enter {s : Session} {o : Object} (parts : ∀ p ∈ o.body.parts, s.heap.Stands fit p) :
      Move fit s (s.enter o).2
  | reregister (s : Session) (r : Ref) : Move fit s (s.reregister r).2
  | unregister (s : Session) (id : HashId) : Move fit s (s.unregister id).2

abbrev Moves (fit : ObjectClass → ObjectClass → Prop) (s s' : Session) : Prop :=
  Relation.ReflTransGen (Move fit) s s'

theorem Move.moves (h : Move fit s s') : s.Moves fit s' := .single h

theorem Move.keeps (h : Move fit s s') :
    s.heap.Keeps Object.classOf (fun _ => True) s'.heap := by
  cases h with
  | reads reads =>
    rw [reads.heap]
    exact .refl _
  | aside | bind | unbind => exact .refl _
  | modify r same => exact .modify fun o _ => by rw [Object.classOf, (same o).2, Object.classOf]
  | setBody old sameClass _ =>
    refine .modify fun o ho => sameClass.trans ?_
    obtain ⟨o', ho', rfl⟩ := Heap.body?_eq_some_iff.mp old
    cases ho.symm.trans ho'
    rfl
  | changed r => exact notify_keeps storeBlind_classOf s .changed r
  | enter _ => exact enter_keeps storeBlind_classOf s trivial
  | reregister r => exact reregister_keeps storeBlind_classOf s r
  | unregister id => exact unregister_keeps storeBlind_classOf s id

theorem Moves.keeps (h : s.Moves fit s') :
    s.heap.Keeps Object.classOf (fun _ => True) s'.heap := by
  induction h with
  | refl => exact .refl _
  | tail _ hmove ih => exact ih.trans hmove.keeps

theorem Moves.stands (h : s.Moves fit s') {p : ObjectClass × Ref} (hp : s.heap.Stands fit p) :
    s'.heap.Stands fit p :=
  hp.of_keeps h.keeps

theorem Moves.snd_eq {α : Type} {x : α × Session} {a : α} (hx : x = (a, s')) (h : s.Moves fit x.2) :
    s.Moves fit s' := by
  rwa [hx] at h

theorem moves_fetch (s : Session) (id : HashId) (c : ObjectClass) :
    s.Moves fit (s.fetch id c).2 :=
  (Move.reads (fetch_reads s id c)).moves

theorem find_reads (s : Session) (id : HashId) : s.Reads (s.find id).2 := fetch_reads s id .image

theorem moves_find (s : Session) (id : HashId) : s.Moves fit (s.find id).2 :=
  (Move.reads (find_reads s id)).moves

theorem reads_forgets (s : Session) (ids : List HashId) :
    s.Reads { s with registry := ids.foldl (Registry.forget s.live) s.registry } := by
  induction ids generalizing s with
  | nil => exact .refl s
  | cons j rest ih => exact (find_reads s j).trans (ih (s.find j).2)

theorem moves_measured (s : Session) (types : List Ref) : s.Moves fit (s.measured types) :=
  (Move.reads (reads_forgets s _)).moves

theorem moves_surveyed (s : Session) (symbols : List Ref) : s.Moves fit (s.surveyed symbols) :=
  moves_measured s _

theorem reads_prune (s : Session) :
    s.Reads { s with registry := (s.registry.prune s.live).2 } where
  rest := rfl
  answers := Registry.get?_sweep s.live s.registry
  entries _ _ := Registry.entries_of_sweep

theorem moves_update (s : Session) (r : Ref) {f : Object → Object}
    (same : ∀ o, (f o).id = o.id ∧ (f o).body = o.body) : s.Moves fit (s.update r f) :=
  (Move.modify s r same).moves.tail (.changed _ r)

theorem moves_readMeta (s : Session) (r : Ref) (record : Json) :
    s.Moves fit (s.readMeta r record) :=
  (Move.modify s r (f := (·.readMeta record)) fun _ => ⟨rfl, rfl⟩).moves

section

variable {b₀ b : Body} (old : s.heap.body? r = some b₀) (sameClass : b.classOf = b₀.classOf)
  (parts : ∀ p ∈ b.parts, p ∈ b₀.parts ∨ s.heap.Stands fit p)

include old sameClass parts

theorem moves_setBody : s.Moves fit (s.setBody r b) :=
  (Move.setBody old sameClass parts).moves

theorem moves_updateBody : s.Moves fit (s.updateBody r b) :=
  (moves_setBody old sameClass parts).tail (.changed _ r)

end

theorem moves_updateImage (s : Session) (r : Ref)
    {f : Image → Disk → Except Error Unit × Image × Disk} (hf : Stores f) :
    s.Moves fit (s.updateImage r f).2 := by
  rcases updateImage_cases hf s r with hsame | ⟨i, store, disk, hi, _, hs⟩
  · rw [hsame]
  · rw [hs]
    have hset : s.Moves fit (s.setBody r (.image { i with store })) :=
      moves_setBody (Heap.body?_of_image? hi) rfl fun p hp => .inl hp
    exact hset.tail (.aside _ disk s.analysers s.issued)

theorem moves_identify (s : Session) (id : Option Uuid) : s.Moves fit (s.identify id).2 := by
  cases id with
  | none => exact (Move.aside s s.disk s.analysers (s.issued + 1)).moves
  | some uuid => exact .refl

theorem moves_create (s : Session) (id : Option Uuid) (name : String) {b : Body}
    (hparts : ∀ p ∈ b.parts, s.heap.Stands fit p) : s.Moves fit (s.create id name b).2 := by
  refine (moves_identify s id).tail (.enter fun p hp => ?_)
  rw [identify_heap]
  exact hparts p hp

theorem class?_enter (s : Session) (o : Object) :
    (s.enter o).2.heap.class? (s.enter o).1 = some o.classOf := by
  unfold enter
  split
  · rename_i old registry hinsert
    have hold := insert_eq_existing_iff.mp (congrArg Prod.fst hinsert)
    exact (Registry.getAs_eq_ok_iff.mp hold).2
  · rename_i registry _
    have hk : Heap.Keeps Object.classOf (fun _ => True) _ _ := notify_keeps storeBlind_classOf
      { s with registry, heap := (s.heap.alloc o).2 } .added s.heap.next
    refine (hk.old s.heap.next (Nat.lt_succ_self _)).trans ?_
    rw [Heap.get?_alloc, if_pos rfl]
    rfl

theorem class?_create (s : Session) (id : Option Uuid) (name : String) (b : Body) :
    (s.create id name b).2.heap.class? (s.create id name b).1 = some b.classOf :=
  class?_enter (s.identify id).2 _

theorem moves_analyse (s : Session) (r : Ref) : s.Moves fit (s.analyse r).2 := by
  unfold analyse
  split
  · exact .refl
  · rename_i i hi
    split
    · rename_i j hj
      obtain ⟨a, _, _, rfl⟩ := (Image.analyse_eq_ok_iff i j).mp hj
      exact moves_updateBody (Heap.body?_of_image? hi) rfl fun p hp => .inl hp
    · exact .refl

theorem moves_unregisterObject (s : Session) (r : Ref) : s.Moves fit (s.unregisterObject r) := by
  unfold unregisterObject
  split
  · exact (Move.unregister s _).moves
  · exact .refl

theorem moves_discard (s : Session) (id : HashId) : s.Moves fit (s.discard id).2 := by
  have hfind : s.Moves fit (s.find id).2 := moves_find s id
  unfold discard
  split
  · rename_i hfail
    exact .snd_eq hfail hfind
  · rename_i q s₁ hfound
    have hs₁ := Moves.snd_eq hfound hfind
    split
    · have hremove := hs₁.tail (.unregister s₁ id)
      split <;> exact .snd_eq ‹_› hremove
    · exact hs₁

theorem moves_makeImage (s : Session) (id : Option Uuid) (name : String) {globals : Ref}
    (source : Source) (choice : AnalyserChoice)
    (hglobals : s.heap.Stands fit (.symbolTable, globals)) :
    s.Moves fit (s.makeImage id name globals source choice).2 := by
  unfold makeImage
  split
  · exact .refl
  · split
    · exact .refl
    · refine moves_create s id name fun p hp => ?_
      rw [List.mem_singleton.mp hp]
      exact hglobals

theorem moves_addSymbol (s : Session) (table : Ref) (offset : Nat) {symbol : Ref}
    (hsymbol : s.heap.Stands fit (.symbol, symbol)) :
    s.Moves fit (s.addSymbol table offset symbol).2 := by
  unfold addSymbol
  split
  · exact .refl
  · rename_i t ht
    refine moves_updateBody (Heap.body?_of_table? ht) rfl fun p hp => ?_
    rcases List.mem_append.mp hp with hp | hp
    · obtain ⟨y, hy, rfl⟩ := List.mem_map.mp hp
      rcases KeyMap.mem_values_insert hy with rfl | hy
      · exact .inr hsymbol
      · exact .inl (List.mem_append_left _ (List.mem_map_of_mem hy))
    · exact .inl (List.mem_append_right _ hp)

theorem moves_removeSymbol (s : Session) (table : Ref) (offset : Nat) :
    s.Moves fit (s.removeSymbol table offset).2 := by
  unfold removeSymbol
  dsimp only
  split
  · exact .refl
  · rename_i t ht
    have hasked : s.Moves fit (s.surveyed (t.hitReads offset)) := moves_surveyed s _
    split
    · exact hasked
    · refine hasked.trans (moves_updateBody (Heap.body?_of_table? ht) rfl fun p hp => ?_)
      rcases List.mem_append.mp hp with hp | hp
      · obtain ⟨y, hy, rfl⟩ := List.mem_map.mp hp
        exact .inl (List.mem_append_left _ (List.mem_map_of_mem (KeyMap.mem_values_erase hy)))
      · exact .inl (List.mem_append_right _ hp)

theorem moves_setSymbols (s : Session) (table : Ref) {symbols : KeyMap Ref}
    (hsymbols : ∀ y ∈ symbols.values, s.heap.Stands fit (.symbol, y)) :
    s.Moves fit (s.setSymbols table symbols) := by
  unfold setSymbols
  split
  · exact .refl
  · rename_i t ht
    refine moves_updateBody (Heap.body?_of_table? ht) rfl fun p hp => ?_
    rcases List.mem_append.mp hp with hp | hp
    · obtain ⟨y, hy, rfl⟩ := List.mem_map.mp hp
      exact .inr (hsymbols y hy)
    · exact .inl (List.mem_append_right _ hp)

theorem moves_lookup (s : Session) (table : Ref) (offset : Nat) :
    s.Moves fit (s.lookup table offset).2 := by
  unfold lookup
  dsimp only
  split <;> exact moves_surveyed s _

theorem moves_span (s : Session) (table : Ref) : s.Moves fit (s.span table).2 := by
  unfold span
  split
  · exact .refl
  · exact moves_surveyed s _

theorem moves_setParent (s : Session) (child : Ref) (parent : Option Ref) :
    s.Moves fit (s.setParent child parent) := by
  unfold setParent
  split
  · exact .refl
  · rename_i t ht
    exact moves_setBody (Heap.body?_of_table? ht) rfl fun p hp => .inl hp

theorem body?_setParent {table : Ref} {t : SymbolTable} (ht : s.heap.table? table = some t)
    (child : Ref) (parent : Option Ref) :
    ∃ t', (s.setParent child parent).heap.body? table = some (.table t') ∧
      t'.symbols = t.symbols ∧ t'.children = t.children := by
  have hbody := Heap.body?_of_table? ht
  unfold setParent
  split
  · exact ⟨t, hbody, rfl, rfl⟩
  · rename_i u hu
    dsimp only
    rw [Heap.body?_setBody (Heap.body?_of_table? hu)]
    split
    · rename_i hsame
      subst hsame
      cases ht.symm.trans hu
      exact ⟨_, rfl, rfl, rfl⟩
    · exact ⟨t, hbody, rfl, rfl⟩

theorem stands_of_table? (hfit : ∀ c, fit c c) {t : SymbolTable} (ht : s.heap.table? r = some t) :
    s.heap.Stands fit (.symbolTable, r) := by
  obtain ⟨o, ho, hb⟩ := Heap.body?_eq_some_iff.mp (Heap.body?_of_table? ht)
  exact ⟨.symbolTable, by rw [Heap.class?, ho, Option.map_some, Object.classOf, hb]; rfl, hfit _⟩

theorem moves_addChild (hfit : ∀ c, fit c c) (s : Session) (table child : Ref) :
    s.Moves fit (s.addChild table child).2 := by
  unfold addChild
  split
  · rename_i t u id ht hu _
    split
    · exact .refl
    · have hparent : s.Moves fit (s.setParent child (some table)) := moves_setParent s child _
      obtain ⟨t', ht', hsymbols, hchildren⟩ := body?_setParent ht child (some table)
      refine hparent.trans (moves_updateBody ht' rfl fun p hp => ?_)
      rw [Body.parts, hsymbols, hchildren]
      simp only [Body.parts, List.map_append, List.map_singleton, ← List.append_assoc] at hp
      rcases List.mem_append.mp hp with hp | hp
      · exact .inl hp
      · rw [List.mem_singleton.mp hp]
        exact .inr (hparent.stands (stands_of_table? hfit hu))
  · exact .refl

theorem moves_removeChild (s : Session) (table : Ref) (id : HashId) :
    s.Moves fit (s.removeChild table id).2 := by
  unfold removeChild
  split
  · exact .refl
  · rename_i t ht
    split
    · exact .refl
    · rename_i child _
      have hset : s.Moves fit
          (s.setBody table (.table { t with children := t.children.erase child })) := by
        refine moves_setBody (Heap.body?_of_table? ht) rfl fun p hp => .inl ?_
        rcases List.mem_append.mp hp with hp | hp
        · exact List.mem_append_left _ hp
        · obtain ⟨q, hq, rfl⟩ := List.mem_map.mp hp
          exact List.mem_append_right _ (List.mem_map_of_mem (List.mem_of_mem_erase hq))
      exact (hset.trans (moves_setParent _ child none)).tail (.changed _ table)

theorem moves_addImage (s : Session) (space : Ref) {image : Ref}
    (himage : s.heap.Stands fit (.image, image)) : s.Moves fit (s.addImage space image).2 := by
  unfold addImage
  split
  · rename_i images id himages _
    split
    · exact .refl
    · refine moves_updateBody (Heap.body?_of_images? himages) rfl fun p hp => ?_
      simp only [Body.parts, List.map_append, List.map_singleton] at hp
      rcases List.mem_append.mp hp with hp | hp
      · exact .inl hp
      · rw [List.mem_singleton.mp hp]
        exact .inr himage
  · exact .refl

theorem moves_removeImage (s : Session) (space : Ref) (id : HashId) :
    s.Moves fit (s.removeImage space id).2 := by
  unfold removeImage
  split
  · exact .refl
  · rename_i images himages
    split
    · exact .refl
    · refine moves_updateBody (Heap.body?_of_images? himages) rfl fun p hp => .inl ?_
      obtain ⟨q, hq, rfl⟩ := List.mem_map.mp hp
      exact List.mem_map_of_mem (List.mem_of_mem_erase hq)

section

variable (hfit : ∀ c, fit c c)

include hfit

theorem stands_of_fetch (h : (s.fetch id c).1 = .ok r) : s.heap.Stands fit (c, r) :=
  ⟨c, (Registry.getAs_eq_ok_iff.mp h).2, hfit c⟩

theorem stands_of_named? {j : Json} (h : s.named? c j = some r) : s.heap.Stands fit (c, r) := by
  obtain ⟨id, _, hid⟩ := named?_eq_some_iff.mp h
  exact stands_of_fetch hfit hid

theorem stands_of_items? {key : String} {refs : List Ref}
    (h : items? (s.named? c) record key = some refs) : ∀ q ∈ refs, s.heap.Stands fit (c, q) := by
  intro q hq
  obtain ⟨items, _, hitems⟩ := Option.bind_eq_some_iff.mp h
  obtain ⟨j, _, hj⟩ := exists_of_mem_mapM hitems hq
  exact stands_of_named? hfit hj

theorem stands_of_entries {key : String} {symbols : List (Nat × Ref)}
    (h : items? s.entry? record key = some symbols) :
    ∀ y ∈ (KeyMap.ofList symbols).values, s.heap.Stands fit (.symbol, y) := by
  intro y hy
  obtain ⟨offset, hmem⟩ := KeyMap.mem_values_ofList hy
  obtain ⟨items, _, hitems⟩ := Option.bind_eq_some_iff.mp h
  obtain ⟨j, _, hj⟩ := exists_of_mem_mapM hitems hmem
  obtain ⟨_, _, hj⟩ := Option.bind_eq_some_iff.mp hj
  obtain ⟨y', hy', heq⟩ := Option.map_eq_some_iff.mp hj
  cases heq
  obtain ⟨_, _, hnamed⟩ := Option.bind_eq_some_iff.mp hy'
  exact stands_of_named? hfit hnamed

theorem moves_createImage (s : Session) (name analyser : String) (source : Source) :
    s.Moves fit (s.createImage name analyser source).2 := by
  unfold createImage
  split
  · exact .refl
  · rename_i store _
    split
    · exact .refl
    · rename_i a _
      let table := s.create none (name ++ ".global") (.table {})
      let image : Image := { store, analyser := a, globals := table.1 }
      have htable : s.Moves fit table.2 := moves_create s none _ nofun
      have himage : s.Moves fit (table.2.create none name (.image image)).2 := by
        refine htable.trans (moves_create table.2 none name fun p hp => ?_)
        rw [List.mem_singleton.mp hp]
        exact ⟨.symbolTable, class?_create s none _ (.table {}), hfit _⟩
      have hanalyse := himage.trans (moves_analyse _ (table.2.create none name (.image image)).1)
      dsimp only
      split
      · exact .snd_eq ‹_› hanalyse
      · rename_i hfail
        exact ((Moves.snd_eq hfail hanalyse).trans (moves_unregisterObject _ _)).trans
          (moves_unregisterObject _ _)

end

theorem moves_adopted (s : Session) (q : Ref) (cs : List Ref) :
    s.Moves fit { s with heap := cs.foldl (Heap.adopt q) s.heap } := by
  induction cs generalizing s with
  | nil => exact .refl
  | cons c rest ih =>
    have hfirst : s.Moves fit { s with heap := Heap.adopt q s.heap c } := by
      unfold Heap.adopt
      split
      · rename_i t ht
        exact moves_setBody (Heap.body?_of_table? ht) rfl fun p hp => .inl hp
      · exact .refl
    exact hfirst.trans (ih { s with heap := Heap.adopt q s.heap c })

theorem body?_readMeta (s : Session) (r : Ref) (record : Json) (q : Ref) :
    (s.readMeta r record).heap.body? q = s.heap.body? q := by
  rw [Heap.body?, readMeta, Heap.get?_modify]
  split
  · rw [Heap.body?, Option.map_map]
    rfl
  · rfl

theorem moves_restoreType {k : TypeKind} (hr : s.heap.body? r = some (.dataType k))
    (record : Json) : s.Moves fit (s.restoreType r record).2 := by
  have hmeta : s.Moves fit (s.readMeta r record) := moves_readMeta s r record
  unfold restoreType
  dsimp only
  split
  · exact hmeta
  · split
    · exact hmeta.trans (moves_setBody ((body?_readMeta ..).trans hr) rfl nofun)
    · exact hmeta

theorem moves_restoreImage {i : Image} (hr : s.heap.body? r = some (.image i)) (record : Json) :
    s.Moves fit (s.restoreImage r i record).2 := by
  have hmeta : s.Moves fit (s.readMeta r record) := moves_readMeta s r record
  unfold restoreImage
  split
  · exact hmeta.tail (.changed _ r)
  · split
    · exact .refl
    · rename_i l _
      refine hmeta.trans (moves_updateBody ((body?_readMeta ..).trans hr) rfl fun p hp => .inl ?_)
      unfold Image.restoreLayout at hp
      split at hp <;> exact hp

section

variable (hfit : ∀ c, fit c c)

include hfit

theorem moves_restoreSymbol {y : Symbol} (hr : s.heap.body? r = some (.symbol y)) (record : Json) :
    s.Moves fit (s.restoreSymbol r y record).2 := by
  have hmeta : s.Moves fit (s.readMeta r record) := moves_readMeta s r record
  unfold restoreSymbol
  dsimp only
  split
  · exact hmeta
  · split
    · exact hmeta
    · rename_i id _
      have hfetch := hmeta.trans (moves_fetch _ id .dataType)
      split
      · exact .snd_eq ‹_› hfetch
      · rename_i type s₁ hfound
        have hbody : ((s.readMeta r record).fetch id .dataType).2.heap.body? r =
            some (.symbol y) := (body?_readMeta s r record r).trans hr
        have htype := (moves_fetch _ id .dataType).stands
          (stands_of_fetch hfit (congrArg Prod.fst hfound))
        rw [hfound] at hbody hfetch htype
        refine hfetch.trans (moves_setBody hbody rfl fun p hp => .inr ?_)
        rw [List.mem_singleton.mp hp]
        exact htype

theorem moves_restoreTable (hr : (s.heap.table? r).isSome = true) (id : HashId) (record : Json) :
    s.Moves fit (s.restoreTable r id record).2 := by
  rcases restoreTable_cases s r id record with
    ⟨e, s₁, hrun, hreads, _⟩ | ⟨symbols, cs, q, s₁, s₂, hrun, hreads, hsymbols, hcs, _, hs₂⟩
  · rw [hrun]
    exact (Move.reads hreads).moves
  · rw [hrun]
    have hrehomed : s.Moves fit (s₁.rehomed r q cs record) :=
      ((Move.reads hreads).moves.trans (moves_adopted s₁ q cs)).trans (moves_readMeta _ r record)
    have htable : ((s₁.rehomed r q cs record).heap.table? r).isSome = true := by
      rw [isSome_table?_rehomed, hreads.heap, hr]
    obtain ⟨t, ht⟩ := Option.isSome_iff_exists.mp htable
    rw [hs₂ t ht]
    refine hrehomed.trans (moves_updateBody (Heap.body?_of_table? ht) rfl fun p hp => .inr ?_)
    apply hrehomed.stands
    rcases List.mem_append.mp hp with hp | hp
    · obtain ⟨y, hy, rfl⟩ := List.mem_map.mp hp
      exact stands_of_entries hfit hsymbols y hy
    · obtain ⟨c, hc, rfl⟩ := List.mem_map.mp hp
      exact stands_of_items? hfit hcs c hc

theorem moves_restoreSpace {images : List Ref} (hr : s.heap.body? r = some (.space images))
    (record : Json) : s.Moves fit (s.restoreSpace r record).2 := by
  rcases restoreSpace_cases s r record with
    ⟨e, s₁, hrun, hreads, _⟩ | ⟨named, s₁, hrun, hreads, hnamed⟩
  · rw [hrun]
    exact (Move.reads hreads).moves
  · rw [hrun]
    have hmeta : s.Moves fit (s₁.readMeta r record) :=
      (Move.reads hreads).moves.trans (moves_readMeta s₁ r record)
    have hbody : (s₁.readMeta r record).heap.body? r = some (.space images) := by
      rw [body?_readMeta, hreads.heap, hr]
    refine hmeta.trans (moves_setBody hbody rfl fun p hp => .inr ?_)
    obtain ⟨i, hi, rfl⟩ := List.mem_map.mp hp
    exact hmeta.stands (stands_of_items? hfit hnamed i hi)

theorem moves_restore (s : Session) (r : Ref) (record : Json) :
    s.Moves fit (s.restore r record).2 := by
  unfold restore
  split
  · exact .refl
  · rename_i o ho
    have hbody : ∀ b, o.body = b → s.heap.body? r = some b := fun b hb =>
      Heap.body?_eq_some_iff.mpr ⟨o, ho, hb⟩
    split
    · exact moves_restoreType (hbody _ ‹_›) record
    · exact moves_restoreSymbol hfit (hbody _ ‹_›) record
    · rename_i hb
      exact moves_restoreTable hfit (by simp [Heap.table?, ho, hb, Body.table?]) o.id record
    · exact moves_restoreImage (hbody _ ‹_›) record
    · exact moves_restoreSpace hfit (hbody _ ‹_›) record

end

theorem moves_hold (s : Session) (handle : String) (r : Ref) :
    s.Moves fit (s.hold handle r).2 := by
  unfold hold
  split
  · rename_i o ho
    exact (Move.bind handle (by rw [ho]; rfl)).moves
  · exact .refl

theorem Moves.holdResult {result : Except Error Ref × Session} (h : s.Moves fit result.2)
    (handle : String) : s.Moves fit (holdResult handle result).2 := by
  unfold Session.holdResult
  split
  · exact h.trans (moves_hold _ handle _)
  · exact h

theorem Moves.answerUnit {result : Except Error Unit × Session} (h : s.Moves fit result.2) :
    s.Moves fit (answerUnit result).2 := by
  unfold Session.answerUnit
  split <;> exact h

theorem Moves.answerObject {result : Except LookupError Ref × Session} (h : s.Moves fit result.2) :
    s.Moves fit (answerObject result).2 := by
  unfold Session.answerObject
  split
  · split <;> exact h
  · exact h

theorem withHandle_moves {handle : String} {next : Ref → Outcome}
    (hnext : ∀ r, s.handle? handle = some r → s.Moves fit (next r).2) :
    s.Moves fit (s.withHandle handle next).2 :=
  withHandle_elim (P := s.Moves fit) .refl hnext

end Session

def Command.puts : Command → List (ObjectClass × String)
  | .makeSymbol _ _ _ _ type => [(.dataType, type)]
  | .makeImage _ _ _ table _ _ => [(.symbolTable, table)]
  | .setType _ type => [(.dataType, type)]
  | .addSymbol _ _ symbol => [(.symbol, symbol)]
  | .setSymbols _ entries => entries.map fun e => (.symbol, e.2)
  | .addImage _ image => [(.image, image)]
  | _ => []

def Command.subscribes : Command → Bool
  | .subscribe _ => true
  | .unsubscribe _ => true
  | _ => false

namespace Session

variable {fit : ObjectClass → ObjectClass → Prop} {s : Session}

def Supplies (fit : ObjectClass → ObjectClass → Prop) (s : Session) (command : Command) : Prop :=
  ∀ p ∈ command.puts, ∀ r, s.handle? p.2 = some r → s.heap.Stands fit (p.1, r)

theorem moves_perform (hfit : ∀ c, fit c c) {command : Command} (hc : command.subscribes = false)
    (hs : s.Supplies fit command) : s.Moves fit (s.perform command).2 := by
  cases command with
  | makeType handle id name kind =>
    exact (moves_create s id name (b := .dataType kind) nofun).trans (moves_hold _ handle _)
  | makeSymbol handle id name kind type =>
    refine withHandle_moves fun q hq => ?_
    refine (moves_create s id name (b := .symbol { kind, type := q }) fun p hp => ?_).trans
      (moves_hold _ handle _)
    rw [List.mem_singleton.mp hp]
    exact hs (.dataType, type) List.mem_cons_self q hq
  | makeTable handle id name =>
    exact (moves_create s id name (b := .table {}) nofun).trans (moves_hold _ handle _)
  | makeSpace handle id name =>
    exact (moves_create s id name (b := .space []) nofun).trans (moves_hold _ handle _)
  | makeImage handle id name table source choice =>
    refine withHandle_moves fun q hq => Moves.holdResult ?_ handle
    exact moves_makeImage s id name source choice (hs (.symbolTable, table) List.mem_cons_self q hq)
  | createImage handle name analyser source =>
    exact (moves_createImage hfit s name analyser source).holdResult handle
  | holdGlobals handle image =>
    refine withHandle_moves fun r _ => ?_
    split
    · exact moves_hold s handle _
    · exact .refl
  | drop handle => exact (Move.unbind s handle).moves
  | setName object name => exact withHandle_moves fun r _ => moves_update s r fun _ => ⟨rfl, rfl⟩
  | setComment object comment =>
    exact withHandle_moves fun r _ => moves_update s r fun _ => ⟨rfl, rfl⟩
  | setTemporary object value =>
    refine withHandle_moves fun r _ => Move.moves ?_
    exact .modify s r fun _ => ⟨rfl, rfl⟩
  | restore object record =>
    exact withHandle_moves fun r _ => (moves_restore hfit s r record).answerUnit
  | register object => exact withHandle_moves fun r _ => (Move.reregister s r).moves
  | setKind type kind =>
    refine withHandle_moves fun r _ => ?_
    split
    · rename_i k hk
      exact moves_updateBody (Heap.body?_of_kind? hk) rfl nofun
    · exact .refl
  | measure type => exact withHandle_moves fun r _ => moves_measured s [r]
  | setType symbol type =>
    refine withHandle_moves fun r _ => withHandle_moves fun q hq => ?_
    split
    · rename_i y hy
      refine moves_updateBody (Heap.body?_of_symbol? hy) rfl fun p hp => .inr ?_
      rw [List.mem_singleton.mp hp]
      exact hs (.dataType, type) List.mem_cons_self q hq
    · exact .refl
  | extent symbol => exact withHandle_moves fun r _ => moves_surveyed s [r]
  | addSymbol table offset symbol =>
    exact withHandle_moves fun t _ => withHandle_moves fun r hr =>
      moves_addSymbol s t offset (hs (.symbol, symbol) List.mem_cons_self r hr)
  | removeSymbol table offset =>
    refine withHandle_moves fun t _ => ?_
    split <;> exact .snd_eq ‹_› (moves_removeSymbol s t offset)
  | lookup table offset =>
    refine withHandle_moves fun t _ => ?_
    split <;> exact .snd_eq ‹_› (moves_lookup s t offset)
  | span table => exact withHandle_moves fun t _ => moves_span s t
  | setSymbols table entries =>
    refine withHandle_moves fun t _ => ?_
    split
    · rename_i refs hrefs
      refine moves_setSymbols s t fun y hy => ?_
      obtain ⟨offset, hmem⟩ := KeyMap.mem_values_ofList hy
      obtain ⟨e, he, hp⟩ := exists_of_mem_mapM hrefs hmem
      obtain ⟨r, hr, heq⟩ := Option.map_eq_some_iff.mp hp
      cases heq
      exact hs (.symbol, e.2) (List.mem_map_of_mem he) y hr
    · exact .refl
  | addChild table child =>
    exact withHandle_moves fun t _ => withHandle_moves fun c _ => moves_addChild hfit s t c
  | removeChild table child => exact withHandle_moves fun t _ => moves_removeChild s t child
  | render table indent levels => exact withHandle_moves fun t _ => moves_surveyed s _
  | analyse image => exact withHandle_moves fun r _ => (moves_analyse s r).answerUnit
  | writeRaw image file data =>
    exact withHandle_moves fun r _ => (moves_updateImage s r (stores_writeRaw file data)).answerUnit
  | flush image => exact withHandle_moves fun r _ => (moves_updateImage s r stores_flush).answerUnit
  | addAnalyser analyser => exact (Move.aside s s.disk _ s.issued).moves
  | outside disk => exact (Move.aside s disk s.analysers s.issued).moves
  | addImage space image =>
    exact withHandle_moves fun r _ => withHandle_moves fun i hi =>
      moves_addImage s r (hs (.image, image) List.mem_cons_self i hi)
  | removeImage space image => exact withHandle_moves fun r _ => moves_removeImage s r image
  | find id => exact (moves_find s id).answerObject
  | findAs id c => exact (moves_fetch s id c).answerObject
  | remove id => exact (Move.unregister s id).moves.answerObject
  | discard id =>
    simp only [perform]
    split <;> exact .snd_eq ‹_› (moves_discard s id)
  | prune => exact (Move.reads (reads_prune s)).moves
  | subscribe observer => cases hc
  | unsubscribe subscription => cases hc

theorem perform_subscribes {command : Command} (hc : command.subscribes = true) :
    ∃ chain, (s.perform command).2 = { s with chain } := by
  cases command with
  | subscribe observer => exact ⟨_, rfl⟩
  | unsubscribe subscription => exact ⟨_, rfl⟩
  | _ => cases hc

end Session

end BinaryAtlas
