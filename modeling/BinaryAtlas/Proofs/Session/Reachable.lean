import BinaryAtlas.Proofs.Forms
import BinaryAtlas.Proofs.Reading
import BinaryAtlas.Proofs.Session.Restore

namespace BinaryAtlas

def Analyser.Fits (a : Analyser) : Prop :=
  ∀ data r, a.run data = .ok r → (Layout.ofAnalysis r data).Fits

open PortableExecutable in
theorem Analyser.fits_portableExecutable (config : AnalysisConfig) :
    (Analyser.portableExecutable config).Fits := by
  intro data r hr
  have hback := backs_portableExecutable config data r hr
  obtain ⟨ha, rfl⟩ := (analyse_eq_ok_iff config data r).mp hr
  have himage := ha.imageFits
  have hentry := ha.entered
  have hstop := Word.addSat_le_top (Declared.analysis data).base (Declared.analysis data).size
  simp only [Word.top] at himage hstop
  have hlimit : 0 < Word.limit := by decide
  constructor
  case base =>
    show Declared.imageBase data < Word.limit
    omega
  case entry =>
    show Declared.imageBase data + Declared.entry data < Word.limit
    omega
  case stop =>
    show Word.addSat _ _ < Word.limit
    omega
  case sections => exact fun s hs => (hback s hs).built.fits

theorem Analyser.fits_flat (base : Nat) : (Analyser.flat base).Fits := by
  intro data r hr
  have hback := backs_flat base data r hr
  have hstop := Word.addSat_le_top r.base r.size
  simp only [Word.top] at hstop
  have hlimit : 0 < Word.limit := by decide
  have hbase : r.base < Word.limit ∧ r.entry = r.base := by
    unfold flat flatAnalysis at hr
    dsimp only at hr
    split at hr
    · cases hr
    · split at hr
      · rename_i built hbuilt
        cases hr
        have hfits := ((Section.build?_eq_some_iff ..).mp hbuilt).1
        exact ⟨by dsimp only; omega, rfl⟩
      · cases hr
  constructor
  case base => exact hbase.1
  case entry =>
    show r.entry < Word.limit
    rw [hbase.2]
    exact hbase.1
  case stop =>
    show Word.addSat _ _ < Word.limit
    omega
  case sections => exact fun s hs => (hback s hs).built.fits

theorem HashId.of_lt (className : String) (id : Uuid) : HashId.of className id < Word.limit := by
  unfold HashId.of Bytes.ofBigEndian
  refine Nat.lt_of_lt_of_le (Bytes.ofLittleEndian_lt _) ?_
  have hlen : (List.take 8 (Digest.sha256
      (Text.Utf8.encode (className ++ ":" ++ id.text)))).reverse.length ≤ 8 := by
    rw [List.length_reverse, List.length_take]
    exact Nat.min_le_left _ _
  exact Nat.le_trans (Nat.pow_le_pow_right (by decide) hlen) (by decide)

def Body.Fits : Body → Prop
  | .dataType k => k.Fits
  | .symbol _ => True
  | .table t => ∀ p ∈ t.symbols.toList, p.1 < Word.limit
  | .image i => i.analyser.Fits ∧ ∀ l, i.layout = some l → l.Fits
  | .space _ => True

structure Object.Fits (o : Object) : Prop where
  id : o.id < Word.limit
  body : o.body.Fits

def Command.Fits : Command → Prop
  | .makeType _ _ _ kind => kind.Fits
  | .setKind _ kind => kind.Fits
  | .addSymbol _ offset _ => offset < Word.limit
  | .setSymbols _ entries => ∀ e ∈ entries, e.1 < Word.limit
  | .makeImage _ _ _ _ _ choice => ∀ a, choice = .given a → a.Fits
  | .addAnalyser a => a.Fits
  | _ => True

theorem AnalyserTable.mem_register {a b : Analyser} {t : AnalyserTable} (h : b ∈ t.register a) :
    b = a ∨ b ∈ t := by
  induction t with
  | nil => exact .inl (List.mem_singleton.mp h)
  | cons c rest ih =>
    unfold register at h
    split at h
    · exact List.mem_cons.mp h
    · split at h
      · rcases List.mem_cons.mp h with hb | hrest
        · exact .inl hb
        · exact .inr (List.mem_cons_of_mem c hrest)
      · rcases List.mem_cons.mp h with hb | hrest
        · exact .inr (hb ▸ List.mem_cons_self)
        · exact (ih hrest).imp_right (List.mem_cons_of_mem c)

namespace Session

structure Fits (s : Session) : Prop where
  objects : ∀ r o, s.heap.get? r = some o → o.Fits
  analysers : ∀ a ∈ s.analysers, a.Fits

section

variable {s s' : Session} {r : Ref} {f : Object → Object} {b : Body}

theorem Fits.of_eq (h : s.Fits) (hheap : s'.heap = s.heap) (hanalysers : s'.analysers = s.analysers) :
    s'.Fits :=
  ⟨hheap ▸ h.objects, hanalysers ▸ h.analysers⟩

theorem Fits.modify (h : s.Fits) (hf : ∀ o, s.heap.get? r = some o → o.Fits → (f o).Fits) :
    Fits { s with heap := s.heap.modify r f } := by
  refine ⟨fun q o ho => ?_, h.analysers⟩
  rw [Heap.get?_modify] at ho
  split at ho
  · rename_i hq
    obtain ⟨o', ho', rfl⟩ := Option.map_eq_some_iff.mp ho
    exact hf o' (hq ▸ ho') (h.objects q o' ho')
  · exact h.objects q o ho

theorem Fits.image (h : s.Fits) {i : Image} (hi : s.heap.image? r = some i) :
    i.analyser.Fits ∧ ∀ l, i.layout = some l → l.Fits := by
  obtain ⟨o, ho, hb⟩ := Option.bind_eq_some_iff.mp hi
  have hfits := (h.objects r o ho).body
  rw [Body.image?_eq_some_iff.mp hb] at hfits
  exact hfits

theorem reactive_fits : Reactive fun s s' => s.Fits → s'.Fits where
  refl _ h := h
  trans _ _ _ h h' hs := h' (h hs)
  forget _ _ h := h.of_eq rfl rfl
  subscribe _ _ _ h := h.of_eq rfl rfl
  write _ _ h := h.of_eq rfl rfl
  store s r i store disk hi _ h := by
    have hfits := h.image hi
    have hset : Fits { s with heap := s.heap.setBody r (.image { i with store }) } :=
      h.modify fun _ _ ho => ⟨ho.id, hfits⟩
    exact hset.of_eq rfl rfl
  remove _ _ h := h.of_eq rfl rfl

theorem Fits.notify (h : s.Fits) (kind : EventKind) (r : Ref) : (s.notify kind r).Fits :=
  reactive_fits.notify s kind r h

theorem Fits.update (h : s.Fits) (hf : ∀ o, s.heap.get? r = some o → o.Fits → (f o).Fits) :
    (s.update r f).Fits :=
  (h.modify hf).notify .changed r

theorem Fits.setBody (h : s.Fits) (hb : b.Fits) : (s.setBody r b).Fits :=
  h.modify fun _ _ ho => ⟨ho.id, hb⟩

theorem Fits.updateBody (h : s.Fits) (hb : b.Fits) : (s.updateBody r b).Fits :=
  h.update fun _ _ ho => ⟨ho.id, hb⟩

theorem Fits.readMeta (h : s.Fits) (record : Json) : (s.readMeta r record).Fits :=
  h.modify fun _ _ ho => ⟨ho.id, ho.body⟩

theorem Fits.table (h : s.Fits) {t : SymbolTable} (ht : s.heap.table? r = some t) :
    ∀ p ∈ t.symbols.toList, p.1 < Word.limit := by
  obtain ⟨o, ho, hb⟩ := Option.bind_eq_some_iff.mp ht
  have hfits := (h.objects r o ho).body
  rw [Body.table?_eq_some_iff.mp hb] at hfits
  exact hfits

theorem Fits.enter (h : s.Fits) {o : Object} (ho : o.Fits) : (s.enter o).2.Fits := by
  unfold Session.enter
  split
  · exact h.of_eq rfl rfl
  · rename_i registry _
    have halloc : Fits { s with registry, heap := (s.heap.alloc o).2 } := by
      refine ⟨fun q o' ho' => ?_, h.analysers⟩
      rw [Heap.get?_alloc] at ho'
      split at ho'
      · cases ho'
        exact ho
      · exact h.objects q o' ho'
    exact halloc.notify .added s.heap.next

theorem Fits.create (h : s.Fits) (id : Option Uuid) (name : String) (hb : b.Fits) :
    (s.create id name b).2.Fits := by
  have hs : (s.identify id).2.Fits := by
    cases id with
    | none => exact h.of_eq rfl rfl
    | some uuid => exact h
  exact hs.enter ⟨HashId.of_lt _ _, hb⟩

theorem Fits.reregister (h : s.Fits) (r : Ref) : (s.reregister r).2.Fits := by
  unfold Session.reregister
  split
  · exact h
  · split
    · exact h.of_eq rfl rfl
    · rename_i registry _
      have hs : Fits { s with registry } := h.of_eq rfl rfl
      exact hs.notify .added r

theorem Fits.discard (h : s.Fits) (id : HashId) : (s.discard id).2.Fits := by
  have hfind : (s.find id).2.Fits := h.of_eq rfl rfl
  unfold Session.discard
  split
  · rename_i hfail
    rwa [hfail] at hfind
  · rename_i q s₁ hfound
    rw [hfound] at hfind
    have hremove := reactive_fits.unregister s₁ id hfind
    split
    · split
      · rename_i hfail
        rwa [hfail] at hremove
      · rename_i hdone
        rwa [hdone] at hremove
    · exact hfind

theorem Fits.unregisterObject (h : s.Fits) (r : Ref) : (s.unregisterObject r).Fits := by
  unfold Session.unregisterObject
  split
  · exact reactive_fits.unregister s _ h
  · exact h

theorem Fits.analyse (h : s.Fits) (r : Ref) : (s.analyse r).2.Fits := by
  unfold Session.analyse
  split
  · exact h
  · rename_i i hi
    obtain ⟨hanalyser, _⟩ := h.image hi
    split
    · rename_i j hj
      obtain ⟨a, ha, _, rfl⟩ := (Image.analyse_eq_ok_iff i j).mp hj
      refine h.updateBody ⟨hanalyser, fun l hl => ?_⟩
      cases hl
      exact hanalyser i.store.bytes a ha
    · exact h

theorem Fits.chooseAnalyser (h : s.Fits) {choice : AnalyserChoice} {a : Analyser}
    (hchoice : ∀ a, choice = .given a → a.Fits) (ha : s.chooseAnalyser choice = .ok a) : a.Fits := by
  unfold Session.chooseAnalyser at ha
  split at ha
  · cases ha
    exact hchoice a rfl
  · split at ha
    · rename_i found hfound
      cases ha
      exact h.analysers a (List.mem_of_find?_eq_some hfound)
    · cases ha

theorem Fits.makeImage (h : s.Fits) (id : Option Uuid) (name : String) (globals : Ref)
    (source : Source) {choice : AnalyserChoice} (hchoice : ∀ a, choice = .given a → a.Fits) :
    (s.makeImage id name globals source choice).2.Fits := by
  unfold Session.makeImage
  split
  · exact h
  · split
    · exact h
    · rename_i a ha
      exact h.create id name ⟨h.chooseAnalyser hchoice ha, nofun⟩

theorem Fits.createImage (h : s.Fits) (name analyser : String) (source : Source) :
    (s.createImage name analyser source).2.Fits := by
  unfold Session.createImage
  split
  · exact h
  · rename_i store _
    split
    · exact h
    · rename_i a ha
      have hanalyser := h.chooseAnalyser (fun _ h => by cases h) ha
      have hglobals := h.create none (name ++ ".global") (b := .table {}) nofun
      let image : Image :=
        { store, analyser := a, globals := (s.create none (name ++ ".global") (.table {})).1 }
      have himage := hglobals.create none name (b := .image image) ⟨hanalyser, nofun⟩
      have hanalyse := himage.analyse ((s.create none (name ++ ".global") (.table {})).2.create none
        name (.image image)).1
      dsimp only
      split
      · rename_i s₂ hdone
        rwa [hdone] at hanalyse
      · rename_i e s₂ hfail
        rw [hfail] at hanalyse
        exact (hanalyse.unregisterObject _).unregisterObject _

theorem Fits.addSymbol (h : s.Fits) (table symbol : Ref) {offset : Nat}
    (hoffset : offset < Word.limit) : (s.addSymbol table offset symbol).2.Fits := by
  unfold Session.addSymbol
  split
  · exact h
  · rename_i t ht
    refine h.updateBody fun p hp => ?_
    rcases KeyMap.mem_toList_insert hp with rfl | hold
    · exact hoffset
    · exact h.table ht p hold

theorem Fits.removeSymbol (h : s.Fits) (table : Ref) (offset : Nat) :
    (s.removeSymbol table offset).2.Fits := by
  unfold Session.removeSymbol
  dsimp only
  split
  · exact h
  · rename_i t ht
    have hasked : (s.surveyed (t.hitReads offset)).Fits := h.of_eq rfl rfl
    split
    · exact hasked
    · exact hasked.updateBody fun p hp => h.table ht p (KeyMap.mem_toList_erase hp)

theorem Fits.setSymbols (h : s.Fits) (table : Ref) {symbols : KeyMap Ref}
    (hsymbols : ∀ p ∈ symbols.toList, p.1 < Word.limit) : (s.setSymbols table symbols).Fits := by
  unfold Session.setSymbols
  split
  · exact h
  · exact h.updateBody hsymbols

theorem Fits.lookup (h : s.Fits) (table : Ref) (offset : Nat) : (s.lookup table offset).2.Fits := by
  unfold Session.lookup
  dsimp only
  split <;> exact h.of_eq rfl rfl

theorem Fits.span (h : s.Fits) (table : Ref) : (s.span table).2.Fits := by
  unfold Session.span
  split
  · exact h
  · exact h.of_eq rfl rfl

theorem Fits.setParent (h : s.Fits) (child : Ref) (parent : Option Ref) :
    (s.setParent child parent).Fits := by
  unfold Session.setParent
  split
  · exact h
  · rename_i t ht
    have ht' := h.table ht
    exact Fits.setBody h ht'

theorem Fits.addChild (h : s.Fits) (table child : Ref) : (s.addChild table child).2.Fits := by
  unfold Session.addChild
  split
  · rename_i t _ _ ht _ _
    have ht' := h.table ht
    split
    · exact h
    · exact (h.setParent child (some table)).updateBody ht'
  · exact h

theorem Fits.removeChild (h : s.Fits) (table : Ref) (id : HashId) :
    (s.removeChild table id).2.Fits := by
  unfold Session.removeChild
  split
  · exact h
  · rename_i t ht
    have ht' := h.table ht
    split
    · exact h
    · rename_i child _
      have hset : (s.setBody table (.table { t with children := t.children.erase child })).Fits :=
        Fits.setBody h ht'
      exact (hset.setParent child none).notify .changed table

theorem Fits.addImage (h : s.Fits) (space image : Ref) : (s.addImage space image).2.Fits := by
  unfold Session.addImage
  split
  · split
    · exact h
    · exact h.updateBody trivial
  · exact h

theorem Fits.removeImage (h : s.Fits) (space : Ref) (id : HashId) :
    (s.removeImage space id).2.Fits := by
  unfold Session.removeImage
  split
  · exact h
  · split
    · exact h
    · exact h.updateBody trivial

theorem Fits.reads (h : s.Fits) (hreads : s.Reads s') : s'.Fits :=
  h.of_eq hreads.heap (by rw [hreads.rest])

theorem Fits.restoreType (h : s.Fits) (r : Ref) (record : Json) :
    (s.restoreType r record).2.Fits := by
  have hmeta := h.readMeta (r := r) record
  unfold Session.restoreType
  dsimp only
  split
  · exact hmeta
  · split
    · rename_i kind hkind
      have hfits : (Body.dataType kind).Fits := TypeKind.fits_of_ofJson? hkind
      exact hmeta.setBody hfits
    · exact hmeta

theorem Fits.restoreSymbol (h : s.Fits) (r : Ref) (y : Symbol) (record : Json) :
    (s.restoreSymbol r y record).2.Fits := by
  have hmeta := h.readMeta (r := r) record
  unfold Session.restoreSymbol
  dsimp only
  split
  · exact hmeta
  · split
    · exact hmeta
    · rename_i id _
      have hfetch := hmeta.reads (fetch_reads _ id .dataType)
      split
      · rename_i hfail
        rwa [hfail] at hfetch
      · rename_i hfound
        rw [hfound] at hfetch
        exact hfetch.setBody trivial

theorem lt_of_entry? {j : Json} {e : Nat × Ref} (h : s.entry? j = some e) : e.1 < Word.limit := by
  obtain ⟨offset, hoffset, h⟩ := Option.bind_eq_some_iff.mp h
  obtain ⟨symbol, _, rfl⟩ := Option.map_eq_some_iff.mp h
  obtain ⟨i, _, hi⟩ := Option.bind_eq_some_iff.mp hoffset
  exact Json.lt_of_word? hi

theorem Fits.adopted (h : s.Fits) (q : Ref) (cs : List Ref) :
    Fits { s with heap := cs.foldl (Heap.adopt q) s.heap } := by
  induction cs generalizing s with
  | nil => exact h
  | cons c rest ih =>
    have hfirst : Fits { s with heap := Heap.adopt q s.heap c } := by
      unfold Heap.adopt
      split
      · rename_i t ht
        have ht' := h.table ht
        exact Fits.setBody h ht'
      · exact h
    exact ih hfirst

theorem Fits.restoreTable (h : s.Fits) (hr : (s.heap.table? r).isSome = true) (id : HashId)
    (record : Json) : (s.restoreTable r id record).2.Fits := by
  rcases restoreTable_cases s r id record with
    ⟨e, s₁, hrun, hreads, _⟩ | ⟨symbols, cs, q, s₁, s₂, hrun, hreads, hsymbols, _, _, hs₂⟩
  · rw [hrun]
    exact h.reads hreads
  · rw [hrun]
    have hrehomed : (s₁.rehomed r q cs record).Fits := ((h.reads hreads).adopted q cs).readMeta record
    have htable : ((s₁.rehomed r q cs record).heap.table? r).isSome = true := by
      rw [isSome_table?_rehomed, hreads.heap, hr]
    obtain ⟨t, ht⟩ := Option.isSome_iff_exists.mp htable
    rw [hs₂ t ht]
    obtain ⟨items, _, hitems⟩ := Option.bind_eq_some_iff.mp hsymbols
    refine hrehomed.updateBody fun p hp => ?_
    obtain ⟨j, _, hj⟩ := exists_of_mem_mapM hitems (KeyMap.mem_of_mem_ofList hp)
    exact lt_of_entry? hj

theorem Fits.restoreImage (h : s.Fits) {i : Image} (hi : s.heap.image? r = some i) (record : Json) :
    (s.restoreImage r i record).2.Fits := by
  have hmeta := h.readMeta (r := r) record
  obtain ⟨hanalyser, hlayout⟩ := h.image hi
  unfold Session.restoreImage
  split
  · exact hmeta.notify .changed r
  · split
    · exact h
    · rename_i l hl
      refine hmeta.updateBody ?_
      unfold Image.restoreLayout
      split
      · refine ⟨hanalyser, fun l' hl' => ?_⟩
        cases hl'
        exact Layout.fits_of_ofJson? hl
      · exact ⟨hanalyser, hlayout⟩

theorem Fits.restoreSpace (h : s.Fits) (r : Ref) (record : Json) :
    (s.restoreSpace r record).2.Fits := by
  unfold Session.restoreSpace
  split
  · exact h
  · rename_i items _
    have hread := h.reads (readEach_reads (readId_reads .image .imageId) s items)
    split
    · rename_i hfail
      rwa [hfail] at hread
    · rename_i hdone
      rw [hdone] at hread
      exact (hread.readMeta record).setBody trivial

theorem Fits.restore (h : s.Fits) (r : Ref) (record : Json) : (s.restore r record).2.Fits := by
  unfold Session.restore
  split
  · exact h
  · rename_i o ho
    split
    · exact h.restoreType r record
    · exact h.restoreSymbol r _ record
    · rename_i hb
      exact h.restoreTable (by simp [Heap.table?, ho, hb, Body.table?]) o.id record
    · rename_i hb
      exact h.restoreImage (by simp [Heap.image?, ho, hb, Body.image?]) record
    · exact h.restoreSpace r record

theorem Fits.hold (h : s.Fits) (handle : String) (r : Ref) : (s.hold handle r).2.Fits := by
  unfold Session.hold
  split
  · exact h.of_eq rfl rfl
  · exact h

theorem fits_holdResult {result : Except Error Ref × Session} (h : result.2.Fits)
    (handle : String) : (holdResult handle result).2.Fits := by
  unfold holdResult
  split
  · exact Fits.hold h handle _
  · exact h

theorem fits_answerUnit {result : Except Error Unit × Session} (h : result.2.Fits) :
    (answerUnit result).2.Fits := by
  unfold answerUnit
  split <;> exact h

theorem fits_answerObject {result : Except LookupError Ref × Session} (h : result.2.Fits) :
    (answerObject result).2.Fits := by
  unfold answerObject
  split
  · split <;> exact h
  · exact h

theorem Fits.addAnalyser (h : s.Fits) {a : Analyser} (ha : a.Fits) :
    Fits { s with analysers := s.analysers.register a } := by
  refine ⟨h.objects, fun b hb => ?_⟩
  rcases AnalyserTable.mem_register hb with rfl | hold
  · exact ha
  · exact h.analysers b hold

theorem Fits.withHandle (h : s.Fits) {handle : String} {next : Ref → Outcome}
    (hnext : ∀ r, (next r).2.Fits) : (s.withHandle handle next).2.Fits :=
  withHandle_elim h fun r _ => hnext r

theorem Fits.perform (h : s.Fits) {command : Command} (hc : command.Fits) :
    (s.perform command).2.Fits := by
  cases command with
  | makeType handle id name kind => exact (h.create id name (b := .dataType kind) hc).hold handle _
  | makeSymbol handle id name kind type =>
    exact h.withHandle fun type => (h.create id name (b := .symbol _) trivial).hold handle _
  | makeTable handle id name => exact (h.create id name (b := .table {}) nofun).hold handle _
  | makeSpace handle id name => exact (h.create id name (b := .space []) trivial).hold handle _
  | makeImage handle id name table source choice =>
    exact h.withHandle fun globals => fits_holdResult (h.makeImage id name globals source hc) handle
  | createImage handle name analyser source =>
    exact fits_holdResult (h.createImage name analyser source) handle
  | holdGlobals handle image =>
    refine h.withHandle fun r => ?_
    split
    · exact h.hold handle _
    · exact h
  | drop handle => exact h.of_eq rfl rfl
  | setName object name => exact h.withHandle fun r => h.update fun _ _ ho => ⟨ho.id, ho.body⟩
  | setComment object comment => exact h.withHandle fun r => h.update fun _ _ ho => ⟨ho.id, ho.body⟩
  | setTemporary object value => exact h.withHandle fun r => h.modify fun _ _ ho => ⟨ho.id, ho.body⟩
  | restore object record => exact h.withHandle fun r => fits_answerUnit (h.restore r record)
  | register object => exact h.withHandle fun r => h.reregister r
  | setKind type kind =>
    refine h.withHandle fun r => ?_
    split
    · exact h.updateBody (b := .dataType kind) hc
    · exact h
  | measure type => exact h.withHandle fun r => h.of_eq rfl rfl
  | setType symbol type =>
    refine h.withHandle fun r => h.withHandle fun type => ?_
    split
    · exact h.updateBody (b := .symbol _) trivial
    · exact h
  | extent symbol => exact h.withHandle fun r => h.of_eq rfl rfl
  | addSymbol table offset symbol =>
    exact h.withHandle fun t => h.withHandle fun r => h.addSymbol t r hc
  | removeSymbol table offset =>
    refine h.withHandle fun t => ?_
    have hremove := h.removeSymbol t offset
    split <;> rename_i hdone <;> rwa [hdone] at hremove
  | lookup table offset =>
    refine h.withHandle fun t => ?_
    have hlookup := h.lookup t offset
    split <;> rename_i hdone <;> rwa [hdone] at hlookup
  | span table => exact h.withHandle fun t => h.span t
  | setSymbols table entries =>
    refine h.withHandle fun t => ?_
    split
    · rename_i refs hrefs
      refine h.setSymbols t fun p hp => ?_
      obtain ⟨e, he, hp⟩ := exists_of_mem_mapM hrefs (KeyMap.mem_of_mem_ofList hp)
      obtain ⟨r, _, rfl⟩ := Option.map_eq_some_iff.mp hp
      exact hc e he
    · exact h
  | addChild table child => exact h.withHandle fun t => h.withHandle fun c => h.addChild t c
  | removeChild table child => exact h.withHandle fun t => h.removeChild t child
  | render table indent levels => exact h.withHandle fun t => h.of_eq rfl rfl
  | analyse image => exact h.withHandle fun r => fits_answerUnit (h.analyse r)
  | writeRaw image file data =>
    exact h.withHandle fun r => fits_answerUnit (reactive_fits.writeRaw s r file data h)
  | flush image => exact h.withHandle fun r => fits_answerUnit (reactive_fits.flush s r h)
  | addAnalyser analyser => exact h.addAnalyser hc
  | outside disk => exact h.of_eq rfl rfl
  | addImage space image => exact h.withHandle fun r => h.withHandle fun i => h.addImage r i
  | removeImage space image => exact h.withHandle fun r => h.removeImage r image
  | find id =>
    have hfind : (s.find id).2.Fits := h.of_eq rfl rfl
    exact fits_answerObject hfind
  | findAs id c => exact fits_answerObject (h.reads (fetch_reads s id c))
  | remove id => exact fits_answerObject (reactive_fits.unregister s id h)
  | discard id =>
    have hdiscard := h.discard id
    simp only [Session.perform]
    split <;> rename_i hdone <;> rwa [hdone] at hdiscard
  | prune => exact h.of_eq rfl rfl
  | subscribe observer => exact h.of_eq rfl rfl
  | unsubscribe subscription => exact h.of_eq rfl rfl

theorem Fits.settle (h : s.Fits) : s.settle.Fits :=
  ⟨fun r o ho => h.objects r o (Heap.get?_of_release ho), h.analysers⟩

theorem fits_initial (config : Config) (supply : Nat → Uuid) : (initial config supply).Fits := by
  refine ⟨nofun, fun a ha => ?_⟩
  rcases AnalyserTable.mem_register ha with rfl | ha
  · exact Analyser.fits_flat 0
  · rcases AnalyserTable.mem_register ha with rfl | hnone
    · exact Analyser.fits_portableExecutable config.analysis
    · cases hnone

end

inductive Reachable : Session → Prop
  | initial (config : Config) (supply : Nat → Uuid) : Reachable (initial config supply)
  | run {s : Session} (command : Command) (reachable : Reachable s) (fits : command.Fits) :
      Reachable (s.run command).2

theorem Reachable.runs {s : Session} {commands : List Command} (hs : s.Reachable)
    (hfits : ∀ command ∈ commands, command.Fits) :
    (commands.foldl (fun s command => (s.run command).2) s).Reachable := by
  induction commands generalizing s with
  | nil => exact hs
  | cons command rest ih =>
    exact ih (hs.run command (hfits command List.mem_cons_self))
      fun c hc => hfits c (List.mem_cons_of_mem command hc)

theorem Reachable.fits {s : Session} (hs : s.Reachable) : s.Fits := by
  induction hs with
  | initial config supply => exact fits_initial config supply
  | run command _ fits ih => exact (ih.perform fits).settle

end Session

end BinaryAtlas
