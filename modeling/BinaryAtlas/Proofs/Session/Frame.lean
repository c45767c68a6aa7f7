import BinaryAtlas.Proofs.Session.Create
import BinaryAtlas.Proofs.Session.Records
import BinaryAtlas.Session.Command

namespace BinaryAtlas

def Command.arranges : Command → Bool
  | .addChild _ _ => true
  | .removeChild _ _ => true
  | .addImage _ _ => true
  | .removeImage _ _ => true
  | _ => false

def Body.Lone : Body → Prop
  | .table t => t.parent = none ∧ t.children = []
  | .space images => images = []
  | _ => True

namespace Session

variable {β : Type} {view : Object → β} {fresh : β → Prop} {s s' : Session} {r : Ref} {o : Object}

theorem withHandle_elim {P : Session → Prop} {s : Session} {handle : String}
    {next : Ref → Outcome} (hs : P s) (hnext : ∀ r, s.handle? handle = some r → P (next r).2) :
    P (s.withHandle handle next).2 := by
  unfold withHandle
  split
  · rename_i r hr
    exact hnext r hr
  · exact hs

theorem withHandle_keeps {handle : String} {next : Ref → Outcome}
    (hnext : ∀ r, s.handle? handle = some r → s.heap.Keeps view fresh (next r).2.heap) :
    s.heap.Keeps view fresh (s.withHandle handle next).2.heap :=
  withHandle_elim (P := fun s' => s.heap.Keeps view fresh s'.heap) (.refl _) hnext

theorem hold_heap (s : Session) (handle : String) (r : Ref) :
    (s.hold handle r).2.heap = s.heap := by
  unfold hold
  split <;> rfl

theorem hold_keeps (hk : s.heap.Keeps view fresh s'.heap) (handle : String) (r : Ref) :
    s.heap.Keeps view fresh (s'.hold handle r).2.heap := by
  rw [hold_heap]
  exact hk

theorem holdResult_keeps {result : Except Error Ref × Session}
    (hk : s.heap.Keeps view fresh result.2.heap) (handle : String) :
    s.heap.Keeps view fresh (holdResult handle result).2.heap := by
  unfold holdResult
  split
  · exact hold_keeps hk handle _
  · exact hk

theorem answerUnit_snd (result : Except Error Unit × Session) : (answerUnit result).2 = result.2 := by
  unfold answerUnit
  split <;> rfl

theorem answerUnit_keeps {result : Except Error Unit × Session}
    (hk : s.heap.Keeps view fresh result.2.heap) :
    s.heap.Keeps view fresh (answerUnit result).2.heap := by
  rw [answerUnit_snd]
  exact hk

theorem answerObject_keeps {result : Except LookupError Ref × Session}
    (hk : s.heap.Keeps view fresh result.2.heap) :
    s.heap.Keeps view fresh (answerObject result).2.heap := by
  unfold answerObject
  split
  · split <;> exact hk
  · exact hk

theorem lookup_keeps (s : Session) (table : Ref) (offset : Nat) :
    s.heap.Keeps view fresh (s.lookup table offset).2.heap := by
  unfold lookup
  dsimp only
  split <;> exact .refl _

theorem span_keeps (s : Session) (table : Ref) :
    s.heap.Keeps view fresh (s.span table).2.heap := by
  unfold span
  split <;> exact .refl _

/-- The view sees of an object neither its labels, nor what it holds if it is a type, a symbol or
an image, nor the entries of a table. What is neither nested nor listed looks `fresh`. -/
structure Aloof (view : Object → β) (fresh : β → Prop) : Prop where
  labels : ∀ (o : Object) (name comment : String) (temporary : Bool),
    view { o with name, comment, temporary } = view o
  leaf : ∀ (o : Object) (b : Body), b.classOf = o.body.classOf → b.classOf ≠ .symbolTable →
    b.classOf ≠ .addressSpace → view { o with body := b } = view o
  entries : ∀ (o : Object) (t : SymbolTable) (symbols : KeyMap Ref), o.body = .table t →
    view { o with body := .table { t with symbols } } = view o
  lone : ∀ o : Object, o.body.Lone → fresh (view o)

section

variable (hv : Aloof view fresh)

include hv

theorem Aloof.storeBlind : StoreBlind view := fun o i store hi =>
  hv.leaf o (.image { i with store }) (by rw [hi]; rfl) nofun nofun

theorem Aloof.notify (s : Session) (kind : EventKind) (r : Ref) :
    s.heap.Keeps view fresh (s.notify kind r).heap :=
  notify_keeps hv.storeBlind s kind r

theorem Aloof.create (s : Session) (id : Option Uuid) (name : String) {b : Body} (hb : b.Lone) :
    s.heap.Keeps view fresh (s.create id name b).2.heap :=
  create_keeps hv.storeBlind s id name fun _ => hv.lone _ hb

theorem Aloof.readMeta (s : Session) (r : Ref) (record : Json) :
    s.heap.Keeps view fresh (s.readMeta r record).heap :=
  .modify fun o _ => hv.labels o _ _ o.temporary

theorem Aloof.setBody (ho : s.heap.get? r = some o) {b : Body} (hb : b.classOf = o.body.classOf)
    (htable : b.classOf ≠ .symbolTable) (hspace : b.classOf ≠ .addressSpace) :
    s.heap.Keeps view fresh (s.setBody r b).heap := by
  refine .modify fun o' ho' => ?_
  cases ho.symm.trans ho'
  exact hv.leaf o b hb htable hspace

theorem Aloof.updateBody (ho : s.heap.get? r = some o) {b : Body}
    (hb : b.classOf = o.body.classOf) (htable : b.classOf ≠ .symbolTable)
    (hspace : b.classOf ≠ .addressSpace) : s.heap.Keeps view fresh (s.updateBody r b).heap :=
  (hv.setBody ho hb htable hspace).trans (hv.notify (s.setBody r b) .changed r)

theorem Aloof.updateSymbols {t : SymbolTable} (ht : s.heap.table? r = some t)
    (symbols : KeyMap Ref) :
    s.heap.Keeps view fresh (s.updateBody r (.table { t with symbols })).heap := by
  obtain ⟨o, ho, hb⟩ := Heap.table?_eq_some_iff.mp ht
  refine update_keeps hv.storeBlind fun o' ho' => ?_
  cases ho.symm.trans ho'
  exact hv.entries o t symbols hb

theorem Aloof.analyse (s : Session) (r : Ref) :
    s.heap.Keeps view fresh (s.analyse r).2.heap := by
  unfold Session.analyse
  split
  · exact .refl _
  · rename_i i hi
    obtain ⟨o, ho, hb⟩ := Heap.image?_eq_some_iff.mp hi
    split
    · exact hv.updateBody ho (by rw [hb]; rfl) nofun nofun
    · exact .refl _

theorem Aloof.createImage (s : Session) (name analyser : String) (source : Source) :
    s.heap.Keeps view fresh (s.createImage name analyser source).2.heap := by
  unfold Session.createImage
  split
  · exact .refl _
  · rename_i store _
    split
    · exact .refl _
    · rename_i a _
      let made := s.create none (name ++ ".global") (.table {})
      have hmade : s.heap.Keeps view fresh made.2.heap := hv.create s _ _ ⟨rfl, rfl⟩
      let image : Image := { store, analyser := a, globals := made.1 }
      have himage : s.heap.Keeps view fresh (made.2.create none name (.image image)).2.heap :=
        hmade.trans (hv.create made.2 none name trivial)
      dsimp only
      split
      · rename_i s₂ hanalyse
        exact himage.trans (keeps_of_eq hanalyse (hv.analyse _ _))
      · rename_i e s₂ hanalyse
        have hs₂ : s.heap.Keeps view fresh s₂.heap :=
          himage.trans (keeps_of_eq hanalyse (hv.analyse _ _))
        exact hs₂.trans ((unregisterObject_keeps hv.storeBlind s₂ _).trans
          (unregisterObject_keeps hv.storeBlind _ _))

theorem Aloof.addSymbol (s : Session) (table : Ref) (offset : Nat) (symbol : Ref) :
    s.heap.Keeps view fresh (s.addSymbol table offset symbol).2.heap := by
  unfold Session.addSymbol
  split
  · exact .refl _
  · rename_i t ht
    exact hv.updateSymbols ht _

theorem Aloof.removeSymbol (s : Session) (table : Ref) (offset : Nat) :
    s.heap.Keeps view fresh (s.removeSymbol table offset).2.heap := by
  unfold Session.removeSymbol
  dsimp only
  split
  · exact .refl _
  · rename_i t ht
    split
    · exact .refl _
    · exact hv.updateSymbols (s := s.surveyed (t.hitReads offset)) ht _

theorem Aloof.setSymbols (s : Session) (table : Ref) (symbols : KeyMap Ref) :
    s.heap.Keeps view fresh (s.setSymbols table symbols).heap := by
  unfold Session.setSymbols
  split
  · exact .refl _
  · rename_i t ht
    exact hv.updateSymbols ht _

section

variable (ho : s.heap.get? r = some o) (record : Json)

include ho

theorem Aloof.setBody_readMeta {b : Body} (hb : b.classOf = o.body.classOf)
    (htable : b.classOf ≠ .symbolTable) (hspace : b.classOf ≠ .addressSpace) :
    s.heap.Keeps view fresh ((s.readMeta r record).setBody r b).heap := by
  have ho₁ : (s.readMeta r record).heap.get? r = some (o.readMeta record) := by
    rw [get?_readMeta ho, if_pos rfl]
  exact (hv.readMeta s r record).trans (hv.setBody ho₁ hb htable hspace)

theorem Aloof.restoreType {k : TypeKind} (hb : o.body = .dataType k) :
    s.heap.Keeps view fresh (s.restoreType r record).2.heap := by
  have hs := hv.readMeta s r record
  unfold Session.restoreType
  dsimp only
  split
  · exact hs
  · split
    · exact hv.setBody_readMeta ho record (by rw [hb]; rfl) nofun nofun
    · exact hs

theorem Aloof.restoreSymbol {y : Symbol} (hb : o.body = .symbol y) :
    s.heap.Keeps view fresh (s.restoreSymbol r y record).2.heap := by
  have hs := hv.readMeta s r record
  unfold Session.restoreSymbol
  dsimp only
  split
  · exact hs
  · split
    · exact hs
    · rename_i id _
      split
      · rename_i hfetch
        exact hs.trans (keeps_of_eq hfetch (fetch_keeps _ id .dataType))
      · rename_i s₁ hfetch
        cases congrArg Prod.snd hfetch
        exact hv.setBody_readMeta ho record (by rw [hb]; rfl) nofun nofun

theorem Aloof.restoreImage {i : Image} (hb : o.body = .image i) :
    s.heap.Keeps view fresh (s.restoreImage r i record).2.heap := by
  unfold Session.restoreImage
  split
  · exact (hv.readMeta s r record).trans (hv.notify _ .changed r)
  · split
    · exact .refl _
    · rename_i l _
      have hset := hv.setBody_readMeta ho record (b := .image (i.restoreLayout l))
        (by rw [hb]; rfl) nofun nofun
      exact hset.trans (hv.notify _ .changed r)

end

theorem Aloof.restore (s : Session) (r : Ref) (record : Json)
    (htable : ∀ o t, s.heap.get? r = some o → o.body = .table t →
      s.heap.Keeps view fresh (s.restoreTable r o.id record).2.heap)
    (hspace : ∀ o images, s.heap.get? r = some o → o.body = .space images →
      s.heap.Keeps view fresh (s.restoreSpace r record).2.heap) :
    s.heap.Keeps view fresh (s.restore r record).2.heap := by
  unfold Session.restore
  split
  · exact .refl _
  · rename_i o ho
    split
    · rename_i hb
      exact hv.restoreType ho record hb
    · rename_i hb
      exact hv.restoreSymbol ho record hb
    · rename_i t hb
      exact htable o t ho hb
    · rename_i hb
      exact hv.restoreImage ho record hb
    · rename_i images hb
      exact hspace o images ho hb

theorem Aloof.perform (s : Session) (c : Command)
    (harranges : c.arranges = true → s.heap.Keeps view fresh (s.perform c).2.heap)
    (hrestores : ∀ object record r, c = .restore object record → s.handle? object = some r →
      s.heap.Keeps view fresh (s.restore r record).2.heap) :
    s.heap.Keeps view fresh (s.perform c).2.heap := by
  cases c with
  | makeType handle id name kind =>
    exact hold_keeps (hv.create s id name (b := .dataType kind) trivial) handle _
  | makeSymbol handle id name kind type =>
    exact withHandle_keeps fun type _ =>
      hold_keeps (hv.create s id name (b := .symbol { kind, type }) trivial) handle _
  | makeTable handle id name =>
    exact hold_keeps (hv.create s id name (b := .table {}) ⟨rfl, rfl⟩) handle _
  | makeSpace handle id name =>
    exact hold_keeps (hv.create s id name (b := .space []) rfl) handle _
  | makeImage handle id name table source analyser =>
    refine withHandle_keeps fun _ _ => holdResult_keeps ?_ handle
    exact makeImage_keeps hv.storeBlind s id name _ source analyser fun _ _ => hv.lone _ trivial
  | createImage handle name analyser source =>
    exact holdResult_keeps (hv.createImage s name analyser source) handle
  | holdGlobals handle image =>
    refine withHandle_keeps fun r _ => ?_
    split
    · exact hold_keeps (.refl _) handle _
    · exact .refl _
  | drop handle => exact .refl _
  | setName object name =>
    exact withHandle_keeps fun _ _ =>
      update_keeps hv.storeBlind fun o _ => hv.labels o name o.comment o.temporary
  | setComment object comment =>
    exact withHandle_keeps fun _ _ =>
      update_keeps hv.storeBlind fun o _ => hv.labels o o.name comment o.temporary
  | setTemporary object value =>
    exact withHandle_keeps fun _ _ => .modify fun o _ => hv.labels o o.name o.comment value
  | restore object record =>
    exact withHandle_keeps fun r hr => answerUnit_keeps (hrestores object record r rfl hr)
  | register object => exact withHandle_keeps fun r _ => reregister_keeps hv.storeBlind s r
  | setKind type kind =>
    refine withHandle_keeps fun r _ => ?_
    split
    · rename_i k hk
      obtain ⟨o, ho, hb⟩ := Option.bind_eq_some_iff.mp hk
      rw [Body.kind?_eq_some_iff] at hb
      exact hv.updateBody ho (by rw [hb]; rfl) nofun nofun
    · exact .refl _
  | measure type => exact withHandle_keeps fun _ _ => .refl _
  | setType symbol type =>
    refine withHandle_keeps fun r _ => withHandle_keeps fun _ _ => ?_
    split
    · rename_i y hy
      obtain ⟨o, ho, hb⟩ := Option.bind_eq_some_iff.mp hy
      rw [Body.symbol?_eq_some_iff] at hb
      exact hv.updateBody ho (by rw [hb]; rfl) nofun nofun
    · exact .refl _
  | extent symbol => exact withHandle_keeps fun _ _ => .refl _
  | addSymbol table offset symbol =>
    exact withHandle_keeps fun t _ => withHandle_keeps fun r _ => hv.addSymbol s t offset r
  | removeSymbol table offset =>
    refine withHandle_keeps fun t _ => ?_
    split <;> exact keeps_of_eq ‹_› (hv.removeSymbol s t offset)
  | lookup table offset =>
    refine withHandle_keeps fun t _ => ?_
    split <;> exact keeps_of_eq ‹_› (lookup_keeps s t offset)
  | span table => exact withHandle_keeps fun t _ => span_keeps s t
  | setSymbols table entries =>
    refine withHandle_keeps fun t _ => ?_
    split
    · exact hv.setSymbols s t _
    · exact .refl _
  | addChild table child => exact harranges rfl
  | removeChild table child => exact harranges rfl
  | render table indent levels => exact withHandle_keeps fun _ _ => .refl _
  | analyse image => exact withHandle_keeps fun r _ => answerUnit_keeps (hv.analyse s r)
  | writeRaw image file data =>
    exact withHandle_keeps fun r _ =>
      answerUnit_keeps (writeRaw_keeps hv.storeBlind s r file data)
  | flush image =>
    exact withHandle_keeps fun r _ => answerUnit_keeps (flush_keeps hv.storeBlind s r)
  | addAnalyser analyser => exact .refl _
  | outside disk => exact .refl _
  | addImage space image => exact harranges rfl
  | removeImage space image => exact harranges rfl
  | find id => exact answerObject_keeps (find_keeps s id)
  | findAs id c => exact answerObject_keeps (fetch_keeps s id c)
  | remove id => exact answerObject_keeps (unregister_keeps hv.storeBlind s id)
  | discard id =>
    simp only [Session.perform]
    split <;> exact keeps_of_eq ‹_› (discard_keeps hv.storeBlind s id)
  | prune => exact .refl _
  | subscribe observer => exact .refl _
  | unsubscribe subscription => exact .refl _

end

end Session

end BinaryAtlas
