import BinaryAtlas.Proofs.Nesting.Heap
import BinaryAtlas.Proofs.Session.Notify
import BinaryAtlas.Proofs.Session.Records

namespace BinaryAtlas.Session

variable {s s' s₁ : Session} {r : Ref} {u : SymbolTable}

structure SameSizes (s s' : Session) : Prop where
  config : s'.config = s.config
  symbols : s'.heap.symbol? = s.heap.symbol?
  kinds : s'.heap.kind? = s.heap.kind?
  live : s'.live = s.live
  answers : ∀ id, s'.registry.get? s.live id = s.registry.get? s.live id

theorem SameSizes.of_heap (hheap : s'.heap = s.heap) (hconfig : s'.config = s.config)
    (hanswers : ∀ id, s'.registry.get? s.live id = s.registry.get? s.live id) : s.SameSizes s' where
  config := hconfig
  symbols := by rw [hheap]
  kinds := by rw [hheap]
  live := by rw [Session.live, hheap, Session.live]
  answers := hanswers

theorem SameSizes.reads (h : s.Reads s') : s.SameSizes s' :=
  .of_heap h.heap (by rw [h.rest]) h.answers

theorem SameSizes.trans (h : s.SameSizes s₁) (h₁ : s₁.SameSizes s') : s.SameSizes s' where
  config := h₁.config.trans h.config
  symbols := h₁.symbols.trans h.symbols
  kinds := h₁.kinds.trans h.kinds
  live := h₁.live.trans h.live
  answers id := by rw [← h.answers, ← h.live, h₁.answers]

theorem SameSizes.extent (h : s.SameSizes s') : s'.extent = s.extent := by
  have hresolve : s'.resolve = s.resolve := by
    funext id
    simp only [resolve, Registry.getAs, h.live, h.answers, h.kinds]
  have hsize : s'.sizeOf = s.sizeOf := by
    funext type
    simp only [sizeOf, h.kinds, h.config, hresolve]
  funext symbol
  simp only [Session.extent, h.symbols, hsize]

theorem SameSizes.setBody {o : Object} {b : Body} (ho : s.heap.get? r = some o)
    (hclass : b.classOf = o.body.classOf) (hsymbol : b.symbol? = o.body.symbol?)
    (hkind : b.kind? = o.body.kind?) (disk : Disk) :
    s.SameSizes { s with heap := s.heap.setBody r b, disk } where
  config := rfl
  symbols := funext fun q => Heap.bind_setBody (·.body.symbol?) ho hsymbol q
  kinds := funext fun q => Heap.bind_setBody (·.body.kind?) ho hkind q
  live := by
    funext q
    show ((s.heap.setBody r b).get? q).map (·.classOf) = (s.heap.get? q).map (·.classOf)
    rw [Option.map_eq_bind, Option.map_eq_bind]
    exact Heap.bind_setBody (some ∘ Object.classOf) ho (congrArg some hclass) q
  answers _ := rfl

theorem attentive_sameSizes : Attentive SameSizes where
  refl _ := .of_heap rfl rfl fun _ => rfl
  trans _ _ _ := .trans
  subscribe _ _ _ := .of_heap rfl rfl fun _ => rfl
  write _ _ := .of_heap rfl rfl fun _ => rfl

theorem sameSizes_patch (s : Session) (tag : String) (x : Ref) : s.SameSizes (s.patch tag x) := by
  refine attentive_sameSizes.patch ?_ ?_ s tag x
  · intro s r i store disk hi _
    obtain ⟨o, ho, hb⟩ := Heap.image?_eq_some_iff.mp hi
    exact .setBody ho (by rw [hb]; rfl) (by rw [hb]; rfl) (by rw [hb]; rfl) disk
  · intro s id
    exact .reads (fetch_reads s id .image)

theorem sameSizes_notify (s : Session) (x : Ref) : s.SameSizes (s.notify .changed x) :=
  attentive_sameSizes.notify_changed fun p _ _ s => sameSizes_patch s p.2.tag x

theorem reactive_tables : Reactive fun s s' => s'.heap.table? = s.heap.table? where
  refl _ := rfl
  trans _ _ _ h h' := h'.trans h
  forget _ _ := rfl
  subscribe _ _ _ := rfl
  write _ _ := rfl
  store s x i store _ hi _ := by
    obtain ⟨o, ho, hb⟩ := Heap.image?_eq_some_iff.mp hi
    exact funext fun q => Heap.bind_setBody (·.body.table?) ho (by rw [hb]; rfl) q
  remove _ _ := rfl

theorem setBody_setBody (s : Session) (r : Ref) (b b' : Body) :
    (s.setBody r b).setBody r b' = s.setBody r b' := by
  simp only [setBody, Heap.setBody_setBody]

section

variable (hr : s.heap.table? r = some u)

include hr

theorem sameSizes_setBody (t : SymbolTable) : s.SameSizes (s.setBody r (.table t)) := by
  obtain ⟨o, ho, hb⟩ := Heap.table?_eq_some_iff.mp hr
  exact .setBody ho (by rw [hb]; rfl) (by rw [hb]; rfl) (by rw [hb]; rfl) s.disk

theorem observe_setBody (t : SymbolTable) (tag : String) (kind : EventKind) (x : Ref) :
    (s.setBody r (.table t)).observe tag kind x = (s.observe tag kind x).setBody r (.table t) := by
  obtain ⟨o, ho, hb⟩ := Heap.table?_eq_some_iff.mp hr
  have hget := Heap.get?_setBody ho (.table t) x
  by_cases hx : x = r
  · subst hx
    rw [if_pos rfl] at hget
    simp only [observe, setBody, hget, ho, write, Object.classOf, hb, Body.classOf]
  · rw [if_neg hx] at hget
    simp only [observe, setBody, hget]
    cases s.heap.get? x <;> rfl

theorem fetch_setBody (t : SymbolTable) (id : HashId) (c : ObjectClass) :
    (s.setBody r (.table t)).fetch id c =
      ((s.fetch id c).1, (s.fetch id c).2.setBody r (.table t)) := by
  have hlive : (s.setBody r (.table t)).live = s.live := (sameSizes_setBody hr t).live
  simp only [fetch, hlive]
  rfl

theorem updateImage_setBody (t : SymbolTable) (x : Ref)
    (f : Image → Disk → Except Error Unit × Image × Disk) :
    (s.setBody r (.table t)).updateImage x f =
      ((s.updateImage x f).1, (s.updateImage x f).2.setBody r (.table t)) := by
  obtain ⟨o, ho, hb⟩ := Heap.table?_eq_some_iff.mp hr
  have himage : (s.setBody r (.table t)).heap.image? x = s.heap.image? x :=
    Heap.bind_setBody (·.body.image?) ho (by rw [hb]; rfl) x
  unfold updateImage
  rw [himage]
  cases hi : s.heap.image? x with
  | none => rfl
  | some i =>
    have hx : x ≠ r := by
      rintro rfl
      simp [Heap.image?, ho, hb, Body.image?] at hi
    simp only [setBody, Heap.setBody_comm hx]

theorem patch_setBody (t : SymbolTable) (tag : String) (x : Ref) :
    (s.setBody r (.table t)).patch tag x = (s.patch tag x).setBody r (.table t) := by
  obtain ⟨o, ho, _⟩ := Heap.table?_eq_some_iff.mp hr
  have hid : (s.setBody r (.table t)).heap.id? x = s.heap.id? x := by
    rw [Heap.id?, Heap.id?, Option.map_eq_bind, Option.map_eq_bind]
    exact Heap.bind_setBody (some ∘ (·.id)) ho (by rfl) x
  unfold patch
  rw [hid]
  cases s.heap.id? x with
  | none => rfl
  | some id =>
    dsimp only
    rw [fetch_setBody hr]
    rcases hfound : s.fetch id .image with ⟨e | image, s₁⟩
    · rfl
    · have hr₁ : s₁.heap.table? r = some u := by
        have hheap := (fetch_reads s id .image).heap
        rw [hfound] at hheap
        rw [hheap, hr]
      have hr₂ : (s₁.flush image).2.heap.table? r = some u := by
        rw [reactive_tables.flush s₁ image, hr₁]
      have hflush : (s₁.setBody r (.table t)).flush image =
          ((s₁.flush image).1, (s₁.flush image).2.setBody r (.table t)) :=
        updateImage_setBody hr₁ t image Image.flush
      have hwrite := updateImage_setBody hr₂ t image fun i disk =>
        ((i.writeRaw 0 [0x90]).1, (i.writeRaw 0 [0x90]).2, disk)
      simp only [hflush, writeRaw, hwrite]
      rfl

theorem reactQuietly_setBody (t : SymbolTable) (kind : EventKind) (x : Ref)
    (subscription : Nat × Observer) :
    reactQuietly kind x (s.setBody r (.table t)) subscription =
      (reactQuietly kind x s subscription).setBody r (.table t) := by
  obtain ⟨handle, observer⟩ := subscription
  have hobserve := observe_setBody hr t observer.tag kind x
  have hr₁ : (s.observe observer.tag kind x).heap.table? r = some u := by
    rw [reactive_tables.observe s observer.tag kind x, hr]
  have hspent : ∀ s : Session, (s.setBody r (.table t)).spent = s.spent := fun _ => rfl
  cases hreaction : observer.reaction with
  | silent => simp only [reactQuietly, hreaction]
  | record => simp only [reactQuietly, hreaction, hobserve]
  | reap _ => simp only [reactQuietly, hreaction, hobserve]
  | once =>
    simp only [reactQuietly, hreaction, hobserve, hspent]
    split <;> rfl
  | spawn =>
    simp only [reactQuietly, hreaction, hobserve, hspent]
    split <;> rfl
  | patch =>
    simp only [reactQuietly, hreaction, hobserve, patch_setBody hr₁]
    split <;> rfl

theorem notify_setBody (t : SymbolTable) (x : Ref) :
    (s.setBody r (.table t)).notify .changed x = (s.notify .changed x).setBody r (.table t) := by
  rw [notify_changed, notify_changed]
  have hfold : ∀ (l : List (Nat × Observer)) (s : Session), s.heap.table? r = some u →
      l.foldl (reactQuietly .changed x) (s.setBody r (.table t)) =
        (l.foldl (reactQuietly .changed x) s).setBody r (.table t) := by
    intro l
    induction l with
    | nil => exact fun _ _ => rfl
    | cons p rest ih =>
      intro s hr
      rw [List.foldl_cons, List.foldl_cons, reactQuietly_setBody hr]
      apply ih
      rw [reactive_tables.reactQuietly .changed x s p, hr]
  exact hfold s.chain.active s hr

end

end BinaryAtlas.Session
