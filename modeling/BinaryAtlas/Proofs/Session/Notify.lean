import BinaryAtlas.Proofs.Heap
import BinaryAtlas.Proofs.Store
import BinaryAtlas.Session.Notify

/-!
What observers can do to a session. A reaction writes to the stores of images at most, and beside
objects it touches registry, subscriptions, disk and log. So a notification keeps every view of the
objects that leaves the stores out, and it keeps what is held. No reaction makes a store smaller,
and to a change only patches react with more than notes and subscriptions.
-/

namespace BinaryAtlas.Session

variable {β : Type} {view : Object → β} {fresh : β → Prop}

structure Attentive (R : Session → Session → Prop) : Prop where
  refl : ∀ s, R s s
  trans : ∀ s₁ s₂ s₃, R s₁ s₂ → R s₂ s₃ → R s₁ s₃
  subscribe : ∀ s spent chain, R s { s with spent, chain }
  write : ∀ (s : Session) note, R s (s.write note)

/-- A relation that holds over everything that an observer can do. -/
structure Reactive (R : Session → Session → Prop) : Prop extends Attentive R where
  forget : ∀ s id, R s { s with registry := s.registry.forget s.live id }
  store : ∀ (s : Session) r (i : Image) store disk, s.heap.image? r = some i →
    i.store.size ≤ store.size →
    R s { s with heap := s.heap.setBody r (.image { i with store }), disk }
  remove : ∀ s id, R s { s with registry := (s.registry.remove s.live id).2 }

section

variable {R : Session → Session → Prop} (hR : Attentive R)

include hR

theorem Attentive.foldl {α : Type} {step : Session → α → Session} {l : List α}
    (hstep : ∀ a ∈ l, ∀ s : Session, R s (step s a)) (s : Session) : R s (l.foldl step s) := by
  induction l generalizing s with
  | nil => exact hR.refl s
  | cons a rest ih =>
    exact hR.trans s _ _ (hstep a List.mem_cons_self s)
      (ih (fun b hb => hstep b (List.mem_cons_of_mem a hb)) (step s a))

theorem Attentive.observe (s : Session) (tag : String) (kind : EventKind) (r : Ref) :
    R s (s.observe tag kind r) := by
  unfold Session.observe
  split
  · exact hR.write s _
  · exact hR.refl s

theorem Attentive.reactQuietly {kind : EventKind} {r : Ref} {subscription : Nat × Observer}
    (hpatch : subscription.2.reaction = .patch → ∀ s : Session, R s (s.patch subscription.2.tag r))
    (s : Session) : R s (reactQuietly kind r s subscription) := by
  obtain ⟨handle, observer⟩ := subscription
  have hobserve := hR.observe s observer.tag kind r
  cases hr : observer.reaction with
  | silent => simpa only [Session.reactQuietly, hr] using hR.refl s
  | record => simpa only [Session.reactQuietly, hr] using hobserve
  | reap _ => simpa only [Session.reactQuietly, hr] using hobserve
  | once =>
    simp only [Session.reactQuietly, hr]
    split
    · exact hobserve
    · exact hR.trans s _ _ hobserve (hR.subscribe _ _ _)
  | spawn =>
    simp only [Session.reactQuietly, hr]
    split
    · exact hobserve
    · exact hR.trans s _ _ hobserve (hR.subscribe _ _ _)
  | patch =>
    simp only [Session.reactQuietly, hr]
    split
    · exact hR.trans s _ _ hobserve (hpatch hr _)
    · exact hobserve

end

theorem react_changed (r : Ref) : react .changed r = reactQuietly .changed r := by
  funext s subscription
  unfold react
  split
  · contradiction
  · rfl

theorem notify_changed (s : Session) (r : Ref) :
    s.notify .changed r = s.notifyQuietly .changed r := by
  rw [notify, react_changed]
  rfl

theorem Attentive.notify_changed {R : Session → Session → Prop} (hR : Attentive R) {s : Session}
    {r : Ref} (hpatch : ∀ p ∈ s.chain.active, p.2.reaction = .patch →
      ∀ s : Session, R s (s.patch p.2.tag r)) : R s (s.notify .changed r) := by
  rw [Session.notify_changed]
  exact hR.foldl (fun p hp => hR.reactQuietly (hpatch p hp)) s

def Stores (f : Image → Disk → Except Error Unit × Image × Disk) : Prop :=
  ∀ i disk, ∃ store, (f i disk).2.1 = { i with store } ∧ i.store.size ≤ store.size

theorem stores_flush : Stores Image.flush := fun i disk =>
  ⟨(i.store.flush disk).2.1, rfl,
    Nat.le_of_eq (congrArg List.length (i.store.bytes_flush disk)).symm⟩

theorem stores_writeRaw (file : Nat) (data : Bytes) :
    Stores fun i disk => ((i.writeRaw file data).1, (i.writeRaw file data).2, disk) := fun i _ =>
  ⟨(i.store.write file data).2, rfl, i.store.size_le_write file data⟩

theorem updateImage_cases {f : Image → Disk → Except Error Unit × Image × Disk} (hf : Stores f)
    (s : Session) (r : Ref) :
    (s.updateImage r f).2 = s ∨
      ∃ i store disk, s.heap.image? r = some i ∧ i.store.size ≤ store.size ∧
        (s.updateImage r f).2 =
          { s with heap := s.heap.setBody r (.image { i with store }), disk } := by
  unfold updateImage
  split
  · exact .inl rfl
  · rename_i i hi
    obtain ⟨store, hstore, hsize⟩ := hf i s.disk
    refine .inr ⟨i, store, (f i s.disk).2.2, hi, hsize, ?_⟩
    dsimp only
    rw [hstore]

section

variable {R : Session → Session → Prop} (hR : Attentive R)
  (hstore : ∀ (s : Session) r (i : Image) store disk, s.heap.image? r = some i →
    i.store.size ≤ store.size →
    R s { s with heap := s.heap.setBody r (.image { i with store }), disk })

include hR hstore

theorem Attentive.updateImage {f : Image → Disk → Except Error Unit × Image × Disk} (hf : Stores f)
    (s : Session) (r : Ref) : R s (s.updateImage r f).2 := by
  rcases updateImage_cases hf s r with hsame | ⟨i, store, disk, hi, hsize, hs⟩
  · rw [hsame]
    exact hR.refl s
  · rw [hs]
    exact hstore s r i store disk hi hsize

theorem Attentive.patch
    (hforget : ∀ s id, R s { s with registry := s.registry.forget s.live id })
    (s : Session) (tag : String) (r : Ref) : R s (s.patch tag r) := by
  unfold Session.patch
  split
  · exact hR.refl s
  · rename_i id _
    have hfetch : R s (s.fetch id .image).2 := hforget s id
    split
    · rename_i hfail
      rwa [hfail] at hfetch
    · rename_i image s₁ hfound
      rw [hfound] at hfetch
      have hflush := hR.trans s _ _ hfetch (hR.updateImage hstore stores_flush s₁ image)
      have hwrite := hR.trans s _ _ hflush
        (hR.updateImage hstore (stores_writeRaw 0 [0x90]) _ image)
      exact hR.trans s _ _ hwrite (hR.write _ _)

end

section

variable {R : Session → Session → Prop} (hR : Reactive R)

include hR

theorem Reactive.updateImage {s : Session} {r : Ref}
    {f : Image → Disk → Except Error Unit × Image × Disk} (hf : Stores f) :
    R s (s.updateImage r f).2 :=
  hR.toAttentive.updateImage hR.store hf s r

theorem Reactive.flush (s : Session) (r : Ref) : R s (s.flush r).2 :=
  hR.updateImage stores_flush

theorem Reactive.writeRaw (s : Session) (r : Ref) (file : Nat) (data : Bytes) :
    R s (s.writeRaw r file data).2 :=
  hR.updateImage (stores_writeRaw file data)

theorem Reactive.patch (s : Session) (tag : String) (r : Ref) : R s (s.patch tag r) :=
  hR.toAttentive.patch hR.store hR.forget s tag r

theorem Reactive.reactQuietly (kind : EventKind) (r : Ref) (s : Session)
    (subscription : Nat × Observer) : R s (reactQuietly kind r s subscription) :=
  hR.toAttentive.reactQuietly (fun _ s => hR.patch s _ r) s

theorem Reactive.unregister (s : Session) (id : HashId) : R s (s.unregister id).2 := by
  have hremove := hR.remove s id
  unfold Session.unregister
  dsimp only
  split
  · exact hremove
  · rename_i r _
    exact hR.trans s _ _ hremove (hR.foldl (fun p _ s => hR.reactQuietly .removed r s p) _)

theorem Reactive.react (kind : EventKind) (r : Ref) (s : Session)
    (subscription : Nat × Observer) : R s (react kind r s subscription) := by
  unfold Session.react
  split
  · rename_i o _ _
    have hobserve := hR.observe s subscription.2.tag .added r
    dsimp only
    split
    · have hremove := hR.trans s _ _ hobserve (hR.unregister _ o.id)
      exact hR.trans s _ _ hremove (hR.write _ _)
    · exact hobserve
  · exact hR.reactQuietly _ r s subscription

theorem Reactive.notify (s : Session) (kind : EventKind) (r : Ref) : R s (s.notify kind r) :=
  hR.foldl (fun p _ s => hR.react kind r s p) s

end

theorem reactive_handles : Reactive fun s s' => s'.handles = s.handles where
  refl _ := rfl
  trans _ _ _ h h' := h'.trans h
  forget _ _ := rfl
  subscribe _ _ _ := rfl
  write _ _ := rfl
  store _ _ _ _ _ _ _ := rfl
  remove _ _ := rfl

theorem notify_handles (s : Session) (kind : EventKind) (r : Ref) :
    (s.notify kind r).handles = s.handles :=
  reactive_handles.notify s kind r

theorem keeps_of_eq {α : Type} {s s' : Session} {a : α} {x : α × Session} (hx : x = (a, s'))
    (h : s.heap.Keeps view fresh x.2.heap) : s.heap.Keeps view fresh s'.heap := by
  rw [hx] at h
  exact h

theorem fetch_keeps (s : Session) (id : HashId) (c : ObjectClass) :
    s.heap.Keeps view fresh (s.fetch id c).2.heap :=
  .refl _

def StoreBlind (view : Object → β) : Prop :=
  ∀ (o : Object) (i : Image) (store : Store), o.body = .image i →
    view { o with body := .image { i with store } } = view o

section

variable (hview : StoreBlind view)

include hview

theorem StoreBlind.reactive : Reactive fun s s' => s.heap.Keeps view fresh s'.heap where
  refl s := .refl s.heap
  trans _ _ _ := .trans
  forget s _ := .refl s.heap
  subscribe s _ _ := .refl s.heap
  write s _ := .refl s.heap
  store s r i store _ hi _ := by
    refine .modify fun o ho => hview o i store ?_
    simpa [Heap.image?, ho] using hi
  remove s _ := .refl s.heap

theorem flush_keeps (s : Session) (r : Ref) : s.heap.Keeps view fresh (s.flush r).2.heap :=
  hview.reactive.flush s r

theorem writeRaw_keeps (s : Session) (r : Ref) (file : Nat) (data : Bytes) :
    s.heap.Keeps view fresh (s.writeRaw r file data).2.heap :=
  hview.reactive.writeRaw s r file data

theorem unregister_keeps (s : Session) (id : HashId) :
    s.heap.Keeps view fresh (s.unregister id).2.heap :=
  hview.reactive.unregister s id

theorem notify_keeps (s : Session) (kind : EventKind) (r : Ref) :
    s.heap.Keeps view fresh (s.notify kind r).heap :=
  hview.reactive.notify s kind r

theorem update_keeps {s : Session} {r : Ref} {f : Object → Object}
    (hf : ∀ o, s.heap.get? r = some o → view (f o) = view o) :
    s.heap.Keeps view fresh (s.update r f).heap :=
  .trans (.modify hf) (notify_keeps hview { s with heap := s.heap.modify r f } .changed r)

end

end BinaryAtlas.Session
