import BinaryAtlas.Proofs.Session.Notify
import BinaryAtlas.Proofs.Session.Records

namespace BinaryAtlas

def Object.Patched (o o' : Object) : Prop :=
  o' = o ∨ ∃ i store, o.body = .image i ∧ o' = { o with body := .image { i with store } }

theorem patched_trans {o₁ o₂ o₃ : Object} (h : o₁.Patched o₂) (h' : o₂.Patched o₃) :
    o₁.Patched o₃ := by
  rcases h with rfl | ⟨i, store, hb, rfl⟩
  · exact h'
  · rcases h' with rfl | ⟨j, store', hj, rfl⟩
    · exact .inr ⟨i, store, hb, rfl⟩
    · cases hj
      exact .inr ⟨i, store', hb, rfl⟩

namespace Session

variable {s s' s₁ : Session} {x : Ref} {c : ObjectClass} {p : Nat × Observer}

def Registered (s : Session) (c : ObjectClass) (r : Ref) : Prop :=
  ∃ id, s.heap.id? r = some id ∧ (s.fetch id c).1 = .ok r

instance (s : Session) (c : ObjectClass) (r : Ref) : Decidable (s.Registered c r) :=
  decidable_of_iff ((s.heap.id? r).any fun id => decide ((s.fetch id c).1.toOption = some r)) (by
    simp [Registered, Option.any_eq_true, toOption_eq_some_iff])

structure Unmoved (s s' : Session) : Prop where
  heap : s'.heap = s.heap
  disk : s'.disk = s.disk
  find : ∀ id, (s'.find id).1 = (s.find id).1
  fetch : ∀ id c, (s'.fetch id c).1 = (s.fetch id c).1

theorem Unmoved.of_reads (h : s.Reads s') : s.Unmoved s' :=
  ⟨h.heap, by rw [h.rest], h.find, h.fetch⟩

theorem Unmoved.refl (s : Session) : s.Unmoved s := .of_reads (.refl s)

theorem Unmoved.trans (h : s.Unmoved s₁) (h₁ : s₁.Unmoved s') : s.Unmoved s' where
  heap := h₁.heap.trans h.heap
  disk := h₁.disk.trans h.disk
  find id := (h₁.find id).trans (h.find id)
  fetch id c := (h₁.fetch id c).trans (h.fetch id c)

theorem Unmoved.registered (h : s.Unmoved s') (hx : s.Registered c x) : s'.Registered c x := by
  obtain ⟨id, hid, hfetch⟩ := hx
  exact ⟨id, by rw [h.heap, hid], (h.fetch id c).trans hfetch⟩

/-- No observer that is told of the object moves anything. -/
def ObserversIdle (s : Session) (x : Ref) : Prop :=
  ∀ p ∈ s.chain.active, ∀ s', s.Unmoved s' → s'.Unmoved (react .changed x s' p)

theorem unmoved_foldl {l : List (Nat × Observer)}
    (hidle : ∀ p ∈ l, ∀ s', s.Unmoved s' → s'.Unmoved (react .changed x s' p)) (h : s.Unmoved s') :
    s.Unmoved (l.foldl (react .changed x) s') := by
  induction l generalizing s' with
  | nil => exact h
  | cons p rest ih =>
    have hfirst := h.trans (hidle p List.mem_cons_self s' h)
    exact ih (fun q hq => hidle q (List.mem_cons_of_mem p hq)) hfirst

theorem unmoved_notify (hidle : s.ObserversIdle x) (h : s.Unmoved s')
    (hchain : s'.chain = s.chain) : s.Unmoved (s'.notify .changed x) :=
  unmoved_foldl (fun p hp => hidle p (hchain ▸ hp)) h

theorem attentive_unmoved : Attentive Unmoved where
  refl := .refl
  trans _ _ _ := .trans
  subscribe _ _ _ := ⟨rfl, rfl, fun _ => rfl, fun _ _ => rfl⟩
  write _ _ := ⟨rfl, rfl, fun _ => rfl, fun _ _ => rfl⟩

theorem unmoved_patch (hx : s.Registered c x) (himage : s.heap.image? x = none) (tag : String) :
    s.Unmoved (s.patch tag x) := by
  obtain ⟨id, hid, hfetch⟩ := hx
  obtain ⟨hget, _⟩ := Registry.getAs_eq_ok_iff.mp hfetch
  have hreads : s.Unmoved (s.fetch id .image).2 := .of_reads (fetch_reads s id .image)
  unfold patch
  rw [hid]
  dsimp only
  split
  · rename_i hfail
    rwa [hfail] at hreads
  · rename_i image s₁ hfound
    obtain ⟨hsame, hclass⟩ := Registry.getAs_eq_ok_iff.mp (congrArg Prod.fst hfound)
    cases hget.symm.trans hsame
    obtain ⟨o, ho, hclass⟩ := Option.map_eq_some_iff.mp hclass
    obtain ⟨i, hb⟩ : ∃ i, o.body = .image i := by
      cases hb : o.body with
      | image i => exact ⟨i, rfl⟩
      | _ =>
        rw [Object.classOf, hb] at hclass
        cases hclass
    simp [Heap.image?, ho, hb, Body.image?] at himage

theorem observersIdle_of_unpatched
    (h : ∀ p ∈ s.chain.active, p.2.reaction = .patch →
      s.heap.image? x = none ∧ ∃ c, s.Registered c x) : s.ObserversIdle x := by
  intro p hp s' hs'
  rw [react_changed]
  by_cases hpatch : p.2.reaction = .patch
  · obtain ⟨himage, c, hx⟩ := h p hp hpatch
    have hattentive : Attentive fun s s' =>
        s.heap.image? x = none → s.Registered c x → s.Unmoved s' :=
      { refl := fun s _ _ => .refl s
        trans := fun _ _ _ h h' himage hx =>
          have hfirst := h himage hx
          hfirst.trans (h' (by rw [hfirst.heap, himage]) (hfirst.registered hx))
        subscribe := fun s _ _ _ _ => attentive_unmoved.subscribe s _ _
        write := fun s _ _ _ => attentive_unmoved.write s _ }
    exact hattentive.reactQuietly (fun _ _ himage hx => unmoved_patch hx himage p.2.tag) s'
      (by rw [hs'.heap, himage]) (hs'.registered hx)
  · exact attentive_unmoved.reactQuietly (fun hyes => absurd hyes hpatch) s'

end Session

end BinaryAtlas
