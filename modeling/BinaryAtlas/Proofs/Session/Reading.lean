import BinaryAtlas.Proofs.Reading
import BinaryAtlas.Proofs.Session.Layout

namespace BinaryAtlas.Session

variable {s s' : Session} {r : Ref} {i j : Image} {analyser : Analyser}

def Grows (s s' : Session) : Prop :=
  ∀ r i, s.heap.image? r = some i →
    ∃ j, s'.heap.image? r = some j ∧ j.analyser = i.analyser ∧ j.layout = i.layout ∧
      i.store.size ≤ j.store.size

theorem grows_of_image?_eq (h : s'.heap.image? = s.heap.image?) : s.Grows s' := by
  intro r i hi
  exact ⟨i, by rw [h, hi], rfl, rfl, Nat.le_refl _⟩

theorem reactive_grows : Reactive Grows where
  refl s := grows_of_image?_eq rfl
  trans s₁ s₂ s₃ h h' r i hi := by
    obtain ⟨j, hj, hja, hjl, hjs⟩ := h r i hi
    obtain ⟨k, hk, hka, hkl, hks⟩ := h' r j hj
    exact ⟨k, hk, hka.trans hja, hkl.trans hjl, Nat.le_trans hjs hks⟩
  forget s _ := grows_of_image?_eq rfl
  subscribe s _ _ := grows_of_image?_eq rfl
  write s _ := grows_of_image?_eq rfl
  store s r i store _ hi hsize q k hk := by
    by_cases hq : q = r
    · subst hq
      cases hi.symm.trans hk
      exact ⟨{ i with store }, by rw [Heap.image?_setBody hi, if_pos rfl], rfl, rfl, hsize⟩
    · exact ⟨k, by rw [Heap.image?_setBody hi, if_neg hq, hk], rfl, rfl, Nat.le_refl _⟩
  remove s _ := grows_of_image?_eq rfl

theorem update_grows {f : Object → Object} (hf : ∀ o, (f o).body = o.body) :
    s.Grows (s.update r f) := by
  refine reactive_grows.trans s { s with heap := s.heap.modify r f } _ (grows_of_image?_eq ?_)
    (reactive_grows.notify _ .changed r)
  funext q
  simp only [Heap.image?, Heap.get?_modify]
  split
  · cases s.heap.get? q <;> simp [hf]
  · rfl

def Readable (s : Session) (r : Ref) (analyser : Analyser) : Prop :=
  ∃ i, s.heap.image? r = some i ∧ i.analyser = analyser ∧ i.Covered

theorem Readable.of_grows (h : s.Readable r analyser) (hg : s.Grows s') :
    s'.Readable r analyser := by
  obtain ⟨i, hi, ha, hc⟩ := h
  obtain ⟨j, hj, hja, hjl, hsize⟩ := hg r i hi
  refine ⟨j, hj, hja.trans ha, fun l hl sec hsec => ?_⟩
  exact (hc l (hjl ▸ hl) sec hsec).mono hsize

theorem Readable.analyse (h : s.Readable r analyser) (hback : analyser.Backs) :
    (s.analyse r).2.Readable r analyser := by
  obtain ⟨i, hi, ha, hc⟩ := h
  cases hrun : i.analyse with
  | error m =>
    rw [analyse_of_error hi hrun]
    exact ⟨i, hi, ha, hc⟩
  | ok j =>
    rw [analyse_of_ok hi hrun]
    have hset : Readable { s with heap := s.heap.setBody r (.image j) } r analyser := by
      refine ⟨j, by rw [Heap.image?_setBody hi, if_pos rfl], ?_, .analyse (ha ▸ hback) hrun⟩
      obtain ⟨a, _, _, rfl⟩ := (Image.analyse_eq_ok_iff i j).mp hrun
      exact ha
    exact hset.of_grows (reactive_grows.notify _ .changed r)

theorem Readable.call (h : s.Readable r analyser) (hback : analyser.Backs) (c : ImageCall) :
    (s.call r c).Readable r analyser := by
  cases c with
  | analyse => exact h.analyse hback
  | writeRaw file data => exact h.of_grows (reactive_grows.writeRaw s r file data)
  | flush => exact h.of_grows (reactive_grows.flush s r)
  | setName name => exact h.of_grows (update_grows fun _ => rfl)
  | setComment comment => exact h.of_grows (update_grows fun _ => rfl)
  | read offset len => exact h
  | readRaw file len => exact h

theorem Readable.calls (h : s.Readable r analyser) (hback : analyser.Backs) (l : List ImageCall) :
    (s.calls r l).Readable r analyser := by
  induction l generalizing s with
  | nil => exact h
  | cons c rest ih => exact ih (h.call hback c)

theorem read_within_store (s : Session) (r : Ref) (i : Image) (hi : s.heap.image? r = some i)
    (hfresh : i.layout = none)
    (hbound : (∃ config, i.analyser = .portableExecutable config) ∨
      ∃ base, i.analyser = .flat base) (calls : List ImageCall) :
    ∃ j, (s.calls r calls).heap.image? r = some j ∧
      ∀ l, j.layout = some l → ∀ offset len,
        (∃ start data, l.Loads offset len start ∧ j.read offset len = .ok data ∧
          data.length = len ∧ data = j.store.bytes.window start len) ∨
        ((¬ ∃ start, l.Loads offset len start) ∧
          ∃ e value, j.read offset len = .error e ∧ e.root = .unmapped value .canonical) := by
  have hback : i.analyser.Backs := by
    rcases hbound with ⟨config, h⟩ | ⟨base, h⟩
    · exact h ▸ Analyser.backs_portableExecutable config
    · exact h ▸ Analyser.backs_flat base
  have hstart : s.Readable r i.analyser := ⟨i, hi, rfl, fun l hl => by rw [hfresh] at hl; cases hl⟩
  obtain ⟨j, hj, _, hc⟩ := hstart.calls hback calls
  refine ⟨j, hj, fun l hl offset len => ?_⟩
  by_cases h : ∃ start, l.Loads offset len start
  · obtain ⟨start, hloads⟩ := h
    obtain ⟨hin, _⟩ := Image.length_of_loads hl hc hloads
    exact .inl ⟨start, _, hloads, Image.read_of_loads hl hc hloads, Bytes.length_window hin, rfl⟩
  · obtain ⟨value, herror⟩ := Image.read_of_not_loads hl hc h
    exact .inr ⟨h, _, value, herror, rfl⟩

def topObserved : Session :=
  { twoBytesObserved with
    heap := twoBytesObserved.heap.setBody 0
      (.image { twoBytes with analyser := .flat (Word.top - 2) }) }

def growingWrites : List ImageCall := [.analyse, .writeRaw 4 [7], .writeRaw 1 [8], .flush]

theorem topObserved_read :
    ∃ j l, (topObserved.calls 0 growingWrites).heap.image? 0 = some j ∧ j.layout = some l ∧
      j.store.bytes = [0x90, 8, 0, 0, 7] ∧ j.read (Word.top - 2) 2 = .ok [0x90, 8] ∧
      ∃ e value, j.read (Word.top - 2) 3 = .error e ∧ e.root = .unmapped value .canonical := by
  obtain ⟨j, hj, hread⟩ :=
    read_within_store topObserved 0 _ rfl rfl (.inr ⟨Word.top - 2, rfl⟩) growingWrites
  have hfound : ((topObserved.calls 0 growingWrites).heap.image? 0).map (fun j => (j.isAnalysed,
      j.store.bytes, j.read (Word.top - 2) 2, (j.read (Word.top - 2) 3).isOk)) =
        some (true, [0x90, 8, 0, 0, 7], .ok [0x90, 8], false) := by decide +kernel
  rw [hj, Option.map_some, Option.some.injEq] at hfound
  obtain ⟨l, hl⟩ := Option.isSome_iff_exists.mp (congrArg Prod.fst hfound)
  have hbytes := congrArg (·.2.1) hfound
  have htwo := congrArg (·.2.2.1) hfound
  have hthree := congrArg (·.2.2.2) hfound
  refine ⟨j, l, hj, hl, hbytes, htwo, ?_⟩
  rcases hread l hl (Word.top - 2) 3 with ⟨_, _, _, hok, _⟩ | ⟨_, hrefused⟩
  · simp [hok, Except.isOk, Except.toBool] at hthree
  · exact hrefused

end BinaryAtlas.Session
