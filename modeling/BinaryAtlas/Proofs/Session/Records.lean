import BinaryAtlas.Proofs.Except
import BinaryAtlas.Proofs.Registry
import BinaryAtlas.Session.Records

namespace BinaryAtlas.Session

variable {s s' s₁ : Session} {r : Ref} {c : ObjectClass} {id : HashId} {record : Json}

/-- Nothing changed but entries of the registry that no look-up finds. -/
structure Reads (s s' : Session) : Prop where
  rest : s' = { s with registry := s'.registry }
  answers : ∀ id, s'.registry.get? s.live id = s.registry.get? s.live id
  entries : ∀ id r, s'.registry.entries.get? id = some r → s.registry.entries.get? id = some r

theorem Reads.refl (s : Session) : s.Reads s := ⟨rfl, fun _ => rfl, fun _ _ => id⟩

theorem Reads.heap (h : s.Reads s') : s'.heap = s.heap := by rw [h.rest]

theorem Reads.handles (h : s.Reads s') : s'.handles = s.handles := by rw [h.rest]

theorem Reads.live (h : s.Reads s') : s'.live = s.live := by rw [Session.live, h.heap, Session.live]

theorem Reads.trans (h : s.Reads s₁) (h₁ : s₁.Reads s') : s.Reads s' where
  rest := by rw [h₁.rest, h.rest]
  answers id := by rw [← h.answers, ← h.live, h₁.answers]
  entries id r hr := h.entries id r (h₁.entries id r hr)

theorem Reads.fetch (h : s.Reads s') (id : HashId) (c : ObjectClass) :
    (s'.fetch id c).1 = (s.fetch id c).1 := by
  simp only [Session.fetch, Registry.getAs, h.live, h.answers]

theorem Reads.find (h : s.Reads s') (id : HashId) : (s'.find id).1 = (s.find id).1 := by
  simp only [Session.find, h.live, h.answers]

theorem fetch_reads (s : Session) (id : HashId) (c : ObjectClass) : s.Reads (s.fetch id c).2 where
  rest := rfl
  answers := Registry.get?_forget s.live s.registry id
  entries _ _ := Registry.entries_of_forget

theorem readEach_steps {α : Type} {read : Session → Json → Except Error α × Session}
    {R : Session → Session → Prop} (hrefl : ∀ s, R s s)
    (htrans : ∀ s₁ s₂ s₃, R s₁ s₂ → R s₂ s₃ → R s₁ s₃) (hread : ∀ s j, R s (read s j).2)
    (s : Session) (items : List Json) : R s (readEach read s items).2 := by
  induction items generalizing s with
  | nil => exact hrefl s
  | cons j rest ih =>
    have hj := hread s j
    unfold readEach
    split
    · rename_i hfail
      rwa [hfail] at hj
    · rename_i a s₁ hok
      rw [hok] at hj
      have hrest := htrans s s₁ _ hj (ih s₁)
      split
      · rename_i hfail
        rwa [hfail] at hrest
      · rename_i hdone
        rwa [hdone] at hrest

theorem readId_reads (c : ObjectClass) (fault : RecordFault) (s : Session) (j : Json) :
    s.Reads (readId c fault s j).2 := by
  unfold readId
  split
  · exact .refl s
  · exact fetch_reads s _ c

theorem readEntry_reads (s : Session) (j : Json) : s.Reads (readEntry s j).2 := by
  unfold readEntry
  split
  · exact .refl s
  · split
    · exact .refl s
    · exact fetch_reads s _ .symbol

def named? (s : Session) (c : ObjectClass) (j : Json) : Option Ref :=
  j.word?.bind fun id => (s.fetch id c).1.toOption

def entry? (s : Session) (j : Json) : Option (Nat × Ref) :=
  ((j.get? "offset").bind Json.word?).bind fun offset =>
    ((j.get? "symbol").bind (s.named? .symbol)).map fun symbol => (offset, symbol)

def items? {α : Type} (read : Json → Option α) (record : Json) (key : String) : Option (List α) :=
  ((record.get? key).bind Json.arr?).bind (·.mapM read)

def namedChildren? (s : Session) (record : Json) : Option (List Ref) :=
  ((record.get? "children").bind Json.arr?).bind (·.mapM (s.named? .symbolTable))

theorem named?_eq_some_iff {j : Json} :
    s.named? c j = some r ↔ ∃ id, j.word? = some id ∧ (s.fetch id c).1 = .ok r := by
  simp only [named?, Option.bind_eq_some_iff, toOption_eq_some_iff]

theorem Reads.named? (h : s.Reads s') (c : ObjectClass) : s'.named? c = s.named? c := by
  funext j
  simp only [Session.named?, h.fetch]

theorem Reads.entry? (h : s.Reads s') : s'.entry? = s.entry? := by
  funext j
  simp only [Session.entry?, h.named?]

theorem toOption_readId (c : ObjectClass) (fault : RecordFault) (s : Session) (j : Json) :
    (readId c fault s j).1.toOption = s.named? c j := by
  unfold readId named?
  cases j.word? with
  | none => rfl
  | some id => exact toOption_mapError Error.lookup (s.fetch id c).1

theorem integerField_eq_ok_iff {key : String} {n : Nat} :
    integerField record key = .ok n ↔ (record.get? key).bind Json.word? = some n := by
  unfold integerField
  cases (record.get? key).bind Json.word? <;> simp

theorem integerField_eq_error {key : String} {e : Error} (h : integerField record key = .error e) :
    (record.get? key).bind Json.word? = none := by
  unfold integerField at h
  split at h
  · cases h
  · assumption

theorem arrayField_eq_ok_iff {key : String} {items : List Json} :
    arrayField record key = .ok items ↔ (record.get? key).bind Json.arr? = some items := by
  unfold arrayField
  cases (record.get? key).bind Json.arr? <;> simp

theorem arrayField_eq_error {key : String} {e : Error} (h : arrayField record key = .error e) :
    (record.get? key).bind Json.arr? = none := by
  unfold arrayField at h
  split at h
  · cases h
  · assumption

theorem toOption_readEntry (s : Session) (j : Json) : (readEntry s j).1.toOption = s.entry? j := by
  unfold readEntry entry?
  split
  · rename_i hoffset
    rw [integerField_eq_error hoffset]
    rfl
  · rename_i offset hoffset
    rw [integerField_eq_ok_iff.mp hoffset]
    split
    · rename_i hsymbol
      cases hget : j.get? "symbol" with
      | none => rfl
      | some i =>
        have hword := integerField_eq_error hsymbol
        rw [hget, Option.bind_some] at hword
        simp [named?, hword, Except.toOption]
    · rename_i id hsymbol
      obtain ⟨i, hget, hword⟩ := Option.bind_eq_some_iff.mp (integerField_eq_ok_iff.mp hsymbol)
      simp only [hget, named?, hword, Option.bind_some]
      rw [toOption_map, toOption_mapError]

section

variable {α : Type} {read : Session → Json → Except Error α × Session}
  (hreads : ∀ s j, Reads s (read s j).2)

include hreads

theorem readEach_reads (s : Session) (items : List Json) : s.Reads (readEach read s items).2 :=
  readEach_steps .refl (fun _ _ _ => .trans) hreads s items

theorem toOption_readEach {view : Session → Json → Option α}
    (hview : ∀ s j, (read s j).1.toOption = view s j)
    (hstable : ∀ s s', Reads s s' → view s' = view s) (s : Session) (items : List Json) :
    (readEach read s items).1.toOption = items.mapM (view s) := by
  induction items generalizing s with
  | nil => rfl
  | cons j rest ih =>
    rw [List.mapM_cons, ← hview s j]
    unfold readEach
    split
    · rename_i hfail
      rw [hfail]
      rfl
    · rename_i a s₁ hok
      have hs₁ : s.Reads s₁ := by
        have h := hreads s j
        rwa [hok] at h
      have hrest := ih s₁
      rw [hstable s s₁ hs₁] at hrest
      rw [hok, ← hrest]
      split
      · rename_i hfail
        rw [hfail]
        rfl
      · rename_i hdone
        rw [hdone]
        rfl

end

theorem toOption_readIds (c : ObjectClass) (fault : RecordFault) (s : Session)
    (items : List Json) :
    (readEach (readId c fault) s items).1.toOption = items.mapM (s.named? c) :=
  toOption_readEach (readId_reads c fault) (toOption_readId c fault)
    (fun _ _ h => h.named? c) s items

theorem toOption_readEntries (s : Session) (items : List Json) :
    (readEach readEntry s items).1.toOption = items.mapM s.entry? :=
  toOption_readEach readEntry_reads toOption_readEntry (fun _ _ h => h.entry?) s items

theorem get?_readMeta {o : Object} (ho : s.heap.get? r = some o) (record : Json) (q : Ref) :
    (s.readMeta r record).heap.get? q =
      if q = r then some (o.readMeta record) else s.heap.get? q := by
  rw [readMeta, Heap.get?_modify]
  split
  · rename_i hq
    rw [hq, ho]
    rfl
  · rfl

end BinaryAtlas.Session
