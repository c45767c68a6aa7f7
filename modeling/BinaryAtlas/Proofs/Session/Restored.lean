import BinaryAtlas.Proofs.Session.Refusal

namespace BinaryAtlas

theorem Heap.get?_adopted {h : Heap} {x : Ref} {o : Object} {t : SymbolTable}
    (ho : h.get? x = some o) (hb : o.body = .table t) (q : Ref) (cs : List Ref) :
    (cs.foldl (adopt q) h).get? x = some { o with
      body := .table { t with parent := if x ∈ cs then some q else t.parent } } := by
  induction cs generalizing h o t with
  | nil =>
    rw [List.foldl_nil, ho]
    simp [← hb]
  | cons c rest ih =>
    rw [List.foldl_cons]
    by_cases hx : x = c
    · subst hx
      have ht : h.table? x = some t := by simp [table?, ho, hb, Body.table?]
      have hx : (adopt q h x).get? x = some { o with body := .table { t with parent := some q } } := by
        simp only [adopt, ht, setBody, get?_modify, ho, if_true, Option.map_some]
      rw [ih hx rfl]
      simp
    · have hsame : (adopt q h c).get? x = some o := by
        unfold adopt
        split
        · rw [setBody, get?_modify, if_neg hx, ho]
        · exact ho
      rw [ih hsame hb]
      simp [hx]

namespace Session

variable {s s' s₁ : Session} {r : Ref} {o o' : Object} {record : Json}

/-- What an object holds after a record was taken. A table that is among its own children names the
table registered under its hash id as the one around it. -/
def restoredBody (s : Session) (r : Ref) (o : Object) (record : Json) : Body :=
  match o.body with
  | .dataType k => .dataType (((record.get? "kind").bind TypeKind.ofJson?).getD k)
  | .symbol y =>
    .symbol { y with type := ((record.get? "data_type").bind (s.named? .dataType)).getD y.type }
  | .table t =>
    let children := (s.namedChildren? record).getD []
    .table {
      symbols := .ofList ((items? s.entry? record "symbols").getD [])
      parent := if r ∈ children then (s.fetch o.id .symbolTable).1.toOption else t.parent
      children }
  | .image i =>
    .image (match (record.get? "layout").bind Layout.ofJson? with
      | some l => i.restoreLayout l
      | none => i)
  | .space images => .space ((items? (s.named? .image) record "images").getD images)

def restored (s : Session) (r : Ref) (o : Object) (record : Json) : Object :=
  { o.readMeta record with body := s.restoredBody r o record }

structure Staged (s s₁ : Session) (r : Ref) (o : Object) : Prop where
  get? : s₁.heap.get? r = some o
  chain : s₁.chain = s.chain
  log : s₁.log = s.log

theorem Staged.reads (h : s.Reads s₁) (ho : s.heap.get? r = some o) : s.Staged s₁ r o where
  get? := by rw [h.heap, ho]
  chain := by rw [h.rest]
  log := by rw [h.rest]

theorem Staged.readMeta (h : s.Staged s₁ r o) (record : Json) :
    s.Staged (s₁.readMeta r record) r (o.readMeta record) where
  get? := by rw [get?_readMeta h.get?, if_pos rfl]
  chain := h.chain
  log := h.log

theorem Staged.setBody (h : s.Staged s₁ r o) (b : Body) :
    s.Staged (s₁.setBody r b) r { o with body := b } where
  get? := by
    simp only [Session.setBody, Heap.setBody, Heap.get?_modify, h.get?, if_true, Option.map_some]
  chain := h.chain
  log := h.log

theorem Staged.keepBody {b : Body} (h : s.Staged s₁ r o) (hb : o.body = b) :
    s.Staged s₁ r { o with body := b } := by
  subst hb
  exact h

section

variable (ho : s.heap.get? r = some o)

include ho

theorem restoreType_staged {k : TypeKind} (hb : o.body = .dataType k)
    (h : s.restoreType r record = (.ok (), s')) : s.Staged s' r (s.restored r o record) := by
  have hmeta := (Staged.reads (.refl s) ho).readMeta record
  unfold restoreType at h
  simp only [restored, restoredBody, hb]
  split at h
  · rename_i hnone
    cases h
    rw [hnone]
    exact hmeta.keepBody hb
  · rename_i j hj
    split at h
    · rename_i kind hkind
      cases h
      rw [hj, Option.bind_some, hkind]
      exact hmeta.setBody (.dataType kind)
    · cases h

theorem restoreSymbol_staged {y : Symbol} (hb : o.body = .symbol y)
    (h : s.restoreSymbol r y record = (.ok (), s')) : s.Staged s' r (s.restored r o record) := by
  have hmeta := (Staged.reads (.refl s) ho).readMeta record
  unfold restoreSymbol at h
  simp only [restored, restoredBody, hb]
  split at h
  · rename_i hnone
    cases h
    rw [hnone]
    exact hmeta.keepBody hb
  · rename_i j hj
    split at h
    · cases h
    · rename_i id hfield
      have hword := integerField_eq_ok_iff.mp hfield
      rw [hj, Option.bind_some] at hword
      simp only [fetch_readMeta] at h
      split at h
      · cases h
      · rename_i type s₁ hfetch
        cases h
        obtain ⟨hfound, rfl⟩ := Prod.mk.inj hfetch
        have htype : s.named? .dataType j = some type :=
          named?_eq_some_iff.mpr ⟨id, hword, hfound⟩
        have hread := (Staged.reads (fetch_reads s id .dataType) ho).readMeta record
        rw [hj, Option.bind_some, htype]
        exact hread.setBody (.symbol { y with type })

theorem restoreTable_staged {t : SymbolTable} (hb : o.body = .table t)
    (h : s.restoreTable r o.id record = (.ok (), s')) :
    ∃ s₁, s.Staged s₁ r (s.restored r o record) ∧ s' = s₁.notify .changed r := by
  obtain ⟨symbols, cs, q, s₁, hsymbols, hcs, hq, hreads, hs'⟩ := restoreTable_eq_ok h
  have ho₁ : s₁.heap.get? r = some o := by rw [hreads.heap, ho]
  have hadopted : s.Staged { s₁ with heap := cs.foldl (Heap.adopt q) s₁.heap } r { o with
      body := .table { t with parent := if r ∈ cs then some q else t.parent } } :=
    ⟨Heap.get?_adopted ho₁ hb q cs, by rw [hreads.rest], by rw [hreads.rest]⟩
  have hrehomed : s.Staged (s₁.rehomed r q cs record) r (Object.readMeta { o with
      body := .table { t with parent := if r ∈ cs then some q else t.parent } } record) :=
    hadopted.readMeta record
  have htable : (s₁.rehomed r q cs record).heap.table? r =
      some { t with parent := if r ∈ cs then some q else t.parent } := by
    rw [Heap.table?, hrehomed.get?]
    rfl
  refine ⟨_, ?_, hs' _ htable⟩
  simp only [restored, restoredBody, hb, hsymbols, hcs, hq, Except.toOption, Option.getD_some]
  exact hrehomed.setBody _

theorem restoreImage_staged {i : Image} (hb : o.body = .image i)
    (h : s.restoreImage r i record = (.ok (), s')) :
    ∃ s₁, s.Staged s₁ r (s.restored r o record) ∧ s' = s₁.notify .changed r := by
  have hmeta := (Staged.reads (.refl s) ho).readMeta record
  unfold restoreImage at h
  simp only [restored, restoredBody, hb]
  split at h
  · rename_i hnone
    cases h
    refine ⟨_, ?_, rfl⟩
    have hlayout : (record.get? "layout").bind Layout.ofJson? = none := by
      cases hget : record.get? "layout" with
      | none => rfl
      | some j =>
        cases j with
        | null => rfl
        | _ => simp [hget, Option.filter, Json.isNull] at hnone
    rw [hlayout]
    exact hmeta.keepBody hb
  · rename_i j hj
    obtain ⟨hj, _⟩ := Option.filter_eq_some_iff.mp hj
    split at h
    · cases h
    · rename_i l hl
      cases h
      refine ⟨_, ?_, rfl⟩
      rw [hj, Option.bind_some, hl]
      exact hmeta.setBody _

theorem restoreSpace_staged {images : List Ref} (hb : o.body = .space images)
    (h : s.restoreSpace r record = (.ok (), s')) : s.Staged s' r (s.restored r o record) := by
  rcases restoreSpace_cases s r record with ⟨e, s₁, herror, _⟩ | ⟨found, s₁, hok, hreads, himages⟩
  · cases h.symm.trans herror
  · cases h.symm.trans hok
    simp only [restored, restoredBody, hb, himages, Option.getD_some]
    exact ((Staged.reads hreads ho).readMeta record).setBody _

theorem restore_staged (h : s.restore r record = (.ok (), s')) :
    ∃ s₁, s.Staged s₁ r (s.restored r o record) ∧
      s' = if o.body.announces then s₁.notify .changed r else s₁ := by
  unfold restore at h
  rw [ho] at h
  cases hb : o.body with
  | dataType k => exact ⟨s', restoreType_staged ho hb (by simpa only [hb] using h), rfl⟩
  | symbol y => exact ⟨s', restoreSymbol_staged ho hb (by simpa only [hb] using h), rfl⟩
  | table t => exact restoreTable_staged ho hb (by simpa only [hb] using h)
  | image i => exact restoreImage_staged ho hb (by simpa only [hb] using h)
  | space images => exact ⟨s', restoreSpace_staged ho hb (by simpa only [hb] using h), rfl⟩

end

end Session

end BinaryAtlas
