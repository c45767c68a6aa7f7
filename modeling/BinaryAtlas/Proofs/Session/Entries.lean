import BinaryAtlas.Proofs.Session.Delivery
import BinaryAtlas.Proofs.Session.Moves
import BinaryAtlas.Proofs.Session.Resolution

namespace BinaryAtlas

namespace SymbolTable

def Governs (t : SymbolTable) (offset q : Nat) : Prop :=
  offset ≤ q ∧ ∀ k ∈ t.symbols.keys, ¬ (offset < k ∧ k ≤ q)

instance (t : SymbolTable) (offset q : Nat) : Decidable (t.Governs offset q) :=
  inferInstanceAs (Decidable (_ ∧ _))

theorem governs_self (t : SymbolTable) (offset : Nat) : t.Governs offset offset :=
  ⟨Nat.le_refl offset, fun k _ h => by omega⟩

def withEntry (t : SymbolTable) (offset : Nat) (symbol : Ref) : SymbolTable :=
  { t with symbols := t.symbols.insert offset symbol }

def withoutEntry (t : SymbolTable) (offset : Nat) : SymbolTable :=
  { t with symbols := t.symbols.erase offset }

theorem hit?_withEntry (extent : Ref → Option Nat) (t : SymbolTable) (offset : Nat) (symbol : Ref)
    (q : Nat) :
    (t.withEntry offset symbol).hit? extent q =
      if t.Governs offset q then
        if (extent symbol).all (q - offset < ·) then some ⟨offset, symbol, q - offset⟩ else none
      else t.hit? extent q := by
  by_cases h : t.Governs offset q
  · rw [if_pos h, hit?, withEntry, KeyMap.floor?_insert_of_last symbol h.1 h.2]
    cases hextent : extent symbol with
    | none => simp [hextent]
    | some size => simp [hextent]
  · rw [if_neg h, hit?, hit?, withEntry, KeyMap.floor?_insert_of_not_last symbol h]

theorem withEntry_comm (t : SymbolTable) {o₁ o₂ : Nat} (h : o₁ ≠ o₂) (y₁ y₂ : Ref) :
    (t.withEntry o₁ y₁).withEntry o₂ y₂ = (t.withEntry o₂ y₂).withEntry o₁ y₁ := by
  simp only [withEntry, KeyMap.insert_comm h]

theorem withoutEntry_withEntry {t : SymbolTable} {offset : Nat}
    (h : t.symbols.get? offset = none) (symbol : Ref) :
    (t.withEntry offset symbol).withoutEntry offset = t := by
  simp only [withoutEntry, withEntry, KeyMap.erase_insert h]

end SymbolTable

namespace Session

variable {s s' s₁ : Session} {r x : Ref} {t u : SymbolTable}

def ownHit? (s : Session) (r : Ref) (q : Nat) : Option Hit :=
  (s.heap.table? r).bind (·.hit? s.extent q)

theorem ownHit?_of_table? (ht : s.heap.table? r = some t) (q : Nat) :
    s.ownHit? r q = t.hit? s.extent q := by
  rw [ownHit?, ht, Option.bind_some]

theorem ownHit?_eq_some_iff {q : Nat} {h : Hit} : s.ownHit? r q = some h ↔ s.Covers q r h := by
  simp only [ownHit?, Option.bind_eq_some_iff, SymbolTable.hit?_eq_some_iff]
  constructor
  · rintro ⟨t, ht, hstored, hsum, hsize⟩
    exact ⟨⟨t, ht, hstored⟩, hsum, hsize⟩
  · rintro ⟨⟨t, ht, hstored⟩, hsum, hsize⟩
    exact ⟨t, ht, hstored, hsum, hsize⟩

theorem extent_pos {symbol : Ref} {size : Nat} (h : s.extent symbol = some size) : 0 < size := by
  unfold extent at h
  split at h
  · cases h
  · dsimp only at h
    split at h
    · cases h
    · cases h
      omega

theorem lookup_of_inside {q : Nat} {h : Hit} {rest : List Ref} (hinside : s.inside q r = x :: rest)
    (hhit : s.ownHit? x q = some h) : (s.lookup r q).1 = .ok ⟨h, x⟩ := by
  refine lookup_eq_ok_iff.mpr ⟨[], rest ++ s.outside r, ?_, ownHit?_eq_some_iff.mp hhit, nofun⟩
  rw [consulted, hinside]
  rfl

theorem inside_of_childless (ht : s.heap.table? r = some t) (hchildren : t.children = [])
    (depth q : Nat) : Nesting.inside s.heap.table? s.extent q (depth + 1) r = [r] := by
  rw [Nesting.inside, Heap.children_of_table? ht, hchildren]
  rfl

theorem lookup_of_childless (ht : s.heap.table? r = some t) (hchildren : t.children = [])
    {q : Nat} {h : Hit} (hhit : s.ownHit? r q = some h) : (s.lookup r q).1 = .ok ⟨h, r⟩ := by
  have hsize : [r].length ≤ s.heap.size := by
    refine s.heap.atMost_size [r] (List.nodup_singleton r) fun a ha => ?_
    rw [List.mem_singleton.mp ha, ht]
    rfl
  obtain ⟨depth, hdepth⟩ := Nat.exists_eq_add_of_le' hsize
  have hinside : s.inside q r = [r] := by
    rw [inside, hdepth]
    exact inside_of_childless ht hchildren depth q
  exact lookup_of_inside hinside hhit

structure Rewrites (s s' : Session) (r : Ref) (t : SymbolTable) : Prop where
  tables : ∀ x, s'.heap.table? x = if x = r then some t else s.heap.table? x
  extents : s'.extent = s.extent

theorem rewrites_setBody (hreads : s.Reads s₁) (hr : s.heap.table? r = some u)
    (t : SymbolTable) : s.Rewrites ((s₁.notify .changed r).setBody r (.table t)) r t := by
  have htables : (s₁.notify .changed r).heap.table? = s.heap.table? := by
    rw [reactive_tables.notify s₁ .changed r, hreads.heap]
  have hr₁ : (s₁.notify .changed r).heap.table? r = some u := by rw [htables, hr]
  constructor
  case tables =>
    intro x
    rw [← htables]
    exact Heap.table?_setBody hr₁ t x
  case extents =>
    have hsizes := (SameSizes.reads hreads).trans (sameSizes_notify s₁ r)
    exact (hsizes.trans (sameSizes_setBody hr₁ t)).extent

theorem Rewrites.table?_self (h : s.Rewrites s' r t) : s'.heap.table? r = some t := by
  rw [h.tables, if_pos rfl]

theorem Rewrites.ownHit?_self (h : s.Rewrites s' r t) (q : Nat) :
    s'.ownHit? r q = t.hit? s.extent q := by
  rw [ownHit?_of_table? h.table?_self, h.extents]

theorem Rewrites.ownHit?_other (h : s.Rewrites s' r t) (hx : x ≠ r) (q : Nat) :
    s'.ownHit? x q = s.ownHit? x q := by
  rw [ownHit?, ownHit?, h.tables, if_neg hx, h.extents]

section

variable (ht : s.heap.table? r = some t)

include ht

theorem addSymbol_eq (offset : Nat) (symbol : Ref) :
    s.addSymbol r offset symbol =
      (t.symbols.get? offset,
       (s.notify .changed r).setBody r (.table (t.withEntry offset symbol))) := by
  rw [← notify_setBody ht]
  simp only [addSymbol, ht]
  rfl

theorem removeSymbol_rewrites {q : Nat} {h : Hit} (hhit : s.ownHit? r q = some h) :
    (s.removeSymbol r q).1 = .ok h.symbol ∧
      s.Rewrites (s.removeSymbol r q).2 r (t.withoutEntry h.entry) := by
  have hreads : s.Reads (s.surveyed (t.hitReads q)) := reads_forgets s _
  have hasked : (s.surveyed (t.hitReads q)).heap.table? r = some t := ht
  have hremove : s.removeSymbol r q =
      (.ok h.symbol,
       ((s.surveyed (t.hitReads q)).setBody r (.table (t.withoutEntry h.entry))).notify
        .changed r) := by
    rw [ownHit?_of_table? ht] at hhit
    simp only [removeSymbol, ht, hhit]
    rfl
  rw [hremove, notify_setBody hasked]
  exact ⟨rfl, rewrites_setBody hreads ht _⟩

theorem removeSymbol_misses {q : Nat} (hmiss : s.ownHit? r q = none) :
    (s.removeSymbol r q).1 = .error (.during "remove_symbol" q (.noSymbol q)) ∧
      s.Reads (s.removeSymbol r q).2 := by
  rw [ownHit?_of_table? ht] at hmiss
  simp only [removeSymbol, ht, hmiss, true_and]
  exact reads_forgets s _

theorem rewrites_addSymbol (offset : Nat) (symbol : Ref) :
    s.Rewrites (s.addSymbol r offset symbol).2 r (t.withEntry offset symbol) := by
  rw [addSymbol_eq ht]
  exact rewrites_setBody (.refl s) ht _

theorem ownHit?_addSymbol (offset : Nat) (symbol : Ref) (q : Nat) :
    (s.addSymbol r offset symbol).2.ownHit? r q =
      if t.Governs offset q then
        if (s.extent symbol).all (q - offset < ·) then some ⟨offset, symbol, q - offset⟩ else none
      else s.ownHit? r q := by
  rw [(rewrites_addSymbol ht offset symbol).ownHit?_self, SymbolTable.hit?_withEntry,
    ownHit?_of_table? ht]

theorem ownHit?_addSymbol_of_reach {offset k : Nat} {symbol : Ref}
    (hk : t.Governs offset (offset + k)) (hsize : (s.extent symbol).all (k < ·) = true) :
    (s.addSymbol r offset symbol).2.ownHit? r (offset + k) = some ⟨offset, symbol, k⟩ := by
  rw [ownHit?_addSymbol ht, if_pos hk, Nat.add_sub_cancel_left, if_pos hsize]

theorem lookup_addSymbol (hchildren : t.children = []) {offset k : Nat} {symbol : Ref}
    (hk : t.Governs offset (offset + k)) (hsize : (s.extent symbol).all (k < ·) = true) :
    ((s.addSymbol r offset symbol).2.lookup r (offset + k)).1 = .ok ⟨⟨offset, symbol, k⟩, r⟩ := by
  have hself := (rewrites_addSymbol ht offset symbol).table?_self
  exact lookup_of_childless hself hchildren (ownHit?_addSymbol_of_reach ht hk hsize)

theorem removeSymbol_addSymbol {offset : Nat} (hfree : t.symbols.get? offset = none)
    (symbol : Ref) :
    ((s.addSymbol r offset symbol).2.removeSymbol r offset).1 = .ok symbol ∧
      ((s.addSymbol r offset symbol).2.removeSymbol r offset).2.heap.table? = s.heap.table? := by
  have hadded := rewrites_addSymbol ht offset symbol
  have hsize : (s.extent symbol).all (0 < ·) = true := by
    cases hextent : s.extent symbol with
    | none => rfl
    | some size => simpa using extent_pos hextent
  have hhit : (s.addSymbol r offset symbol).2.ownHit? r offset = some ⟨offset, symbol, 0⟩ :=
    ownHit?_addSymbol_of_reach ht (t.governs_self offset) hsize
  obtain ⟨hanswer, hremoved⟩ := removeSymbol_rewrites hadded.table?_self hhit
  refine ⟨hanswer, funext fun x => ?_⟩
  rw [hremoved.tables, SymbolTable.withoutEntry_withEntry hfree]
  split
  · rename_i hx
    rw [hx, ht]
  · rename_i hx
    rw [hadded.tables, if_neg hx]

theorem addSymbol_comm {o₁ o₂ : Nat} (h : o₁ ≠ o₂) (y₁ y₂ : Ref) :
    (s.addSymbol r o₁ y₁).2.addSymbol r o₂ y₂ =
      ((s.addSymbol r o₂ y₂).1, ((s.addSymbol r o₂ y₂).2.addSymbol r o₁ y₁).2) := by
  have hnotified : (s.notify .changed r).heap.table? r = some t := by
    rw [reactive_tables.notify s .changed r, ht]
  have hfirst := addSymbol_eq (rewrites_addSymbol ht o₁ y₁).table?_self o₂ y₂
  have hsecond := addSymbol_eq (rewrites_addSymbol ht o₂ y₂).table?_self o₁ y₁
  rw [hfirst, hsecond]
  simp only [addSymbol_eq ht, notify_setBody hnotified, setBody_setBody,
    SymbolTable.withEntry_comm t h]
  rw [SymbolTable.withEntry, KeyMap.get?_insert, if_neg (Ne.symm h)]

end

theorem symbol_edits_local (s : Session) (r : Ref) (t : SymbolTable)
    (ht : s.heap.table? r = some t) :
    (∀ offset symbol,
      s.Rewrites (s.addSymbol r offset symbol).2 r (t.withEntry offset symbol) ∧
      (∀ q, (s.addSymbol r offset symbol).2.ownHit? r q =
        if t.Governs offset q then
          if (s.extent symbol).all (q - offset < ·) then some ⟨offset, symbol, q - offset⟩ else none
        else s.ownHit? r q) ∧
      (∀ x q, x ≠ r → (s.addSymbol r offset symbol).2.ownHit? x q = s.ownHit? x q) ∧
      (t.children = [] → ∀ k, t.Governs offset (offset + k) → (s.extent symbol).all (k < ·) →
        ((s.addSymbol r offset symbol).2.lookup r (offset + k)).1 =
          .ok ⟨⟨offset, symbol, k⟩, r⟩) ∧
      (t.symbols.get? offset = none →
        ((s.addSymbol r offset symbol).2.removeSymbol r offset).1 = .ok symbol ∧
        ((s.addSymbol r offset symbol).2.removeSymbol r offset).2.heap.table? = s.heap.table?)) ∧
    (∀ q, match s.ownHit? r q with
      | some h =>
        (s.removeSymbol r q).1 = .ok h.symbol ∧ t.symbols.get? h.entry = some h.symbol ∧
          s.Rewrites (s.removeSymbol r q).2 r (t.withoutEntry h.entry)
      | none =>
        (s.removeSymbol r q).1 = .error (.during "remove_symbol" q (.noSymbol q)) ∧
          s.Reads (s.removeSymbol r q).2) ∧
    (∀ o₁ o₂ y₁ y₂, o₁ ≠ o₂ →
      (s.addSymbol r o₁ y₁).2.addSymbol r o₂ y₂ =
        ((s.addSymbol r o₂ y₂).1, ((s.addSymbol r o₂ y₂).2.addSymbol r o₁ y₁).2)) := by
  refine ⟨fun offset symbol => ⟨rewrites_addSymbol ht offset symbol, fun q => ?_,
    fun x q hx => ?_, fun hchildren k hk hsize => ?_, fun hfree => ?_⟩, fun q => ?_,
    fun o₁ o₂ y₁ y₂ h => ?_⟩
  · exact ownHit?_addSymbol ht offset symbol q
  · exact (rewrites_addSymbol ht offset symbol).ownHit?_other hx q
  · exact lookup_addSymbol ht hchildren hk hsize
  · exact removeSymbol_addSymbol ht hfree symbol
  · split
    · rename_i h hhit
      obtain ⟨⟨u, hu, hget, _⟩, _, _⟩ := ownHit?_eq_some_iff.mp hhit
      cases ht.symm.trans hu
      obtain ⟨hanswer, hrewrites⟩ := removeSymbol_rewrites ht hhit
      exact ⟨hanswer, hget, hrewrites⟩
    · rename_i hmiss
      exact removeSymbol_misses ht hmiss
  · exact addSymbol_comm ht h y₁ y₂

theorem threeTables_edited :
    threeTables.heap.table? 5 = some { symbols := .ofList [(4, 3), (16, 3)] } ∧
      ((threeTables.addSymbol 5 6 2).2.lookup 5 15).1 = .ok ⟨⟨6, 2, 9⟩, 5⟩ ∧
      (threeTables.addSymbol 5 6 2).2.ownHit? 5 5 = some ⟨4, 3, 1⟩ ∧
      ((threeTables.addSymbol 5 6 2).2.removeSymbol 5 6).1 = .ok 2 ∧
      ((threeTables.addSymbol 5 6 3).2.lookup 5 9).1 = .ok ⟨⟨6, 3, 3⟩, 5⟩ ∧
      (threeTables.addSymbol 5 6 3).2.ownHit? 5 10 = none ∧
      (threeTables.removeSymbol 5 10).1 = .error (.during "remove_symbol" 10 (.noSymbol 10)) ∧
      threeTables.Reads (threeTables.removeSymbol 5 10).2 := by
  have ht : threeTables.heap.table? 5 = some { symbols := .ofList [(4, 3), (16, 3)] } := rfl
  obtain ⟨hadd, hremoves, _⟩ := symbol_edits_local threeTables 5 _ ht
  obtain ⟨_, hown, _, hlookup, hremove⟩ := hadd 6 2
  obtain ⟨_, hsized, _, hlookup', _⟩ := hadd 6 3
  have hmissed := hremoves 10
  rw [show threeTables.ownHit? 5 10 = none by decide] at hmissed
  refine ⟨ht, hlookup rfl 9 (by decide) (by decide), ?_, (hremove (by decide)).1,
    hlookup' rfl 3 (by decide) (by decide), ?_, hmissed⟩
  · rw [hown, if_neg (by decide)]
    decide
  · rw [hsized, if_pos (by decide), if_neg (by decide)]

end Session

end BinaryAtlas
