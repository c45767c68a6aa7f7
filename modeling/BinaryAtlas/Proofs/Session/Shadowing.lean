import BinaryAtlas.Proofs.Session.Entries

/-!
Whether a table nested in another hides it at its own entries. A span ends at the largest word at
the latest and does not include its end. So an entry at the largest word lies outside of the span of
its own table, and a look-up from the table around it never asks for it.
-/

namespace BinaryAtlas

theorem SymbolTable.spans_iff_of_mem {extent : Ref → Option Nat} {t : SymbolTable} {k : Nat}
    (hpos : ∀ symbol size, extent symbol = some size → 0 < size) (hk : k ∈ t.symbols.keys) :
    t.spans extent k = true ↔ k < Word.top := by
  obtain ⟨first, _, hfirst, hle⟩ := KeyMap.exists_first?_of_mem hk
  obtain ⟨last, symbol, hlast, hge⟩ := KeyMap.exists_last?_of_mem hk
  have hsize : 0 < (extent symbol).getD 1 := by
    cases hextent : extent symbol with
    | none => exact Nat.one_pos
    | some size => exact hpos symbol size hextent
  simp only [spans, span?, hfirst, hlast, Word.addSat, Bool.and_eq_true, decide_eq_true_eq]
  omega

namespace Session

variable {s : Session} {r p c : Ref} {t tp tc : SymbolTable}

theorem spanned_iff_of_mem (ht : s.heap.table? r = some t) {k : Nat} (hk : k ∈ t.symbols.keys) :
    s.spanned k r = true ↔ k < Word.top := by
  rw [← SymbolTable.spans_iff_of_mem (fun _ _ => extent_pos (s := s)) hk, spanned, span, ht]
  rfl

theorem ownHit?_of_get? (ht : s.heap.table? r = some t) {offset : Nat} {symbol : Ref}
    (hget : t.symbols.get? offset = some symbol) :
    s.ownHit? r offset = some ⟨offset, symbol, 0⟩ :=
  ownHit?_eq_some_iff.mpr ⟨⟨t, ht, hget, fun _ _ hle => hle⟩, rfl, fun _ => extent_pos⟩

section

variable (hp : s.heap.table? p = some tp) (hc : s.heap.table? c = some tc)
  (honly : tp.children = [c]) (hleaf : tc.children = [])

include hp hc honly hleaf

theorem ne_of_only_child : p ≠ c := by
  rintro rfl
  cases hp.symm.trans hc
  cases honly.symm.trans hleaf

theorem inside_of_only_child (q : Nat) :
    s.inside q p = if s.spanned q c then [c, p] else [p] := by
  have hsize : [p, c].length ≤ s.heap.size := by
    refine s.heap.atMost_size [p, c] ?_ fun a ha => ?_
    · simpa using ne_of_only_child hp hc honly hleaf
    · rcases List.mem_pair.mp ha with rfl | rfl
      · rw [hp]
        rfl
      · rw [hc]
        rfl
  obtain ⟨depth, hdepth⟩ := Nat.exists_eq_add_of_le' hsize
  have hchild := inside_of_childless hc hleaf depth q
  rw [inside, hdepth, List.length_cons, List.length_singleton, ← Nat.add_assoc, Nesting.inside,
    Heap.children_of_table? hp, honly, spannedBy_eq]
  cases hspanned : s.spanned q c <;> simp [hspanned, hchild]

theorem only_child_not_mem_outside (hf : s.heap.Forest) : c ∉ s.outside p := by
  intro hmem
  have hlive : (s.heap.table? p).isSome = true := by
    rw [hp]
    rfl
  have haround := (Nesting.mem_chain_iff hf.nested s.heap.atMost_size hlive).mp
    (List.mem_of_mem_drop hmem)
  rcases Relation.ReflTransGen.cases_tail haround with heq | ⟨x, _, hx⟩
  · exact ne_of_only_child hp hc honly hleaf heq.symm
  · have hchild := (hf.nested.mem_children_iff c x).mpr hx
    rw [Heap.children_of_table? hc, hleaf] at hchild
    cases hchild

end

theorem child_shadows_iff (s : Session) (p c : Ref) (tp tc : SymbolTable)
    (hp : s.heap.table? p = some tp) (hc : s.heap.table? c = some tc)
    (honly : tp.children = [c]) (hleaf : tc.children = []) :
    (∀ r t, s.heap.table? r = some t →
      ∀ k ∈ t.symbols.keys, s.spanned k r = true ↔ k < Word.top) ∧
    (∀ q, s.inside q p = if s.spanned q c then [c, p] else [p]) ∧
    ∀ offset symbol, tc.symbols.get? offset = some symbol →
      (offset < Word.top → (s.lookup p offset).1 = .ok ⟨⟨offset, symbol, 0⟩, c⟩) ∧
      (s.heap.Forest → (s.lookup p offset).1 = .ok ⟨⟨offset, symbol, 0⟩, c⟩ →
        offset < Word.top) := by
  refine ⟨fun r t ht k hk => spanned_iff_of_mem ht hk, fun q => ?_, fun offset symbol hget => ?_⟩
  · exact inside_of_only_child hp hc honly hleaf q
  have hspanned := spanned_iff_of_mem hc (KeyMap.mem_keys_of_get? hget)
  have hinside := inside_of_only_child hp hc honly hleaf offset
  constructor
  · intro hlt
    rw [if_pos (hspanned.mpr hlt)] at hinside
    exact lookup_of_inside hinside (ownHit?_of_get? hc hget)
  · intro hf hfound
    obtain ⟨before, after, hlist, _, _⟩ := lookup_eq_ok_iff.mp hfound
    have hmem : c ∈ s.consulted offset p := by simp [hlist]
    rcases List.mem_append.mp hmem with hin | hout
    · by_cases hlt : s.spanned offset c = true
      · exact hspanned.mp hlt
      · rw [hinside, if_neg hlt, List.mem_singleton] at hin
        exact absurd hin.symm (ne_of_only_child hp hc honly hleaf)
    · exact absurd hout (only_child_not_mem_outside hp hc honly hleaf hf)

def topEntry : Session := ((threeTables.addSymbol 5 Word.top 3).2.addChild 4 5).2

theorem forest_topEntry : topEntry.heap.Forest := by
  have hadded : (threeTables.addSymbol 5 Word.top 3).2.heap.Forest :=
    forest_threeTables.of_keeps (addSymbol_quiet threeTables 5 Word.top 3)
  have hnested : ((threeTables.addSymbol 5 Word.top 3).2.addChild 4 5).1 = true := by decide
  exact (forest_addChild hadded hnested).1

theorem topEntry_shadowed :
    topEntry.heap.table? 4 = some { symbols := .ofList [(0, 2)], children := [5] } ∧
      topEntry.heap.table? 5 =
        some { symbols := .ofList [(4, 3), (16, 3), (Word.top, 3)], parent := some 4 } ∧
      topEntry.heap.Forest ∧ (topEntry.lookup 4 16).1 = .ok ⟨⟨16, 3, 0⟩, 5⟩ := by
  have hp : topEntry.heap.table? 4 = some { symbols := .ofList [(0, 2)], children := [5] } := rfl
  have hc : topEntry.heap.table? 5 =
      some { symbols := .ofList [(4, 3), (16, 3), (Word.top, 3)], parent := some 4 } := rfl
  have hall := (child_shadows_iff topEntry 4 5 _ _ hp hc rfl rfl).2.2 16 3 (by decide)
  exact ⟨hp, hc, forest_topEntry, hall.1 (by decide)⟩

/-- The child has an entry there and finds it itself, but the table around it answers with its own
nearest one. -/
theorem topEntry_unshadowed :
    (topEntry.lookup 5 Word.top).1 = .ok ⟨⟨Word.top, 3, 0⟩, 5⟩ ∧
      (topEntry.span 5).1 = some (4, Word.top) ∧
      (topEntry.lookup 4 Word.top).1 = .ok ⟨⟨0, 2, Word.top⟩, 4⟩ := by
  decide

end Session

end BinaryAtlas
