import BinaryAtlas.Proofs.Session.Nesting

namespace BinaryAtlas

namespace SymbolTable

variable {extent : Ref → Option Nat} {t : SymbolTable} {offset : Nat}

theorem hit?_eq_some_iff {h : Hit} :
    t.hit? extent offset = some h ↔
      (t.symbols.get? h.entry = some h.symbol ∧ ∀ k ∈ t.symbols.keys, k ≤ offset → k ≤ h.entry) ∧
        h.entry + h.displacement = offset ∧
        ∀ size, extent h.symbol = some size → h.displacement < size := by
  obtain ⟨entry, symbol, displacement⟩ := h
  have hfloor : t.symbols.floor? offset = some (entry, symbol) ↔
      t.symbols.get? entry = some symbol ∧ entry ≤ offset ∧
        ∀ k ∈ t.symbols.keys, k ≤ offset → k ≤ entry := KeyMap.floor?_eq_some_iff
  dsimp only
  constructor
  · intro hhit
    unfold hit? at hhit
    split at hhit
    · cases hhit
    · rename_i e y hy
      split at hhit
      · rename_i size hsize
        split at hhit
        · rename_i hlt
          cases hhit
          obtain ⟨hget, hle, hmax⟩ := hfloor.mp hy
          refine ⟨⟨hget, hmax⟩, by omega, fun n hn => ?_⟩
          rw [hsize] at hn
          cases hn
          exact hlt
        · cases hhit
      · rename_i hnone
        cases hhit
        obtain ⟨hget, hle, hmax⟩ := hfloor.mp hy
        refine ⟨⟨hget, hmax⟩, by omega, fun n hn => ?_⟩
        rw [hnone] at hn
        cases hn
  · rintro ⟨⟨hget, hmax⟩, hsum, hsize⟩
    have hy := hfloor.mpr ⟨hget, by omega, hmax⟩
    have hdisplacement : offset - entry = displacement := by omega
    unfold hit?
    rw [hy]
    cases hn : extent symbol with
    | none => simp [hn, hdisplacement]
    | some size => simp [hn, hdisplacement, hsize size hn]

end SymbolTable

namespace Nesting

variable {tables : Ref → Option SymbolTable} {size : Nat} {r p : Ref}

section

variable (hn : Nested (parent? tables) (children tables)) (hs : AtMost tables size)

include hn hs

theorem chain_eq (hr : (tables r).isSome = true) :
    chain tables size r = r :: match parent? tables r with
      | some p => chain tables size p
      | none => [] :=
  (chain_eq_of_le hn hs (Nat.le_succ size)).symm.trans (chain_succ hr size)

theorem inside_eq (extent : Ref → Option Nat) (offset : Nat) (hr : (tables r).isSome = true) :
    inside tables extent offset size r =
      ((children tables r).filter (spannedBy tables extent offset)).flatMap
        (inside tables extent offset size) ++ [r] := by
  have hpos : 0 < (chain tables size r).length := by
    rw [chain_eq hn hs hr]
    exact Nat.succ_pos _
  rw [inside_eq_of_lt hn hs extent offset size (size + 1) r (by omega) (by omega)]
  rfl

end

theorem lookup?_eq_findSome? (extent : Ref → Option Nat) (depth : Nat) (r : Ref) (offset : Nat) :
    lookup? tables extent depth r offset =
      (inside tables extent offset depth r ++ (chain tables depth r).drop 1).findSome?
        (hitIn? tables extent offset) := by
  rw [lookup?, down?_eq_findSome?, List.findSome?_append]
  cases (inside tables extent offset depth r).findSome? (hitIn? tables extent offset) <;> rfl

end Nesting

namespace Session

variable {s : Session} {r : Ref} {offset : Nat}

def spanned (s : Session) (offset : Nat) (r : Ref) : Bool :=
  match (s.span r).1 with
  | some (start, stop) => decide (start ≤ offset) && decide (offset < stop)
  | none => false

/-- The tables asked from a table inwards: those in the children that span the offset, in the order
of the children, and then the table itself. -/
def inside (s : Session) (offset : Nat) (r : Ref) : List Ref :=
  Nesting.inside s.heap.table? s.extent offset s.heap.size r

def outside (s : Session) (r : Ref) : List Ref :=
  (Nesting.chain s.heap.table? s.heap.size r).drop 1

def consulted (s : Session) (offset : Nat) (r : Ref) : List Ref :=
  s.inside offset r ++ s.outside r

structure Covers (s : Session) (offset : Nat) (r : Ref) (h : Hit) : Prop where
  stored : ∃ t, s.heap.table? r = some t ∧ t.symbols.get? h.entry = some h.symbol ∧
    ∀ k ∈ t.symbols.keys, k ≤ offset → k ≤ h.entry
  sum : h.entry + h.displacement = offset
  inExtent : ∀ size, s.extent h.symbol = some size → h.displacement < size

theorem spannedBy_eq (s : Session) (offset : Nat) :
    Nesting.spannedBy s.heap.table? s.extent offset = s.spanned offset := by
  funext r
  rw [Nesting.spannedBy, spanned, span]
  cases s.heap.table? r with
  | none => rfl
  | some t => rfl

theorem hitIn?_eq_some_iff {found : Nesting.Found} :
    Nesting.hitIn? s.heap.table? s.extent offset r = some found ↔
      found.table = r ∧ s.Covers offset r found.hit := by
  obtain ⟨h, q⟩ := found
  simp only [Nesting.hitIn?, Option.bind_eq_some_iff, Option.map_eq_some_iff,
    SymbolTable.hit?_eq_some_iff, Nesting.Found.mk.injEq]
  constructor
  · rintro ⟨t, ht, h', ⟨hstored, hsum, hsize⟩, rfl, rfl⟩
    exact ⟨rfl, ⟨t, ht, hstored⟩, hsum, hsize⟩
  · rintro ⟨rfl, ⟨t, ht, hstored⟩, hsum, hsize⟩
    exact ⟨t, ht, h, ⟨hstored, hsum, hsize⟩, rfl, rfl⟩

theorem hitIn?_eq_none_iff :
    Nesting.hitIn? s.heap.table? s.extent offset r = none ↔ ∀ h, ¬ s.Covers offset r h := by
  rw [Option.eq_none_iff_forall_ne_some]
  constructor
  · intro hnone h hcovers
    exact hnone ⟨h, r⟩ (hitIn?_eq_some_iff.mpr ⟨rfl, hcovers⟩)
  · intro hnot found hfound
    exact hnot found.hit (hitIn?_eq_some_iff.mp hfound).2

theorem lookup_answer (s : Session) (table : Ref) (offset : Nat) :
    (s.lookup table offset).1 =
      match (s.consulted offset table).findSome?
        (Nesting.hitIn? s.heap.table? s.extent offset) with
      | some found => .ok found
      | none => .error (.noSymbol offset) := by
  have hlookup : Nesting.lookup? s.heap.table? s.extent s.heap.size table offset =
      (s.consulted offset table).findSome? (Nesting.hitIn? s.heap.table? s.extent offset) :=
    Nesting.lookup?_eq_findSome? ..
  cases hfind : (s.consulted offset table).findSome?
      (Nesting.hitIn? s.heap.table? s.extent offset) <;>
    simp only [lookup, hlookup, hfind]

theorem lookup_eq_ok_iff {table : Ref} {found : Nesting.Found} :
    (s.lookup table offset).1 = .ok found ↔ ∃ before after,
      s.consulted offset table = before ++ found.table :: after ∧
        s.Covers offset found.table found.hit ∧ ∀ r ∈ before, ∀ h, ¬ s.Covers offset r h := by
  have hfind : (s.lookup table offset).1 = .ok found ↔ (s.consulted offset table).findSome?
      (Nesting.hitIn? s.heap.table? s.extent offset) = some found := by
    rw [lookup_answer]
    split
    · rename_i found' hfound'
      rw [hfound', Except.ok.injEq, Option.some.injEq]
    · rename_i hnone
      rw [hnone]
      exact ⟨nofun, nofun⟩
  rw [hfind, List.findSome?_eq_some_iff]
  simp only [hitIn?_eq_some_iff, hitIn?_eq_none_iff]
  constructor
  · rintro ⟨before, r, after, hlist, ⟨rfl, hcovers⟩, hmiss⟩
    exact ⟨before, after, hlist, hcovers, hmiss⟩
  · rintro ⟨before, after, hlist, hcovers, hmiss⟩
    exact ⟨before, found.table, after, hlist, ⟨rfl, hcovers⟩, hmiss⟩

theorem lookup_eq_error_iff {table : Ref} {e : Error} :
    (s.lookup table offset).1 = .error e ↔
      e = .noSymbol offset ∧ ∀ r ∈ s.consulted offset table, ∀ h, ¬ s.Covers offset r h := by
  have hfind : (s.lookup table offset).1 = .error e ↔ e = .noSymbol offset ∧
      (s.consulted offset table).findSome?
        (Nesting.hitIn? s.heap.table? s.extent offset) = none := by
    rw [lookup_answer]
    split
    · rename_i found hfound
      rw [hfound]
      exact ⟨nofun, nofun⟩
    · rename_i hnone
      rw [hnone, Except.error.injEq, eq_comm]
      exact (and_iff_left rfl).symm
  rw [hfind, List.findSome?_eq_none_iff]
  simp only [hitIn?_eq_none_iff]

theorem inside_unfold (hf : s.heap.Forest) (hr : (s.heap.table? r).isSome = true) (offset : Nat) :
    s.inside offset r =
      ((s.children r).filter (s.spanned offset)).flatMap (s.inside offset) ++ [r] := by
  rw [inside, Nesting.inside_eq hf.nested s.heap.atMost_size s.extent offset hr, spannedBy_eq]
  rfl

theorem outside_unfold (hf : s.heap.Forest) (hr : (s.heap.table? r).isSome = true) :
    s.outside r = match s.parent? r with
      | some p => p :: s.outside p
      | none => [] := by
  have hchain := fun q hq => Nesting.chain_eq hf.nested s.heap.atMost_size (r := q) hq
  rw [outside, hchain r hr, parent?_eq hf.linked]
  cases hp : Nesting.parent? s.heap.table? r with
  | none => rfl
  | some p =>
    dsimp only
    rw [outside, hchain p (Nesting.isSome_of_parent? hp).2]
    rfl

theorem lookup_innermost (s : Session) (hf : s.heap.Forest) (table : Ref) (offset : Nat) :
    (∀ r, (s.heap.table? r).isSome = true → s.inside offset r =
      ((s.children r).filter (s.spanned offset)).flatMap (s.inside offset) ++ [r]) ∧
    (∀ r, (s.heap.table? r).isSome = true → s.outside r = match s.parent? r with
      | some p => p :: s.outside p
      | none => []) ∧
    (∀ found, (s.lookup table offset).1 = .ok found ↔ ∃ before after,
      s.consulted offset table = before ++ found.table :: after ∧
        s.Covers offset found.table found.hit ∧ ∀ r ∈ before, ∀ h, ¬ s.Covers offset r h) ∧
    (∀ e, (s.lookup table offset).1 = .error e ↔
      e = .noSymbol offset ∧ ∀ r ∈ s.consulted offset table, ∀ h, ¬ s.Covers offset r h) := by
  refine ⟨fun r hr => ?_, fun r hr => ?_, fun found => ?_, fun e => ?_⟩
  · exact inside_unfold hf hr offset
  · exact outside_unfold hf hr
  · exact lookup_eq_ok_iff
  · exact lookup_eq_error_iff

def threeTables : Session :=
  { heap := [
      { uuid := ⟨0⟩, id := 10, name := "void", body := .dataType .void },
      { uuid := ⟨1⟩, id := 11, name := "int", body := .dataType (.scalar 4 true false) },
      { uuid := ⟨2⟩, id := 12, name := "f", body := .symbol { kind := .function, type := 0 } },
      { uuid := ⟨3⟩, id := 13, name := "x", body := .symbol { kind := .variable, type := 1 } },
      { uuid := ⟨4⟩, id := 14, name := "outer", body := .table { symbols := .ofList [(0, 2)] } },
      { uuid := ⟨5⟩, id := 15, name := "left",
        body := .table { symbols := .ofList [(4, 3), (16, 3)] } },
      { uuid := ⟨6⟩, id := 16, name := "right",
        body := .table { symbols := .ofList [(8, 3)] } }].foldl (fun h o => (h.alloc o).2) .empty
    supply := Uuid.mk }

def siblingTables : Session := ((threeTables.addChild 4 5).2.addChild 4 6).2

theorem forest_threeTables : threeTables.heap.Forest := by
  have htable : ∀ symbols, Unnested (Body.table { symbols }).nesting? := by
    rintro symbols x ⟨⟩
    rfl
  simp only [threeTables, List.foldl_cons, List.foldl_nil]
  repeat apply Heap.Forest.alloc _ (htable _)
  repeat apply Heap.Forest.alloc _ (unnested_of_table? rfl)
  exact .empty

theorem forest_siblingTables : siblingTables.heap.Forest := by
  have hleft : (threeTables.addChild 4 5).1 = true := by decide
  have hright : ((threeTables.addChild 4 5).2.addChild 4 6).1 = true := by decide
  exact (forest_addChild (forest_addChild forest_threeTables hleft).1 hright).1

theorem siblingTables_innermost :
    siblingTables.heap.Forest ∧ siblingTables.consulted 10 4 = [5, 6, 4] ∧
      (siblingTables.lookup 4 10).1 = .ok ⟨⟨8, 3, 2⟩, 6⟩ ∧ siblingTables.Covers 10 6 ⟨8, 3, 2⟩ := by
  have hlist : siblingTables.consulted 10 4 = [5, 6, 4] := by decide
  have hok : (siblingTables.lookup 4 10).1 = .ok ⟨⟨8, 3, 2⟩, 6⟩ := by decide
  obtain ⟨_, _, _, hcovers, _⟩ :=
    ((lookup_innermost siblingTables forest_siblingTables 4 10).2.2.1 _).mp hok
  exact ⟨forest_siblingTables, hlist, hok, hcovers⟩

end Session

end BinaryAtlas
