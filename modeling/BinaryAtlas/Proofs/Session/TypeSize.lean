import Mathlib.Data.Fintype.Pigeonhole
import BinaryAtlas.Proofs.Forms
import BinaryAtlas.Proofs.Registry
import BinaryAtlas.Session.Basic

namespace BinaryAtlas

theorem Word.mulSat_min (a b : Nat) : mulSat (min top a) b = min top (a * b) := by
  rw [mulSat, Nat.min_comm]
  rcases Nat.le_total a top with hle | hge
  · rw [Nat.min_eq_right hle]
  · rw [Nat.min_eq_left hge]
    cases b with
    | zero => simp
    | succ b =>
      have htop : top ≤ top * (b + 1) := Nat.le_mul_of_pos_right top b.succ_pos
      have hmul : top * (b + 1) ≤ a * (b + 1) := Nat.mul_le_mul_right (b + 1) hge
      omega

namespace TypeKind

variable {resolve : HashId → Option TypeKind} {pointerSize : Nat} {kind : TypeKind}

def ownSize (pointerSize : Nat) : TypeKind → Nat
  | .void => 0
  | .signature => 0
  | .scalar size _ _ => size
  | .enumeration size => size
  | .struct size => size
  | .pointer _ => pointerSize
  | .array _ _ => 0
  | .alias _ => 0

def count : TypeKind → Nat
  | .array _ count => count
  | _ => 1

theorem Fits.ownSize_le (h : kind.Fits) (hp : pointerSize < Word.limit) :
    kind.ownSize pointerSize ≤ Word.top := by
  have hlimit : 0 < Word.limit := by decide
  cases kind <;> simp only [Fits, ownSize, Word.top] at h ⊢ <;> omega

theorem sizeWithin_eq_ownSize (h : kind.next? = none) (hops : Nat) :
    sizeWithin resolve pointerSize hops kind = kind.ownSize pointerSize := by
  cases kind <;> cases h <;> cases hops <;> rfl

theorem sizeWithin_zero {id : HashId} (h : kind.next? = some id) :
    sizeWithin resolve pointerSize 0 kind = 0 := by
  cases kind <;> cases h <;> rfl

theorem sizeWithin_of_unresolved {id : HashId} (h : kind.next? = some id)
    (hnone : resolve id = none) (hops : Nat) :
    sizeWithin resolve pointerSize (hops + 1) kind = 0 := by
  cases kind <;> cases h <;> simp [sizeWithin, hnone]

theorem sizeWithin_of_resolved {id : HashId} {next : TypeKind} {size hops : Nat}
    (h : kind.next? = some id) (hnext : resolve id = some next)
    (hsize : sizeWithin resolve pointerSize hops next = min Word.top size) :
    sizeWithin resolve pointerSize (hops + 1) kind = min Word.top (size * kind.count) := by
  cases kind <;> cases h
  all_goals simp only [sizeWithin, hnext, hsize, count, Word.mulSat_min, Nat.mul_one]

theorem sizeWithin_of_resolved_zero {id : HashId} {next : TypeKind} {hops : Nat}
    (h : kind.next? = some id) (hnext : resolve id = some next)
    (hsize : sizeWithin resolve pointerSize hops next = 0) :
    sizeWithin resolve pointerSize (hops + 1) kind = 0 := by
  have hmin : sizeWithin resolve pointerSize hops next = min Word.top 0 := by simpa using hsize
  simpa using sizeWithin_of_resolved h hnext hmin

end TypeKind

namespace Session

variable {s : Session} {r q z w : Ref} {m n c d : Nat} {id : HashId} {kind leaf : TypeKind}

/-- In that many steps, each to the type that the last one names, a type leads to another; the
number behind is the product of the counts of the arrays on the way. -/
inductive Follows (s : Session) : Ref → Nat → Nat → Ref → Prop
  | refl (r : Ref) : Follows s r 0 1 r
  | step {r q z : Ref} {kind : TypeKind} {id : HashId} {n c : Nat}
      (kind? : s.heap.kind? r = some kind) (next : kind.next? = some id)
      (found : (s.fetch id .dataType).1 = .ok q) (rest : Follows s q n c z) :
      Follows s r (n + 1) (c * kind.count) z

def Ends (s : Session) (r : Ref) (n c : Nat) (leaf : TypeKind) : Prop :=
  ∃ z, s.Follows r n c z ∧ s.heap.kind? z = some leaf ∧ leaf.next? = none

def Breaks (s : Session) (r : Ref) : Prop :=
  ∃ n c z kind id, s.Follows r n c z ∧ s.heap.kind? z = some kind ∧ kind.next? = some id ∧
    ∀ q, (s.fetch id .dataType).1 ≠ .ok q

def Cycles (s : Session) (r : Ref) : Prop :=
  ∃ m c z n d, s.Follows r m c z ∧ s.Follows z (n + 1) d z

theorem exists_kind?_of_fetch (h : (s.fetch id .dataType).1 = .ok q) :
    ∃ kind, s.heap.kind? q = some kind := by
  have hclass : s.heap.class? q = some .dataType := (Registry.getAs_eq_ok_iff.mp h).2
  obtain ⟨o, ho, hc⟩ := Option.map_eq_some_iff.mp hclass
  cases hb : o.body with
  | dataType k => exact ⟨k, by simp [Heap.kind?, ho, hb, Body.kind?]⟩
  | _ => simp [Object.classOf, hb, Body.classOf] at hc

theorem resolve_of_fetch (h : (s.fetch id .dataType).1 = .ok q) : s.resolve id = s.heap.kind? q := by
  have hget : s.registry.getAs s.live id .dataType = .ok q := h
  rw [resolve, hget]

theorem resolve_eq_none (h : ∀ q, (s.fetch id .dataType).1 ≠ .ok q) : s.resolve id = none := by
  cases hget : s.registry.getAs s.live id .dataType with
  | ok q => exact absurd hget (h q)
  | error e => rw [resolve, hget]

theorem sizeOf_of_kind? (h : s.heap.kind? r = some kind) :
    s.sizeOf r =
      kind.sizeWithin s.resolve s.config.analysis.pointerSize TypeKind.maxHops := by
  rw [sizeOf, h]
  rfl

section

variable {pointerSize : Nat}

theorem Follows.sizeWithin_eq (h : s.Follows r n c z) (hz : s.heap.kind? z = some leaf)
    (hleaf : leaf.next? = none) (hword : leaf.ownSize pointerSize ≤ Word.top)
    (hr : s.heap.kind? r = some kind) {hops : Nat} (hn : n ≤ hops) :
    kind.sizeWithin s.resolve pointerSize hops = min Word.top (leaf.ownSize pointerSize * c) := by
  induction h generalizing kind hops with
  | refl r =>
    cases hz.symm.trans hr
    rw [TypeKind.sizeWithin_eq_ownSize hleaf, Nat.mul_one, Nat.min_eq_right hword]
  | @step r q z k id n c hk next found rest ih =>
    cases hk.symm.trans hr
    obtain ⟨hops, rfl⟩ := Nat.exists_eq_add_of_le' (Nat.le_trans (Nat.le_add_left 1 n) hn)
    obtain ⟨k', hk'⟩ := exists_kind?_of_fetch found
    have hnext : s.resolve id = some k' := (resolve_of_fetch found).trans hk'
    rw [TypeKind.sizeWithin_of_resolved next hnext (ih hz hk' (by omega)), Nat.mul_assoc]

theorem exists_ends_of_sizeWithin_ne_zero {hops : Nat} (hr : s.heap.kind? r = some kind)
    (hsize : kind.sizeWithin s.resolve pointerSize hops ≠ 0) :
    ∃ n c leaf, n ≤ hops ∧ s.Ends r n c leaf := by
  induction hops generalizing r kind with
  | zero =>
    cases hnext : kind.next? with
    | none => exact ⟨0, 1, kind, Nat.le_refl 0, r, .refl r, hr, hnext⟩
    | some id => exact absurd (TypeKind.sizeWithin_zero hnext) hsize
  | succ hops ih =>
    cases hnext : kind.next? with
    | none => exact ⟨0, 1, kind, Nat.zero_le _, r, .refl r, hr, hnext⟩
    | some id =>
      cases hfound : (s.fetch id .dataType).1 with
      | error e =>
        have hnone : s.resolve id = none := resolve_eq_none fun q hq => by
          rw [hfound] at hq
          cases hq
        exact absurd (TypeKind.sizeWithin_of_unresolved hnext hnone hops) hsize
      | ok q =>
        obtain ⟨k, hk⟩ := exists_kind?_of_fetch hfound
        have hresolve : s.resolve id = some k := (resolve_of_fetch hfound).trans hk
        have hrest : k.sizeWithin s.resolve pointerSize hops ≠ 0 := fun hzero =>
          hsize (TypeKind.sizeWithin_of_resolved_zero hnext hresolve hzero)
        obtain ⟨n, c, leaf, hn, z, hfollows, hz, hleaf⟩ := ih hk hrest
        exact ⟨n + 1, _, leaf, by omega, z, .step hr hnext hfound hfollows, hz, hleaf⟩

end

theorem sizeOf_eq_zero (hr : s.heap.kind? r = some kind)
    (h : ¬ ∃ n c leaf, n ≤ TypeKind.maxHops ∧ s.Ends r n c leaf) : s.sizeOf r = 0 := by
  rw [sizeOf_of_kind? hr]
  by_contra hsize
  exact h (exists_ends_of_sizeWithin_ne_zero hr hsize)

theorem extent_eq_none {symbol : Symbol} (hq : s.heap.symbol? q = some symbol)
    (h : s.sizeOf symbol.type = 0) : s.extent q = none := by
  simp only [extent, hq, h, if_true]

theorem Follows.unique (h : s.Follows r n c z) (h' : s.Follows r n d w) : c = d ∧ z = w := by
  induction h generalizing d w with
  | refl r =>
    cases h'
    exact ⟨rfl, rfl⟩
  | step hk next found rest ih =>
    cases h' with
    | step hk' next' found' rest' =>
      cases hk.symm.trans hk'
      cases next.symm.trans next'
      cases found.symm.trans found'
      obtain ⟨rfl, rfl⟩ := ih rest'
      exact ⟨rfl, rfl⟩

theorem Follows.trans (h : s.Follows r m c z) (h' : s.Follows z n d w) :
    ∃ e, s.Follows r (m + n) e w := by
  induction h with
  | refl r => exact ⟨d, by rwa [Nat.zero_add]⟩
  | @step r q z kind id m c hk next found rest ih =>
    obtain ⟨e, he⟩ := ih h'
    exact ⟨e * kind.count, by rw [Nat.succ_add]; exact .step hk next found he⟩

theorem Follows.split (h : s.Follows r (m + n) c w) :
    ∃ d z e, s.Follows r m d z ∧ s.Follows z n e w := by
  induction m generalizing r c with
  | zero => exact ⟨1, r, c, .refl r, by rwa [Nat.zero_add] at h⟩
  | succ m ih =>
    rw [Nat.succ_add] at h
    cases h with
    | step hk next found rest =>
      obtain ⟨d, z, e, hfirst, hlast⟩ := ih rest
      exact ⟨_, z, e, .step hk next found hfirst, hlast⟩

def Halts (s : Session) (z : Ref) : Prop := ∀ n c w, ¬ s.Follows z (n + 1) c w

theorem halts_of_leaf (hz : s.heap.kind? z = some leaf) (hleaf : leaf.next? = none) : s.Halts z := by
  intro n c w h
  cases h with
  | step hk next _ _ =>
    cases hz.symm.trans hk
    cases hleaf.symm.trans next

theorem halts_of_unresolved (hz : s.heap.kind? z = some kind) (hnext : kind.next? = some id)
    (hnone : ∀ q, (s.fetch id .dataType).1 ≠ .ok q) : s.Halts z := by
  intro n c w h
  cases h with
  | step hk next found _ =>
    cases hz.symm.trans hk
    cases hnext.symm.trans next
    exact hnone _ found

theorem Follows.le_of_halts (h : s.Follows r m c z) (hz : s.Halts z) (h' : s.Follows r n d w) :
    n ≤ m := by
  by_contra hlt
  obtain ⟨k, rfl⟩ : ∃ k, n = m + (k + 1) := ⟨n - m - 1, by omega⟩
  obtain ⟨_, z', e, hfirst, hlast⟩ := h'.split
  obtain ⟨_, rfl⟩ := h.unique hfirst
  exact hz k e w hlast

theorem Follows.eq_of_halts (h : s.Follows r m c z) (hz : s.Halts z) (h' : s.Follows r n d w)
    (hw : s.Halts w) : m = n ∧ z = w := by
  have heq : m = n := Nat.le_antisymm (h'.le_of_halts hw h) (h.le_of_halts hz h')
  subst heq
  exact ⟨rfl, (h.unique h').2⟩

theorem Ends.hops_unique {k : TypeKind} (h : s.Ends r m c leaf) (h' : s.Ends r n d k) : m = n := by
  obtain ⟨z, hz, hkz, hleaf⟩ := h
  obtain ⟨w, hw, hkw, hk⟩ := h'
  exact (hz.eq_of_halts (halts_of_leaf hkz hleaf) hw (halts_of_leaf hkw hk)).1

theorem Breaks.not_ends (h : s.Breaks r) : ¬ ∃ n c leaf, s.Ends r n c leaf := by
  obtain ⟨m, d, w, kind, id, hw, hkw, hnext, hnone⟩ := h
  rintro ⟨n, c, leaf, z, hz, hkz, hleaf⟩
  have hhalts := halts_of_unresolved hkw hnext hnone
  obtain ⟨_, rfl⟩ := hz.eq_of_halts (halts_of_leaf hkz hleaf) hw hhalts
  cases hkz.symm.trans hkw
  cases hleaf.symm.trans hnext

theorem Cycles.exists_follows (h : s.Cycles r) (k : Nat) : ∃ n c z, k ≤ n ∧ s.Follows r n c z := by
  obtain ⟨m, c, z, n, d, hreach, hround⟩ := h
  have hrounds : ∀ k, ∃ e, s.Follows r (m + k * (n + 1)) e z := by
    intro k
    induction k with
    | zero => exact ⟨c, by rwa [Nat.zero_mul]⟩
    | succ k ih =>
      obtain ⟨e, he⟩ := ih
      obtain ⟨e', he'⟩ := he.trans hround
      exact ⟨e', by rwa [Nat.succ_mul, ← Nat.add_assoc]⟩
  obtain ⟨e, he⟩ := hrounds k
  have hle : k * 1 ≤ k * (n + 1) := Nat.mul_le_mul_left k (Nat.le_add_left 1 n)
  exact ⟨_, e, z, by omega, he⟩

theorem Cycles.not_ends (h : s.Cycles r) : ¬ ∃ n c leaf, s.Ends r n c leaf := by
  rintro ⟨n, c, leaf, z, hz, hkz, hleaf⟩
  obtain ⟨m, d, w, hm, hfollows⟩ := h.exists_follows (n + 1)
  have hle := hz.le_of_halts (halts_of_leaf hkz hleaf) hfollows
  omega

theorem exists_follows (hr : s.heap.kind? r = some kind) (hends : ¬ ∃ n c leaf, s.Ends r n c leaf)
    (hbreaks : ¬ s.Breaks r) (n : Nat) :
    ∃ c z, s.Follows r n c z ∧ ∃ k, s.heap.kind? z = some k := by
  induction n with
  | zero => exact ⟨1, r, .refl r, kind, hr⟩
  | succ n ih =>
    obtain ⟨c, z, hz, k, hk⟩ := ih
    cases hnext : k.next? with
    | none => exact absurd ⟨n, c, k, z, hz, hk, hnext⟩ hends
    | some id =>
      have hfound : ∃ q, (s.fetch id .dataType).1 = .ok q := by
        by_contra hnone
        exact hbreaks ⟨n, c, z, k, id, hz, hk, hnext, fun q hq => hnone ⟨q, hq⟩⟩
      obtain ⟨q, hq⟩ := hfound
      obtain ⟨e, he⟩ := hz.trans (.step hk hnext hq (.refl q))
      exact ⟨e, q, he, exists_kind?_of_fetch hq⟩

theorem ends_or_breaks_or_cycles (hr : s.heap.kind? r = some kind) :
    (∃ n c leaf, s.Ends r n c leaf) ∨ s.Breaks r ∨ s.Cycles r := by
  by_contra hno
  obtain ⟨hends, hbreaks, hcycles⟩ : (¬ ∃ n c leaf, s.Ends r n c leaf) ∧ ¬ s.Breaks r ∧
      ¬ s.Cycles r := by simpa only [not_or] using hno
  -- there are more steps than objects, so one of them comes to an object for the second time
  choose c z hz k hk using exists_follows hr hends hbreaks
  have hlt : ∀ n, z n < s.heap.next := by
    intro n
    obtain ⟨o, ho, _⟩ := Option.bind_eq_some_iff.mp (hk n)
    exact Heap.lt_next ho
  have hrepeat : ∀ m n, m < n → z m = z n → False := by
    intro m n hmn heq
    obtain ⟨j, rfl⟩ : ∃ j, n = m + (j + 1) := ⟨n - m - 1, by omega⟩
    obtain ⟨d, w, e, hfirst, hlast⟩ := (hz (m + (j + 1))).split
    obtain ⟨_, rfl⟩ := (hz m).unique hfirst
    rw [← heq] at hlast
    exact hcycles ⟨m, c m, z m, j, e, hz m, hlast⟩
  obtain ⟨m, n, hne, heq⟩ :=
    Finite.exists_ne_map_eq_of_infinite fun n => (⟨z n, hlt n⟩ : Fin s.heap.next)
  rcases Nat.lt_or_gt_of_ne hne with h | h
  · exact hrepeat m n h (congrArg Fin.val heq)
  · exact hrepeat n m h (congrArg Fin.val heq).symm

theorem sizeOf_of_references (s : Session) (hkinds : ∀ q k, s.heap.kind? q = some k → k.Fits)
    (hpointer : s.config.analysis.pointerSize < Word.limit) (r : Ref) (kind : TypeKind)
    (hr : s.heap.kind? r = some kind) :
    (∀ n count leaf, s.Ends r n count leaf → n ≤ 32 →
      s.sizeOf r = min Word.top (leaf.ownSize s.config.analysis.pointerSize * count)) ∧
    (∀ n count leaf, s.Ends r n count leaf → 32 < n → s.sizeOf r = 0) ∧
    (s.Breaks r ∨ s.Cycles r → s.sizeOf r = 0 ∧
      ∀ q symbol, s.heap.symbol? q = some symbol → symbol.type = r → s.extent q = none) ∧
    ((∃ n count leaf, s.Ends r n count leaf) ∨ s.Breaks r ∨ s.Cycles r) := by
  refine ⟨?_, ?_, fun hendless => ?_, ends_or_breaks_or_cycles hr⟩
  · rintro n count leaf ⟨z, hz, hkz, hleaf⟩ hn
    rw [sizeOf_of_kind? hr]
    exact hz.sizeWithin_eq hkz hleaf ((hkinds z leaf hkz).ownSize_le hpointer) hr hn
  · intro n count leaf hends hn
    apply sizeOf_eq_zero hr
    rintro ⟨m, d, k, hm, hother⟩
    have heq := hends.hops_unique hother
    simp only [TypeKind.maxHops] at hm
    omega
  · have hnot : ¬ ∃ n c leaf, s.Ends r n c leaf :=
      hendless.elim Breaks.not_ends Cycles.not_ends
    have hzero : s.sizeOf r = 0 :=
      sizeOf_eq_zero hr fun ⟨n, c, leaf, _, hends⟩ => hnot ⟨n, c, leaf, hends⟩
    refine ⟨hzero, fun q symbol hq htype => extent_eq_none hq ?_⟩
    rw [htype, hzero]

def referenceTypes : Session where
  heap := [
    { uuid := ⟨1⟩, id := 41, name := "quad", body := .dataType (.struct 8) },
    { uuid := ⟨2⟩, id := 42, name := "row", body := .dataType (.array 41 4611686018427387904) },
    { uuid := ⟨3⟩, id := 43, name := "rows", body := .dataType (.array 42 3) },
    { uuid := ⟨4⟩, id := 44, name := "none", body := .dataType (.array 43 0) },
    { uuid := ⟨5⟩, id := 45, name := "self", body := .dataType (.alias 45) },
    { uuid := ⟨6⟩, id := 46, name := "lost", body := .symbol { kind := .variable, type := 4 } }
    ].foldl (fun h o => (h.alloc o).2) .empty
  registry := { entries := .ofList [(41, 0), (42, 1), (43, 2), (44, 3), (45, 4), (46, 5)] }
  supply := Uuid.mk

theorem referenceTypes_sizes :
    (∀ q k, referenceTypes.heap.kind? q = some k → k.Fits) ∧
      referenceTypes.config.analysis.pointerSize < Word.limit ∧
      referenceTypes.Ends 2 2 13835058055282163712 (.struct 8) ∧ referenceTypes.sizeOf 2 = Word.top ∧
      referenceTypes.Ends 3 3 0 (.struct 8) ∧ referenceTypes.sizeOf 3 = 0 ∧
      referenceTypes.Cycles 4 ∧ referenceTypes.extent 5 = none := by
  have hkinds : ∀ q k, referenceTypes.heap.kind? q = some k → k.Fits := by
    intro q k hk
    have hall : ∀ q < 6, (referenceTypes.heap.kind? q).all (fun k => decide k.Fits) = true := by decide
    obtain ⟨o, ho, _⟩ := Option.bind_eq_some_iff.mp hk
    have hfits := hall q (Heap.lt_next ho)
    rw [hk] at hfits
    exact of_decide_eq_true hfits
  have hpointer : referenceTypes.config.analysis.pointerSize < Word.limit := by decide
  have hrow : referenceTypes.Follows 1 1 _ 0 := .step rfl rfl rfl (.refl 0)
  have hrows : referenceTypes.Follows 2 2 _ 0 := .step rfl rfl rfl hrow
  have hnone : referenceTypes.Follows 3 3 _ 0 := .step rfl rfl rfl hrows
  have hself : referenceTypes.Cycles 4 := ⟨0, 1, 4, 0, _, .refl 4, .step rfl rfl rfl (.refl 4)⟩
  have hsizes := fun r kind => sizeOf_of_references referenceTypes hkinds hpointer r kind
  refine ⟨hkinds, hpointer, ⟨0, hrows, rfl, rfl⟩, ?_, ⟨0, hnone, rfl, rfl⟩, ?_, hself, ?_⟩
  · exact (hsizes 2 _ rfl).1 2 _ _ ⟨0, hrows, rfl, rfl⟩ (by decide)
  · exact (hsizes 3 _ rfl).1 3 _ _ ⟨0, hnone, rfl, rfl⟩ (by decide)
  · exact ((hsizes 4 _ rfl).2.2.1 (.inr hself)).2 5 _ rfl rfl

end Session

end BinaryAtlas
