import BinaryAtlas.Proofs.Session.LiveIndex

/-!
How many entries a registry keeps, dead ones included. A sweep puts the number at which the next one
is due to twice the number of live entries, or to 64 if that is more. So once something was put in,
the entries never outnumber that threshold, whatever dies or is forgotten in between.
-/

namespace BinaryAtlas

namespace Registry

variable {r : Registry}

theorem size_sweep (live : Liveness) (r : Registry) :
    (r.sweep live).entries.size = (r.objects live).length := by
  rw [objects_eq_index, KeyMap.values, List.length_map]
  rfl

theorem forget_sweepAt (live : Liveness) (r : Registry) (id : HashId) :
    (r.forget live id).sweepAt = r.sweepAt := by
  unfold forget
  split
  · split <;> rfl
  · rfl

theorem size_forget_le (live : Liveness) (r : Registry) (id : HashId) :
    (r.forget live id).entries.size ≤ r.entries.size := by
  unfold forget
  split
  · split
    · exact Nat.le_refl _
    · exact KeyMap.size_filter_le _ _
  · exact Nat.le_refl _

theorem place_of_due (live : Liveness) (id : HashId) (ref : Ref)
    (h : r.sweepAt ≤ r.entries.size) :
    (r.place live id ref).sweepAt = max 64 (2 * (r.objects live).length) ∧
      (r.place live id ref).entries.size ≤ (r.objects live).length + 1 := by
  have hsize := size_sweep live r
  simp only [place, if_pos h]
  constructor
  · rw [hsize, Nat.max_comm]
    rfl
  · rw [← hsize]
    exact KeyMap.size_insert_le _ _ _

theorem place_of_not_due (live : Liveness) (id : HashId) (ref : Ref)
    (h : r.entries.size < r.sweepAt) :
    (r.place live id ref).sweepAt = r.sweepAt ∧
      (r.place live id ref).entries.size ≤ r.entries.size + 1 := by
  simp only [place, if_neg (Nat.not_le.mpr h)]
  exact ⟨trivial, KeyMap.size_insert_le _ _ _⟩

end Registry

open Registry (Event Reply)

structure Census where
  peak : Nat := 0
  swept : Option Nat := none

namespace Session

variable {s s' : Session} {c : Census}

def liveEntries (s : Session) : Nat := (s.registry.objects s.live).length

def counted (s : Session) (c : Census) : Event → Reply → Census
  | .insert _, .registered outcome =>
    { peak := max c.peak s.liveEntries
      swept :=
        if outcome = .inserted ∧ s.registry.sweepAt ≤ s.registry.entries.size then
          some s.liveEntries
        else c.swept }
  | _, _ => c

def census (s : Session) (c : Census) : List Event → Census
  | [] => c
  | event :: rest => census (s.answer event).2 (s.counted c event (s.answer event).1) rest

structure Thrifty (s : Session) (c : Census) : Prop where
  size_le : s.registry.entries.size ≤ s.registry.sweepAt
  sweepAt_eq : s.registry.sweepAt = c.swept.elim 0 fun n => max 64 (2 * n)
  le_peak : ∀ n, c.swept = some n → n ≤ c.peak

theorem thrifty_initial (config : Config) (supply : Nat → Uuid) :
    (initial config supply).Thrifty {} where
  size_le := Nat.le_refl 0
  sweepAt_eq := rfl
  le_peak := nofun

theorem Thrifty.shrinks (h : s.Thrifty c)
    (hsize : s'.registry.entries.size ≤ s.registry.entries.size)
    (hsweep : s'.registry.sweepAt = s.registry.sweepAt) : s'.Thrifty c where
  size_le := by
    rw [hsweep]
    exact Nat.le_trans hsize h.size_le
  sweepAt_eq := hsweep.trans h.sweepAt_eq
  le_peak := h.le_peak

theorem Thrifty.place (h : s.Thrifty c) (id : HashId) (r : Ref) :
    Thrifty { s with registry := s.registry.place s.live id r }
      { peak := max c.peak s.liveEntries
        swept := if s.registry.sweepAt ≤ s.registry.entries.size then some s.liveEntries
          else c.swept } := by
  by_cases hdue : s.registry.sweepAt ≤ s.registry.entries.size
  · obtain ⟨hsweep, hsize⟩ := Registry.place_of_due s.live id r hdue
    simp only [if_pos hdue]
    constructor
    · -- one entry beside the live ones is within the new threshold, also if none is alive
      show (s.registry.place s.live id r).entries.size ≤ (s.registry.place s.live id r).sweepAt
      rw [hsweep]
      omega
    · exact hsweep
    · intro n hn
      cases hn
      exact Nat.le_max_right _ _
  · obtain ⟨hsweep, hsize⟩ := Registry.place_of_not_due s.live id r (Nat.not_le.mp hdue)
    simp only [if_neg hdue]
    constructor
    · show (s.registry.place s.live id r).entries.size ≤ (s.registry.place s.live id r).sweepAt
      rw [hsweep]
      omega
    · exact hsweep.trans h.sweepAt_eq
    · intro n hn
      exact Nat.le_trans (h.le_peak n hn) (Nat.le_max_left _ _)

theorem Thrifty.insert (h : s.Thrifty c) (r : Ref) :
    (s.answer (.insert r)).2.Thrifty (s.counted c (.insert r) (s.answer (.insert r)).1) := by
  simp only [answer]
  cases s.heap.get? r with
  | none => exact h
  | some o =>
    simp only [Registry.insert]
    cases s.registry.getAs s.live o.id o.classOf with
    | ok old =>
      refine ⟨h.size_le, ?_, ?_⟩
      · simpa [counted] using h.sweepAt_eq
      · intro n hn
        have hold : c.swept = some n := by simpa [counted] using hn
        exact Nat.le_trans (h.le_peak n hold) (Nat.le_max_left _ _)
    | error e => simpa [counted] using h.place o.id r

theorem Thrifty.answer (h : s.Thrifty c) (event : Event) :
    (s.answer event).2.Thrifty (s.counted c event (s.answer event).1) := by
  cases event with
  | insert r => exact h.insert r
  | make _ => exact h.shrinks (Nat.le_refl _) rfl
  | die _ => exact h.shrinks (Nat.le_refl _) rfl
  | setTemporary _ _ => exact h.shrinks (Nat.le_refl _) rfl
  | get id =>
    exact h.shrinks (Registry.size_forget_le s.live s.registry id)
      (Registry.forget_sweepAt s.live s.registry id)
  | getAs id _ =>
    exact h.shrinks (Registry.size_forget_le s.live s.registry id)
      (Registry.forget_sweepAt s.live s.registry id)
  | remove id => exact h.shrinks (KeyMap.size_filter_le _ _) rfl
  | prune => exact h.shrinks (KeyMap.size_filter_le _ _) rfl
  | contains _ => exact h
  | objects => exact h
  | len => exact h

theorem isSome_swept_counted (hc : c.swept.isSome = true) (event : Event) (reply : Reply) :
    (s.counted c event reply).swept.isSome = true := by
  unfold counted
  split
  · dsimp only
    split
    · rfl
    · exact hc
  · exact hc

theorem Thrifty.isSome_swept (h : s.Thrifty c) {event : Event}
    (hin : (s.answer event).1 = .registered .inserted) :
    (s.counted c event (s.answer event).1).swept.isSome = true := by
  cases hswept : c.swept with
  | some n => exact isSome_swept_counted (by rw [hswept]; rfl) event _
  | none =>
    have hzero : s.registry.sweepAt = 0 := by simpa [hswept] using h.sweepAt_eq
    cases event with
    | insert r => simp [hin, counted, hzero]
    | _ => cases hin

theorem replies_cons (s : Session) (event : Event) (rest : List Event) :
    (Registry.replies Session.answer s (event :: rest)).1 =
      (s.answer event).1 :: (Registry.replies Session.answer (s.answer event).2 rest).1 := rfl

theorem Thrifty.replies (h : s.Thrifty c) (events : List Event) :
    (Registry.replies Session.answer s events).2.Thrifty (s.census c events) := by
  induction events generalizing s c with
  | nil => exact h
  | cons event rest ih => exact ih (h.answer event)

theorem Thrifty.isSome_swept_census (h : s.Thrifty c) {events : List Event}
    (hin : c.swept.isSome = true ∨
      Reply.registered .inserted ∈ (Registry.replies Session.answer s events).1) :
    (s.census c events).swept.isSome = true := by
  induction events generalizing s c with
  | nil =>
    rcases hin with hc | hmem
    · exact hc
    · cases hmem
  | cons event rest ih =>
    apply ih (h.answer event)
    rcases hin with hc | hmem
    · exact .inl (isSome_swept_counted hc event _)
    · rw [replies_cons] at hmem
      rcases List.mem_cons.mp hmem with hfirst | hlater
      · exact .inl (h.isSome_swept hfirst.symm)
      · exact .inr hlater

theorem registry_entries_bounded (config : Config) (supply : Nat → Uuid) (events : List Event) :
    let run := Registry.replies answer (initial config supply) events
    let census := (initial config supply).census {} events
    let registry := run.2.registry
    registry.entries.size ≤ max 64 (2 * census.peak) ∧
      (Reply.registered .inserted ∈ run.1 →
        registry.entries.size ≤ registry.sweepAt ∧
        ∃ n, census.swept = some n ∧ registry.sweepAt = max 64 (2 * n)) := by
  intro run census registry
  have h : run.2.Thrifty census := (thrifty_initial config supply).replies events
  have hsize : registry.entries.size ≤ registry.sweepAt := h.size_le
  have hsweep : registry.sweepAt = census.swept.elim 0 fun n => max 64 (2 * n) := h.sweepAt_eq
  constructor
  · cases hswept : census.swept with
    | none =>
      rw [hswept, Option.elim_none] at hsweep
      omega
    | some n =>
      have hpeak := h.le_peak n hswept
      rw [hswept, Option.elim_some] at hsweep
      omega
  · intro hin
    have hsome := (thrifty_initial config supply).isSome_swept_census (.inr hin)
    obtain ⟨n, hn⟩ := Option.isSome_iff_exists.mp hsome
    refine ⟨hsize, n, hn, ?_⟩
    rw [hsweep, hn, Option.elim_some]

def deadEntries (r : Ref) : Nat → List Event
  | 0 => [made r, .insert r]
  | count + 1 => made r :: .insert r :: .die r :: deadEntries (r + 1) count
where
  made (r : Ref) : Event := .make { uuid := ⟨r⟩, id := r, name := "space", body := .space [] }

theorem deadEntries_bounded :
    let run := Registry.replies answer (initial {} Uuid.mk) (deadEntries 0 63)
    let census := (initial {} Uuid.mk).census {} (deadEntries 0 63)
    run.2.registry.entries.size = 64 ∧ run.2.liveEntries = 1 ∧ census.peak = 0 ∧
      run.2.registry.entries.size ≤ max 64 (2 * census.peak) ∧
      Reply.registered .inserted ∈ run.1 ∧
      run.2.registry.entries.size ≤ run.2.registry.sweepAt ∧
      ∃ n, census.swept = some n ∧ run.2.registry.sweepAt = max 64 (2 * n) := by
  have hin : Reply.registered .inserted ∈
      (Registry.replies answer (initial {} Uuid.mk) (deadEntries 0 63)).1 := by
    rw [deadEntries, replies_cons, replies_cons]
    exact List.mem_cons_of_mem _ List.mem_cons_self
  have hbounded := registry_entries_bounded {} Uuid.mk (deadEntries 0 63)
  dsimp only at hbounded ⊢
  refine ⟨by decide +kernel, by decide +kernel, by decide +kernel, hbounded.1, hin, ?_⟩
  exact hbounded.2 hin

end Session

end BinaryAtlas
