import BinaryAtlas.Proofs.Session.Patching
import BinaryAtlas.Proofs.Session.Restored

namespace BinaryAtlas

def Note.isEvent : Note → Bool
  | .event .. => true
  | _ => false

theorem Object.Patched.classOf {o o' : Object} (h : o.Patched o') : o'.classOf = o.classOf := by
  rcases h with rfl | ⟨i, store, hb, rfl⟩
  · rfl
  · rw [Object.classOf, Object.classOf, hb]
    rfl

namespace Session

variable {s s' s₁ : Session} {r : Ref} {o o' : Object} {kind : EventKind} {events : List Note}

def Hears (events : List Note) (s s' : Session) : Prop :=
  ∃ notes, s'.log = s.log ++ notes ∧ notes.filter Note.isEvent = events

theorem hears_nil (h : s'.log = s.log) : Hears [] s s' := ⟨[], by simp [h], rfl⟩

theorem Hears.trans {later : List Note} (h : Hears events s s₁) (h₁ : Hears later s₁ s') :
    Hears (events ++ later) s s' := by
  obtain ⟨notes, hlog, rfl⟩ := h
  obtain ⟨notes₁, hlog₁, rfl⟩ := h₁
  exact ⟨notes ++ notes₁, by rw [hlog₁, hlog, List.append_assoc], by rw [List.filter_append]⟩

theorem Hears.unique {others : List Note} (h : Hears events s s') (h' : Hears others s s') :
    events = others := by
  obtain ⟨notes, hlog, rfl⟩ := h
  obtain ⟨notes', hlog', rfl⟩ := h'
  rw [List.append_cancel_left (hlog.symm.trans hlog')]

theorem hears_write (s : Session) {n : Note} (h : n.isEvent = false) : Hears [] s (s.write n) :=
  ⟨[n], rfl, by simp [h]⟩

def noted (kind : EventKind) (r : Ref) (o : Object) (p : Nat × Observer) : List Note :=
  if p.2.reaction = .silent then [] else [.event p.2.tag kind r o.id o.classOf o.name]

theorem noted_of_patched (h : o.Patched o') (kind : EventKind) (r : Ref) :
    noted kind r o' = noted kind r o := by
  funext p
  unfold noted
  rw [h.classOf]
  rcases h with rfl | ⟨i, store, _, rfl⟩ <;> rfl

theorem observe_hears (ho : s.heap.get? r = some o) (tag : String) (kind : EventKind) :
    Hears [.event tag kind r o.id o.classOf o.name] s (s.observe tag kind r) := by
  refine ⟨[.event tag kind r o.id o.classOf o.name], ?_, rfl⟩
  rw [observe, ho]
  rfl

theorem log_updateImage (s : Session) (r : Ref) (f : Image → Disk → Except Error Unit × Image × Disk) :
    (s.updateImage r f).2.log = s.log := by
  unfold updateImage
  split <;> rfl

theorem patch_hears (s : Session) (tag : String) (r : Ref) : Hears [] s (s.patch tag r) := by
  unfold patch
  split
  · exact hears_nil rfl
  · rename_i id _
    have hfetch : (s.fetch id .image).2.log = s.log := rfl
    split
    · rename_i hfail
      rw [hfail] at hfetch
      exact hears_nil hfetch
    · rename_i image s₁ hfound
      rw [hfound] at hfetch
      have hflush : (s₁.flush image).2.log = s₁.log := log_updateImage s₁ image Image.flush
      have hwrite : ((s₁.flush image).2.writeRaw image 0 [0x90]).2.log = (s₁.flush image).2.log :=
        log_updateImage _ image _
      exact (hears_nil (hwrite.trans (hflush.trans hfetch))).trans (hears_write _ rfl)

theorem reactQuietly_hears (ho : s.heap.get? r = some o) (kind : EventKind)
    (p : Nat × Observer) : Hears (noted kind r o p) s (reactQuietly kind r s p) := by
  obtain ⟨handle, observer⟩ := p
  have hobserve := observe_hears ho observer.tag kind
  by_cases hsilent : observer.reaction = .silent
  · simp only [noted, reactQuietly, hsilent, if_true]
    exact hears_nil rfl
  · rw [noted, if_neg hsilent]
    cases hr : observer.reaction with
    | silent => exact absurd hr hsilent
    | record => simpa only [reactQuietly, hr] using hobserve
    | reap className => simpa only [reactQuietly, hr] using hobserve
    | once =>
      simp only [reactQuietly, hr]
      split <;> exact hobserve
    | spawn =>
      simp only [reactQuietly, hr]
      split <;> exact hobserve
    | patch =>
      simp only [reactQuietly, hr]
      split
      · exact hobserve.trans (patch_hears _ observer.tag r)
      · exact hobserve

theorem reactive_patched : Reactive fun s s' =>
    ∀ q o, s.heap.get? q = some o → ∃ o', s'.heap.get? q = some o' ∧ o.Patched o' where
  refl s q o ho := ⟨o, ho, .inl rfl⟩
  trans s₁ s₂ s₃ h h' q o ho := by
    obtain ⟨o₂, ho₂, hpatched⟩ := h q o ho
    obtain ⟨o₃, ho₃, hpatched'⟩ := h' q o₂ ho₂
    exact ⟨o₃, ho₃, patched_trans hpatched hpatched'⟩
  subscribe s _ _ q o ho := ⟨o, ho, .inl rfl⟩
  write s _ q o ho := ⟨o, ho, .inl rfl⟩
  forget s _ q o ho := ⟨o, ho, .inl rfl⟩
  store s r i store disk hi _ q o ho := by
    obtain ⟨o₁, ho₁, hb⟩ := Heap.image?_eq_some_iff.mp hi
    have hget := Heap.get?_setBody ho₁ (.image { i with store }) q
    by_cases hq : q = r
    · rw [hq, ho₁, Option.some.injEq] at ho
      subst ho
      rw [if_pos hq] at hget
      exact ⟨_, hget, .inr ⟨i, store, hb, rfl⟩⟩
    · rw [if_neg hq, ho] at hget
      exact ⟨o, hget, .inl rfl⟩
  remove s _ q o ho := ⟨o, ho, .inl rfl⟩

theorem foldl_hears (ho : s.heap.get? r = some o) (kind : EventKind) (l : List (Nat × Observer)) :
    Hears (l.flatMap (noted kind r o)) s (l.foldl (reactQuietly kind r) s) := by
  induction l generalizing s o with
  | nil => exact hears_nil rfl
  | cons p rest ih =>
    obtain ⟨o₁, ho₁, hpatched⟩ := reactive_patched.reactQuietly kind r s p r o ho
    rw [List.flatMap_cons, List.foldl_cons, ← noted_of_patched hpatched]
    refine Hears.trans ?_ (ih ho₁)
    rw [noted_of_patched hpatched]
    exact reactQuietly_hears ho kind p

/-- Every subscription is told in its turn that an object changed, and nobody is told anything else.
Whoever is told finds the object as `o`, but for the bytes that those before may have patched. -/
def Announced (s s' : Session) (r : Ref) (o : Object) : Prop :=
  ∃ s₁, s₁.chain = s.chain ∧ s' = s₁.notify .changed r ∧
    (∀ before p after, s.chain.active = before ++ p :: after →
      ∃ o', (before.foldl (react .changed r) s₁).heap.get? r = some o' ∧ o.Patched o') ∧
    Hears (s.chain.active.flatMap (noted .changed r o)) s s'

theorem Staged.announced (h : s.Staged s₁ r o) : s.Announced (s₁.notify .changed r) r o := by
  refine ⟨s₁, h.chain, rfl, fun before p after _ => ?_, ?_⟩
  · exact reactive_patched.foldl (fun p _ s => reactive_patched.react .changed r s p) s₁ r o h.get?
  · have hheard := foldl_hears h.get? .changed s₁.chain.active
    rw [h.chain] at hheard
    rw [notify_changed, notifyQuietly, Chain.deliver, h.chain]
    exact (hears_nil h.log).trans hheard

theorem notify_of_silent (h : ∀ p ∈ s.chain.active, p.2.reaction = .silent) (r : Ref) :
    s.notify .changed r = s := by
  rw [notify_changed, notifyQuietly, Chain.deliver]
  generalize s.chain.active = l at h
  induction l with
  | nil => rfl
  | cons p rest ih =>
    have hp : reactQuietly .changed r s p = s := by
      simp only [reactQuietly, h p List.mem_cons_self]
    rw [List.foldl_cons, hp]
    exact ih fun q hq => h q (List.mem_cons_of_mem p hq)

theorem silent_of_noted_eq_nil {l : List (Nat × Observer)}
    (h : l.flatMap (noted kind r o) = []) : ∀ p ∈ l, p.2.reaction = .silent := by
  intro p hp
  have hnil := List.flatMap_eq_nil_iff.mp h p hp
  by_contra hloud
  simp [noted, hloud] at hnil

theorem log_of_error {record : Json} {e : Error} (ho : s.heap.get? r = some o)
    (h : s.restore r record = (.error e, s')) : s'.log = s.log := by
  rcases restore_cases ho record with ⟨e₁, s₁, herror, hreads, _⟩ | ⟨s₁, hok, _⟩
  · cases h.symm.trans herror
    have hlog : s₁.log = s.log := by rw [hreads.rest]
    split <;> exact hlog
  · cases h.symm.trans hok

theorem announces_iff (o : Object) :
    o.body.announces = true ↔ o.classOf ∈ [.symbolTable, .image] := by
  unfold Object.classOf
  cases o.body <;> simp [Body.announces, Body.classOf]

theorem restore_announced_iff (s : Session) (r : Ref) (o : Object) (ho : s.heap.get? r = some o)
    (record : Json) :
    (∀ e s', s.restore r record = (.error e, s') → s'.log = s.log) ∧
    ∀ s', s.restore r record = (.ok (), s') →
      (∃ o', s'.heap.get? r = some o' ∧ (s.restored r o record).Patched o') ∧
      (o.classOf ∉ [.symbolTable, .image] → s'.log = s.log) ∧
      (s.Announced s' r (s.restored r o record) ↔
        o.classOf ∈ [.symbolTable, .image] ∨ ∀ p ∈ s.chain.active, p.2.reaction = .silent) := by
  refine ⟨fun e s' => log_of_error ho, fun s' h => ?_⟩
  obtain ⟨s₁, hstaged, hs'⟩ := restore_staged ho h
  rw [← announces_iff]
  by_cases ha : o.body.announces = true
  · rw [if_pos ha] at hs'
    subst hs'
    refine ⟨reactive_patched.notify s₁ .changed r r _ hstaged.get?, fun hno => absurd ha hno, ?_⟩
    exact ⟨fun _ => .inl ha, fun _ => hstaged.announced⟩
  · rw [if_neg ha] at hs'
    subst hs'
    refine ⟨⟨_, hstaged.get?, .inl rfl⟩, fun _ => hstaged.log, fun hannounced => .inr ?_, ?_⟩
    · obtain ⟨_, _, _, _, hheard⟩ := hannounced
      exact silent_of_noted_eq_nil (hheard.unique (hears_nil hstaged.log))
    · rintro (hyes | hsilent)
      · exact absurd hyes ha
      · rw [← hstaged.chain] at hsilent
        have hannounced := hstaged.announced
        rwa [notify_of_silent hsilent] at hannounced

def fourObserved : Session where
  heap := [
    { uuid := ⟨1⟩, id := 31, name := "int", body := .dataType (.struct 4) },
    { uuid := ⟨2⟩, id := 32, name := "counter", body := .symbol { kind := .variable, type := 0 } },
    { uuid := ⟨3⟩, id := 33, name := "globals", body := .table {} },
    { uuid := ⟨4⟩, id := 34, name := "process", body := .space [] }].foldl
      (fun h o => (h.alloc o).2) .empty
  registry := { entries := .ofList [(31, 0), (32, 1), (33, 2), (34, 3)] }
  chain := { next := 1, active := [(0, { tag := "o" })] }
  supply := Uuid.mk

def renamingRecord : Json :=
  .obj [("name", .str "renamed"), ("symbols", .arr []), ("children", .arr []), ("images", .arr [])]

theorem fourObserved_told :
    ∃ o s', fourObserved.heap.get? 2 = some o ∧
      fourObserved.restore 2 renamingRecord = (.ok (), s') ∧
      fourObserved.Announced s' 2 (fourObserved.restored 2 o renamingRecord) ∧
      Hears [.event "o" .changed 2 33 .symbolTable "renamed"] fourObserved s' := by
  obtain ⟨s', hrun⟩ : ∃ s', fourObserved.restore 2 renamingRecord = (.ok (), s') :=
    ⟨_, Prod.ext (by decide) rfl⟩
  obtain ⟨o, ho, hclass⟩ : ∃ o, fourObserved.heap.get? 2 = some o ∧ o.classOf = .symbolTable :=
    ⟨_, rfl, rfl⟩
  obtain ⟨_, _, hiff⟩ := (restore_announced_iff fourObserved 2 o ho renamingRecord).2 s' hrun
  have hannounced := hiff.mpr (.inl (by simp [hclass]))
  refine ⟨o, s', ho, hrun, hannounced, ?_⟩
  obtain ⟨_, _, _, _, hheard⟩ := hannounced
  cases Option.some.inj (ho.symm.trans rfl)
  exact hheard

theorem fourObserved_untold :
    [0, 1, 3].map (fun r => ((fourObserved.restore r renamingRecord).1.isOk,
        (fourObserved.restore r renamingRecord).2.heap.name? r,
        (fourObserved.restore r renamingRecord).2.log)) =
      [(true, some "renamed", []), (true, some "renamed", []), (true, some "renamed", [])] := by
  decide +kernel

end Session

end BinaryAtlas
