import Mathlib.Data.List.Induction
import Mathlib.Data.List.Nodup
import BinaryAtlas.Observer

/-!
Subscriptions that change while notifications are delivered. An observer that is called may itself
subscribe, cancel subscriptions and notify, and the observers called by that may do so in turn.
Whatever they do, a notification goes to the subscriptions there are when it starts.
-/

namespace BinaryAtlas.Chain

variable {ω ε : Type}

inductive Entry (ω ε : Type) where
  | subscribed (handle : Nat) (observer : ω)
  | unsubscribed (handle : Nat) (found : Bool)
  | started (number : Nat) (event : ε)
  | called (number : Nat) (event : ε) (subscription : Nat × ω)
  | finished (number : Nat)

abbrev History (ω ε : Type) := List (Entry ω ε)

/-- What is done with a chain, from outside or by an observer that is called, one thing after the
other. Each may depend on all that happened before. A notification comes with the conduct of the
observers that it calls. -/
inductive Conduct (ω ε : Type) where
  | done
  | subscribe (observer : ω) (next : History ω ε → Conduct ω ε)
  | unsubscribe (handle : Nat) (next : History ω ε → Conduct ω ε)
  | notify (event : ε) (answer : Nat × ω → History ω ε → Conduct ω ε)
      (next : History ω ε → Conduct ω ε)

structure Scene (ω ε : Type) where
  chain : Chain ω := {}
  started : Nat := 0
  history : History ω ε := []

def Scene.note (w : Scene ω ε) (x : Entry ω ε) : Scene ω ε := { w with history := w.history ++ [x] }

def Scene.subscribe (w : Scene ω ε) (observer : ω) : Scene ω ε :=
  let (handle, chain) := w.chain.subscribe observer
  { w with chain }.note (.subscribed handle observer)

def Scene.unsubscribe (w : Scene ω ε) (handle : Nat) : Scene ω ε :=
  let (found, chain) := w.chain.unsubscribe handle
  { w with chain }.note (.unsubscribed handle found)

def Scene.start (w : Scene ω ε) (event : ε) : Scene ω ε :=
  { w with started := w.started + 1 }.note (.started w.started event)

def Conduct.run : Conduct ω ε → Scene ω ε → Scene ω ε
  | .done, w => w
  | .subscribe observer next, w =>
    let w := w.subscribe observer
    (next w.history).run w
  | .unsubscribe handle next, w =>
    let w := w.unsubscribe handle
    (next w.history).run w
  | .notify event answer next, w =>
    let number := w.started
    let w := deliver Scene.chain (fun w subscription =>
      let w := w.note (.called number event subscription)
      (answer subscription w.history).run w) (w.start event)
    let w := w.note (.finished number)
    (next w.history).run w

def attend (number : Nat) (event : ε) (answer : Nat × ω → History ω ε → Conduct ω ε)
    (w : Scene ω ε) (subscription : Nat × ω) : Scene ω ε :=
  let w := w.note (.called number event subscription)
  (answer subscription w.history).run w

def heed (active : List (Nat × ω)) : Entry ω ε → List (Nat × ω)
  | .subscribed handle observer => active ++ [(handle, observer)]
  | .unsubscribed handle _ => active.filter (·.1 != handle)
  | _ => active

def live (history : History ω ε) : List (Nat × ω) := history.foldl heed []

def Entry.handle? : Entry ω ε → Option Nat
  | .subscribed handle _ => some handle
  | _ => none

def handles (history : History ω ε) : List Nat := history.filterMap Entry.handle?

def Entry.call? (number : Nat) : Entry ω ε → Option (ε × Nat × ω)
  | .called n event subscription => if n = number then some (event, subscription) else none
  | _ => none

def calls (number : Nat) (history : History ω ε) : List (ε × Nat × ω) :=
  history.filterMap (Entry.call? number)

def Told (history before : History ω ε) (number : Nat) (event : ε) : Prop :=
  ∃ during, before ++ .started number event :: (during ++ [.finished number]) <+: history ∧
    calls number during = (live before).map (Prod.mk event) ∧
    calls number history = (live before).map (Prod.mk event)

structure Orderly (history : History ω ε) : Prop where
  told : ∀ before number event, before ++ [.started number event] <+: history →
    Told history before number event
  fresh_number : ∀ before number event, before ++ [.started number event] <+: history →
    ∀ e, .started number e ∉ before
  handles_nodup : (handles history).Nodup
  live_nodup : ∀ before, before <+: history → ((live before).map Prod.fst).Nodup
  found : ∀ before handle, before ++ [.unsubscribed handle true] <+: history →
    ∃ earlier observer later, live before = earlier ++ (handle, observer) :: later ∧
      live (before ++ [.unsubscribed handle true]) = earlier ++ later
  missed : ∀ before handle, before ++ [.unsubscribed handle false] <+: history →
    handle ∉ (live before).map Prod.fst ∧
      live (before ++ [.unsubscribed handle false]) = live before

theorem live_concat (history : History ω ε) (x : Entry ω ε) :
    live (history ++ [x]) = heed (live history) x := by
  simp [live]

theorem handles_append (a b : History ω ε) : handles (a ++ b) = handles a ++ handles b :=
  List.filterMap_append

theorem calls_append (number : Nat) (a b : History ω ε) :
    calls number (a ++ b) = calls number a ++ calls number b :=
  List.filterMap_append

theorem live_sublist (history : History ω ε) :
    ((live history).map Prod.fst).Sublist (handles history) := by
  induction history using List.reverseRecOn with
  | nil => exact .slnil
  | append_singleton history x ih =>
    rw [live_concat, handles_append]
    cases x with
    | subscribed handle observer =>
      rw [heed, List.map_append]
      exact ih.append (List.Sublist.refl _)
    | unsubscribed handle found =>
      exact ((List.filter_sublist.map _).trans ih).trans (List.sublist_append_left _ _)
    | started => exact ih.trans (List.sublist_append_left _ _)
    | called => exact ih.trans (List.sublist_append_left _ _)
    | finished => exact ih.trans (List.sublist_append_left _ _)

theorem concat_before_concat {before history : History ω ε} {x y : Entry ω ε} :
    before ++ [x] <+: history ++ [y] ↔ before = history ∧ x = y ∨ before ++ [x] <+: history := by
  rw [List.prefix_concat_iff]
  simp

theorem mem_of_concat_before {before history : History ω ε} {x : Entry ω ε}
    (h : before ++ [x] <+: history) : x ∈ history :=
  h.subset (List.mem_append_right before List.mem_cons_self)

theorem live_nodup_of_before {before history : History ω ε} (h : before <+: history)
    (hnodup : (handles history).Nodup) : ((live before).map Prod.fst).Nodup := by
  have hhandles : (handles before).Sublist (handles history) := h.sublist.filterMap _
  exact hnodup.sublist ((live_sublist before).trans hhandles)

theorem live_unsubscribed {before : History ω ε} {handle : Nat} (found : Bool)
    (hnodup : ((live before).map Prod.fst).Nodup) (hmem : handle ∈ (live before).map Prod.fst) :
    ∃ earlier observer later, live before = earlier ++ (handle, observer) :: later ∧
      live (before ++ [.unsubscribed handle found]) = earlier ++ later := by
  obtain ⟨⟨h, observer⟩, hp, rfl⟩ := List.mem_map.mp hmem
  obtain ⟨earlier, later, hsplit⟩ := List.append_of_mem hp
  refine ⟨earlier, observer, later, hsplit, ?_⟩
  rw [live_concat, heed, hsplit]
  rw [hsplit, List.map_append, List.map_cons, List.nodup_middle, List.nodup_cons,
    ← List.map_append] at hnodup
  have hothers : ∀ p ∈ earlier ++ later, p.1 ≠ h := by
    intro p hp heq
    exact hnodup.1 (List.mem_map.mpr ⟨p, hp, heq⟩)
  rw [List.filter_append, List.filter_cons_of_neg (by simp), ← List.filter_append]
  exact List.filter_eq_self.mpr fun p hp => by simpa using hothers p hp

theorem live_unsubscribed_of_not_mem {before : History ω ε} {handle : Nat} (found : Bool)
    (hmem : handle ∉ (live before).map Prod.fst) :
    live (before ++ [.unsubscribed handle found]) = live before := by
  rw [live_concat, heed]
  apply List.filter_eq_self.mpr
  intro p hp
  have hne : p.1 ≠ handle := fun heq => hmem (List.mem_map.mpr ⟨p, hp, heq⟩)
  simpa using hne

theorem unsubscribe_eq_true_iff (c : Chain ω) (handle : Nat) :
    (c.unsubscribe handle).1 = true ↔ handle ∈ c.active.map Prod.fst := by
  simp only [unsubscribe, bne_iff_ne, ne_eq, List.length_filter_eq_length_iff, List.mem_map]
  constructor
  · intro h
    simpa using h
  · rintro ⟨p, hp, rfl⟩ hall
    simpa using hall p hp

structure Scene.Sound (w : Scene ω ε) : Prop where
  active_eq : w.chain.active = live w.history
  handles_eq : handles w.history = List.range w.chain.next
  number_lt : ∀ number event, .started number event ∈ w.history → number < w.started
  uncalled : ∀ number, w.started ≤ number → calls number w.history = []
  fresh_number : ∀ before number event, before ++ [.started number event] <+: w.history →
    ∀ e, .started number e ∉ before
  found_iff : ∀ before handle found, before ++ [.unsubscribed handle found] <+: w.history →
    (found = true ↔ handle ∈ (live before).map Prod.fst)

theorem Scene.sound_initial : ({} : Scene ω ε).Sound where
  active_eq := rfl
  handles_eq := rfl
  number_lt := nofun
  uncalled _ _ := rfl
  fresh_number before number event h := by simp at h
  found_iff before handle found h := by simp at h

section

variable {w w₁ w₂ : Scene ω ε}

theorem Scene.Sound.note (hw : w.Sound) {chain : Chain ω} {started : Nat} {x : Entry ω ε}
    (hactive : chain.active = heed (live w.history) x)
    (hhandles : List.range w.chain.next ++ x.handle?.toList = List.range chain.next)
    (hle : w.started ≤ started)
    (hstarted : ∀ number event, x = .started number event →
      number = w.started ∧ number < started)
    (hcalled : ∀ number event subscription, x = .called number event subscription →
      number < started)
    (hfound : ∀ handle found, x = .unsubscribed handle found →
      (found = true ↔ handle ∈ (live w.history).map Prod.fst)) :
    Sound { chain, started, history := w.history ++ [x] } where
  active_eq := by rw [live_concat, hactive]
  handles_eq := by
    rw [handles_append, hw.handles_eq, ← hhandles]
    cases x <;> rfl
  number_lt number event hmem := by
    rcases List.mem_append.mp hmem with hold | hnew
    · exact Nat.lt_of_lt_of_le (hw.number_lt number event hold) hle
    · exact (hstarted number event (List.mem_singleton.mp hnew).symm).2
  uncalled number hnumber := by
    rw [calls_append, hw.uncalled number (Nat.le_trans hle hnumber), List.nil_append]
    cases x with
    | called n event subscription =>
      have hne : n ≠ number := Nat.ne_of_lt
        (Nat.lt_of_lt_of_le (hcalled n event subscription rfl) hnumber)
      simp [calls, Entry.call?, hne]
    | _ => rfl
  fresh_number before number event h := by
    rcases concat_before_concat.mp h with ⟨rfl, rfl⟩ | hold
    · intro e hmem
      have hlt := hw.number_lt number e hmem
      have heq := (hstarted number event rfl).1
      omega
    · exact hw.fresh_number before number event hold
  found_iff before handle found h := by
    rcases concat_before_concat.mp h with ⟨rfl, rfl⟩ | hold
    · exact hfound handle found rfl
    · exact hw.found_iff before handle found hold

theorem Scene.Sound.subscribe (hw : w.Sound) (observer : ω) : (w.subscribe observer).Sound := by
  apply hw.note (x := .subscribed w.chain.next observer)
  · rw [heed, ← hw.active_eq]
  · exact List.range_succ.symm
  · exact Nat.le_refl _
  · nofun
  · nofun
  · nofun

theorem Scene.Sound.unsubscribe (hw : w.Sound) (handle : Nat) : (w.unsubscribe handle).Sound := by
  apply hw.note (x := .unsubscribed handle (w.chain.unsubscribe handle).1)
  · rw [heed, ← hw.active_eq]
  · exact List.append_nil _
  · exact Nat.le_refl _
  · nofun
  · nofun
  · rintro _ _ ⟨⟩
    rw [← hw.active_eq]
    exact unsubscribe_eq_true_iff w.chain handle

theorem Scene.Sound.start (hw : w.Sound) (event : ε) : (w.start event).Sound := by
  apply hw.note (x := .started w.started event)
  · exact hw.active_eq
  · exact List.append_nil _
  · exact Nat.le_succ _
  · rintro _ _ ⟨⟩
    exact ⟨rfl, Nat.lt_succ_self _⟩
  · nofun
  · nofun

theorem Scene.Sound.call (hw : w.Sound) {number : Nat} (hnumber : number < w.started) (event : ε)
    (subscription : Nat × ω) : (w.note (.called number event subscription)).Sound := by
  apply hw.note (x := .called number event subscription)
  · exact hw.active_eq
  · exact List.append_nil _
  · exact Nat.le_refl _
  · nofun
  · rintro _ _ _ ⟨⟩
    exact hnumber
  · nofun

theorem Scene.Sound.finish (hw : w.Sound) (number : Nat) : (w.note (.finished number)).Sound := by
  apply hw.note (x := .finished number)
  · exact hw.active_eq
  · exact List.append_nil _
  · exact Nat.le_refl _
  · nofun
  · nofun
  · nofun

theorem Told.mono {history history' before : History ω ε} {number : Nat} {event : ε}
    (h : Told history before number event) (hgrows : history <+: history')
    (hcalls : calls number history' = calls number history) :
    Told history' before number event := by
  obtain ⟨during, hpart, hduring, hall⟩ := h
  exact ⟨during, hpart.trans hgrows, hduring, hcalls.trans hall⟩

/-- From one scene to a later one. Notifications that started before may have made the calls
`made` meanwhile, and those that started meanwhile have ended as they should. -/
structure Course (made : Nat → List (ε × Nat × ω)) (w w' : Scene ω ε) : Prop where
  sound : w'.Sound
  grows : w.history <+: w'.history
  le : w.started ≤ w'.started
  calls_eq : ∀ number, number < w.started →
    calls number w'.history = calls number w.history ++ made number
  starts : ∀ before number event, before ++ [.started number event] <+: w'.history →
    number < w.started ∧ before ++ [.started number event] <+: w.history ∨
      w.started ≤ number ∧ Told w'.history before number event

theorem Course.trans {a b c : Nat → List (ε × Nat × ω)} (h : Course a w w₁)
    (h' : Course b w₁ w₂) (hb : ∀ number, w.started ≤ number → b number = [])
    (hc : ∀ number, c number = a number ++ b number) : Course c w w₂ where
  sound := h'.sound
  grows := h.grows.trans h'.grows
  le := Nat.le_trans h.le h'.le
  calls_eq number hlt := by
    rw [h'.calls_eq number (Nat.lt_of_lt_of_le hlt h.le), h.calls_eq number hlt, hc,
      List.append_assoc]
  starts before number event hpart := by
    rcases h'.starts before number event hpart with ⟨hlt, hold⟩ | ⟨hle, htold⟩
    · rcases h.starts before number event hold with hfirst | ⟨hle, htold⟩
      · exact .inl hfirst
      · refine .inr ⟨hle, htold.mono h'.grows ?_⟩
        rw [h'.calls_eq number hlt, hb number hle, List.append_nil]
    · exact .inr ⟨Nat.le_trans h.le hle, htold⟩

abbrev quiet (_ : Nat) : List (ε × Nat × ω) := []

theorem Course.andThen (h : Course quiet w w₁) (h' : Course quiet w₁ w₂) : Course quiet w w₂ :=
  h.trans h' (fun _ _ => rfl) fun _ => rfl

theorem Course.refl (hw : w.Sound) : Course quiet w w where
  sound := hw
  grows := List.prefix_refl _
  le := Nat.le_refl _
  calls_eq _ _ := (List.append_nil _).symm
  starts _ number event hpart :=
    .inl ⟨hw.number_lt number event (mem_of_concat_before hpart), hpart⟩

theorem Course.note {made : Nat → List (ε × Nat × ω)} {w' : Scene ω ε} {x : Entry ω ε}
    (hw : w.Sound) (hw' : w'.Sound) (hhistory : w'.history = w.history ++ [x])
    (hstarted : w'.started = w.started)
    (hcalls : ∀ number, number < w.started → calls number [x] = made number)
    (hx : ∀ number event, x ≠ .started number event) : Course made w w' where
  sound := hw'
  grows := by
    rw [hhistory]
    exact List.prefix_append _ _
  le := Nat.le_of_eq hstarted.symm
  calls_eq number hlt := by rw [hhistory, calls_append, hcalls number hlt]
  starts before number event hpart := by
    rw [hhistory] at hpart
    rcases concat_before_concat.mp hpart with ⟨_, heq⟩ | hold
    · exact absurd heq.symm (hx number event)
    · exact .inl ⟨hw.number_lt number event (mem_of_concat_before hold), hold⟩

theorem Course.subscribe (hw : w.Sound) (observer : ω) :
    Course quiet w (w.subscribe observer) :=
  .note hw (hw.subscribe observer) rfl rfl (fun _ _ => rfl) nofun

theorem Course.unsubscribe (hw : w.Sound) (handle : Nat) :
    Course quiet w (w.unsubscribe handle) :=
  .note hw (hw.unsubscribe handle) rfl rfl (fun _ _ => rfl) nofun

def only (number : Nat) (made : List (ε × Nat × ω)) (n : Nat) : List (ε × Nat × ω) :=
  if n = number then made else []

theorem Course.call (hw : w.Sound) {number : Nat} (hnumber : number < w.started) (event : ε)
    (subscription : Nat × ω) :
    Course (only number [(event, subscription)]) w
      (w.note (.called number event subscription)) := by
  apply Course.note hw (hw.call hnumber event subscription) rfl rfl
  · intro n _
    by_cases hn : number = n
    · simp [calls, Entry.call?, only, hn]
    · simp [calls, Entry.call?, only, hn, Ne.symm hn]
  · nofun

theorem calls_start (w : Scene ω ε) (event : ε) (number : Nat) :
    calls number (w.start event).history = calls number w.history := by
  simp [Scene.start, Scene.note, calls, Entry.call?]

theorem calls_finish (w : Scene ω ε) (ended number : Nat) :
    calls number (w.note (.finished ended)).history = calls number w.history := by
  simp [Scene.note, calls, Entry.call?]

theorem Course.foldl {number : Nat} (event : ε) {answer : Nat × ω → History ω ε → Conduct ω ε}
    (hanswer : ∀ p history w, w.Sound → Course quiet w ((answer p history).run w))
    (subscriptions : List (Nat × ω)) (hw : w.Sound) (hnumber : number < w.started) :
    Course (only number (subscriptions.map (Prod.mk event))) w
      (subscriptions.foldl (attend number event answer) w) := by
  induction subscriptions generalizing w with
  | nil =>
    apply (Course.refl hw).trans (Course.refl hw) (fun _ _ => rfl)
    intro n
    exact ite_self _
  | cons p rest ih =>
    -- what the observer does is quiet here, as its own notifications have later numbers
    have hcall := Course.call hw hnumber event p
    have hrun : Course quiet (w.note (.called number event p)) (attend number event answer w p) :=
      hanswer p _ _ hcall.sound
    have hfirst : Course (only number [(event, p)]) w (attend number event answer w p) :=
      hcall.trans hrun (fun _ _ => rfl) fun _ => (List.append_nil _).symm
    have hrest := ih hrun.sound (Nat.lt_of_lt_of_le hnumber hfirst.le)
    apply hfirst.trans hrest
    · intro n hn
      exact if_neg (by omega)
    · intro n
      by_cases hn : n = number <;> simp [only, hn]

theorem Course.notify (event : ε) {answer : Nat × ω → History ω ε → Conduct ω ε}
    (hanswer : ∀ p history w, w.Sound → Course quiet w ((answer p history).run w))
    (hw : w.Sound) :
    Course quiet w ((deliver Scene.chain (attend w.started event answer) (w.start event)).note
      (.finished w.started)) := by
  have hactive : (w.start event).chain.active = live w.history := hw.active_eq
  rw [deliver, hactive]
  have hfold := Course.foldl event hanswer (live w.history) (hw.start event)
    (Nat.lt_succ_self w.started)
  generalize (live w.history).foldl (attend w.started event answer) (w.start event) = w₁ at hfold
  have hnone : calls w.started (w.start event).history = [] := by
    rw [calls_start, hw.uncalled _ (Nat.le_refl _)]
  have hall : calls w.started w₁.history = (live w.history).map (Prod.mk event) := by
    rw [hfold.calls_eq _ (Nat.lt_succ_self _), hnone, only, if_pos rfl, List.nil_append]
  obtain ⟨during, hduring⟩ := hfold.grows
  constructor
  case sound => exact hfold.sound.finish w.started
  case grows =>
    have hstart : w.history <+: (w.start event).history := List.prefix_append _ _
    exact (hstart.trans hfold.grows).trans (List.prefix_append _ _)
  case le => exact Nat.le_trans (Nat.le_succ _) hfold.le
  case calls_eq =>
    intro number hlt
    rw [calls_finish, hfold.calls_eq number (Nat.lt_succ_of_lt hlt), calls_start, only,
      if_neg (Nat.ne_of_lt hlt)]
  case starts =>
    intro before number event' hpart
    rcases concat_before_concat.mp hpart with ⟨_, heq⟩ | hpart
    · cases heq
    · rcases hfold.starts before number event' hpart with ⟨hlt, hold⟩ | ⟨hle, htold⟩
      · rcases concat_before_concat.mp hold with ⟨rfl, heq⟩ | hold
        · -- the notification itself
          cases heq
          refine .inr ⟨Nat.le_refl _, during, ?_, ?_, ?_⟩
          · rw [Scene.note, ← hduring]
            simp [Scene.start, Scene.note]
          · rw [← hall, ← hduring, calls_append, hnone, List.nil_append]
          · rw [calls_finish, hall]
        · exact .inl ⟨hw.number_lt number event' (mem_of_concat_before hold), hold⟩
      · have hkept := htold.mono (List.prefix_append _ _) (calls_finish w₁ w.started number)
        exact .inr ⟨Nat.le_of_succ_le hle, hkept⟩

theorem Conduct.course (conduct : Conduct ω ε) {w : Scene ω ε} (hw : w.Sound) :
    Course quiet w (conduct.run w) := by
  induction conduct generalizing w with
  | done => exact .refl hw
  | subscribe observer next ih =>
    have hstep := Course.subscribe hw observer
    exact hstep.andThen (ih _ hstep.sound)
  | unsubscribe handle next ih =>
    have hstep := Course.unsubscribe hw handle
    exact hstep.andThen (ih _ hstep.sound)
  | notify event answer next ihanswer ihnext =>
    have hstep := Course.notify event (fun p history w hw => ihanswer p history hw) hw
    exact hstep.andThen (ihnext _ hstep.sound)

end

theorem notifications_follow_subscriptions (conduct : Conduct ω ε) :
    let scene := conduct.run {}
    Orderly scene.history ∧ scene.chain.active = live scene.history ∧
      handles scene.history = List.range scene.chain.next := by
  intro scene
  have h : Course quiet {} scene := conduct.course Scene.sound_initial
  have hnodup : (handles scene.history).Nodup := by
    rw [h.sound.handles_eq]
    exact List.nodup_range
  refine ⟨?_, h.sound.active_eq, h.sound.handles_eq⟩
  constructor
  case told =>
    intro before number event hpart
    rcases h.starts before number event hpart with ⟨hlt, _⟩ | ⟨_, htold⟩
    · exact absurd hlt (Nat.not_lt_zero _)
    · exact htold
  case fresh_number => exact h.sound.fresh_number
  case handles_nodup => exact hnodup
  case live_nodup => exact fun before hpart => live_nodup_of_before hpart hnodup
  case found =>
    intro before handle hpart
    have hbefore := (List.prefix_append before _).trans hpart
    have hmem := (h.sound.found_iff before handle true hpart).mp rfl
    exact live_unsubscribed true (live_nodup_of_before hbefore hnodup) hmem
  case missed =>
    intro before handle hpart
    have hmem : handle ∉ (live before).map Prod.fst := fun hmem =>
      Bool.false_ne_true ((h.sound.found_iff before handle false hpart).mpr hmem)
    exact ⟨hmem, live_unsubscribed_of_not_mem false hmem⟩

example :
    let busy : Conduct String Unit :=
      .unsubscribe 1 fun _ => .subscribe "c" fun _ =>
        .notify () (fun _ _ => .done) fun _ => .done
    let answer (p : Nat × String) (_ : History String Unit) :=
      if p.1 = 0 then busy else .done
    let conduct : Conduct String Unit :=
      .subscribe "a" fun _ => .subscribe "a" fun _ => .subscribe "b" fun _ =>
        .notify () answer fun _ => .done
    (conduct.run {}).history =
      [.subscribed 0 "a", .subscribed 1 "a", .subscribed 2 "b", .started 0 (),
        .called 0 () (0, "a"), .unsubscribed 1 true, .subscribed 3 "c", .started 1 (),
        .called 1 () (0, "a"), .called 1 () (2, "b"), .called 1 () (3, "c"), .finished 1,
        .called 0 () (1, "a"), .called 0 () (2, "b"), .finished 0] := rfl

end BinaryAtlas.Chain
