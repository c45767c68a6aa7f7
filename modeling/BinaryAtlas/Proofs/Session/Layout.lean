import BinaryAtlas.Proofs.Session.Create
import BinaryAtlas.Proofs.Translation

/-!
The layout of an image over time. Whatever is done to an image and whatever its observers do to
it, its layout is what the last analysis that succeeded found in the bytes of that moment.
-/

namespace BinaryAtlas

open Image (analyse_eq_ok_iff)

inductive ImageCall where
  | analyse
  | writeRaw (file : Nat) (data : Bytes)
  | flush
  | setName (name : String)
  | setComment (comment : String)
  | read (offset len : Nat)
  | readRaw (file len : Nat)

theorem Image.analyse_eq_error_iff (i : Image) (m : Malformed) :
    i.analyse = .error m ↔ i.analyser.run i.store.bytes = .error m ∨
      ∃ a, i.analyser.run i.store.bytes = .ok a ∧ a.validate = .error m := by
  rw [analyse]
  cases hrun : i.analyser.run i.store.bytes with
  | error e => simp [bind, Except.bind]
  | ok a =>
    cases hvalid : a.validate with
    | error e => simp [bind, Except.bind, hvalid]
    | ok u => simp [bind, Except.bind, pure, Except.pure, hvalid]

theorem Image.writeRaw_refused {i : Image} {file : Nat} {data : Bytes} {e : Error}
    (h : (i.writeRaw file data).1 = .error e) : (i.writeRaw file data).2 = i := by
  rcases hwrite : i.store.write file data with ⟨refusal | _, store⟩
  · rw [writeRaw, hwrite, Store.write_refused hwrite]
  · rw [writeRaw, hwrite] at h
    cases h

/-- A layout is what the analyser finds in the bytes of the last success, or none without one. -/
def Layout.IsOutcome (run : Bytes → Except Malformed Analysis) (last : Option Bytes)
    (layout : Option Layout) : Prop :=
  match last with
  | none => layout = none
  | some bytes => ∃ a l, run bytes = .ok a ∧ a.validate = .ok () ∧ layout = some l ∧
      l = .ofAnalysis a bytes ∧ l.base = a.base ∧ l.entry = a.entry ∧
      l.stop = Word.addSat a.base a.size ∧ l.sections = a.sections ∧
      l.contentHash = Digest.contentHash bytes

namespace Session

variable {s : Session} {r : Ref} {i : Image}

def call (s : Session) (r : Ref) : ImageCall → Session
  | .analyse => (s.analyse r).2
  | .writeRaw file data => (s.writeRaw r file data).2
  | .flush => (s.flush r).2
  | .setName name => s.update r fun o => { o with name }
  | .setComment comment => s.update r fun o => { o with comment }
  | .read _ _ => s
  | .readRaw _ _ => s

def calls (s : Session) (r : Ref) (l : List ImageCall) : Session :=
  l.foldl (fun s c => s.call r c) s

def analysed (s : Session) (r : Ref) (last : Option Bytes) : ImageCall → Option Bytes
  | .analyse =>
    match s.analyse r with
    | (.ok _, _) => (s.heap.image? r).map (·.store.bytes)
    | (.error _, _) => last
  | _ => last

def lastAnalysed (r : Ref) (s : Session) (last : Option Bytes) : List ImageCall → Option Bytes
  | [] => last
  | c :: rest => lastAnalysed r (s.call r c) (s.analysed r last c) rest

def surface (o : Object) : Option (Analyser × Option Layout) :=
  o.body.image?.map fun i => (i.analyser, i.layout)

theorem storeBlind_surface : StoreBlind surface := by
  intro o i store hi
  rw [surface, surface, hi]
  rfl

abbrev Still (s s' : Session) : Prop := s.heap.Keeps surface (fun _ => True) s'.heap

theorem Still.image? {s' : Session} (hs : s.Still s') (hi : s.heap.image? r = some i) :
    ∃ j, s'.heap.image? r = some j ∧ j.analyser = i.analyser ∧ j.layout = i.layout := by
  obtain ⟨o, ho, hb⟩ := Option.bind_eq_some_iff.mp hi
  obtain ⟨o', ho', hview⟩ := hs.exists_get? ho
  rw [surface, surface, hb, Option.map_some, Option.map_eq_some_iff] at hview
  obtain ⟨j, hj, heq⟩ := hview
  exact ⟨j, by rw [Heap.image?, ho', Option.bind_some, hj], congrArg Prod.fst heq,
    congrArg Prod.snd heq⟩

theorem analyse_of_ok {j : Image} (hi : s.heap.image? r = some i) (hj : i.analyse = .ok j) :
    s.analyse r = (.ok (), s.updateBody r (.image j)) := by
  simp only [analyse, hi, hj]

theorem analyse_of_error {m : Malformed} (hi : s.heap.image? r = some i)
    (hm : i.analyse = .error m) :
    s.analyse r = (.error (.during "analyse" 0 (.malformed m)), s) := by
  simp only [analyse, hi, hm]

theorem image?_updateBody (hi : s.heap.image? r = some i) (j : Image) :
    ∃ k, (s.updateBody r (.image j)).heap.image? r = some k ∧ k.analyser = j.analyser ∧
      k.layout = j.layout := by
  have hset : (s.heap.setBody r (.image j)).image? r = some j := by
    rw [Heap.image?_setBody hi, if_pos rfl]
  exact Still.image? (s := { s with heap := s.heap.setBody r (.image j) })
    (notify_keeps storeBlind_surface _ .changed r) hset

def Current (s : Session) (r : Ref) (analyser : Analyser) (last : Option Bytes) : Prop :=
  ∃ i, s.heap.image? r = some i ∧ i.analyser = analyser ∧
    Layout.IsOutcome analyser.run last i.layout

variable {analyser : Analyser} {last : Option Bytes}

theorem Current.of_still {s' : Session} (h : s.Current r analyser last) (hs : s.Still s') :
    s'.Current r analyser last := by
  obtain ⟨i, hi, ha, hlayout⟩ := h
  obtain ⟨j, hj, hja, hjl⟩ := hs.image? hi
  exact ⟨j, hj, hja.trans ha, hjl ▸ hlayout⟩

theorem Current.analyse (h : s.Current r analyser last) :
    (s.call r .analyse).Current r analyser (s.analysed r last .analyse) := by
  obtain ⟨i, hi, ha, hlayout⟩ := h
  rw [call, analysed]
  cases hrun : i.analyse with
  | error m =>
    rw [analyse_of_error hi hrun]
    exact ⟨i, hi, ha, hlayout⟩
  | ok j =>
    rw [analyse_of_ok hi hrun, hi]
    obtain ⟨k, hk, hka, hkl⟩ := image?_updateBody hi j
    obtain ⟨a, hok, hvalid, rfl⟩ := (analyse_eq_ok_iff i j).mp hrun
    exact ⟨k, hk, hka.trans ha, a, _, ha ▸ hok, hvalid, hkl, rfl, rfl, rfl, rfl, rfl, rfl⟩

theorem Current.call (h : s.Current r analyser last) (c : ImageCall) :
    (s.call r c).Current r analyser (s.analysed r last c) := by
  cases c with
  | analyse => exact h.analyse
  | writeRaw file data => exact h.of_still (writeRaw_keeps storeBlind_surface s r file data)
  | flush => exact h.of_still (flush_keeps storeBlind_surface s r)
  | setName name => exact h.of_still (update_keeps storeBlind_surface fun _ _ => rfl)
  | setComment comment => exact h.of_still (update_keeps storeBlind_surface fun _ _ => rfl)
  | read offset len => exact h
  | readRaw file len => exact h

theorem Current.calls (h : s.Current r analyser last) (l : List ImageCall) :
    (s.calls r l).Current r analyser (lastAnalysed r s last l) := by
  induction l generalizing s last with
  | nil => exact h
  | cons c rest ih => exact ih (h.call c)

theorem analyse_answers (hi : s.heap.image? r = some i) :
    ((s.analyse r).1 = .ok () ↔
      ∃ a, i.analyser.run i.store.bytes = .ok a ∧ a.validate = .ok ()) ∧
    ∀ e, (s.analyse r).1 = .error e → (s.analyse r).2 = s ∧
      ∃ m, e = .during "analyse" 0 (.malformed m) ∧
        (i.analyser.run i.store.bytes = .error m ∨
          ∃ a, i.analyser.run i.store.bytes = .ok a ∧ a.validate = .error m) := by
  cases hrun : i.analyse with
  | error m =>
    rw [analyse_of_error hi hrun]
    refine ⟨⟨nofun, ?_⟩, ?_⟩
    · rintro ⟨a, ha, hvalid⟩
      rw [(analyse_eq_ok_iff i _).mpr ⟨a, ha, hvalid, rfl⟩] at hrun
      cases hrun
    · rintro e ⟨⟩
      exact ⟨rfl, m, rfl, (i.analyse_eq_error_iff m).mp hrun⟩
  | ok j =>
    rw [analyse_of_ok hi hrun]
    obtain ⟨a, ha, hvalid, _⟩ := (analyse_eq_ok_iff i j).mp hrun
    exact ⟨⟨fun _ => ⟨a, ha, hvalid⟩, fun _ => rfl⟩, nofun⟩

theorem writeRaw_refused {file : Nat} {data : Bytes} {e : Error}
    (h : (s.writeRaw r file data).1 = .error e) : (s.writeRaw r file data).2 = s := by
  unfold writeRaw updateImage at h ⊢
  split
  · rfl
  · rename_i i hi
    rw [hi] at h
    have hsame : (i.writeRaw file data).2 = i := Image.writeRaw_refused h
    dsimp only
    rw [hsame, Heap.setBody_image hi]

theorem layout_of_last_analysis (s : Session) (r : Ref) (i : Image)
    (hi : s.heap.image? r = some i) (hfresh : i.layout = none) (l : List ImageCall) :
    ∃ j, (s.calls r l).heap.image? r = some j ∧ j.analyser = i.analyser ∧
      Layout.IsOutcome i.analyser.run (lastAnalysed r s none l) j.layout ∧
      (((s.calls r l).analyse r).1 = .ok () ↔
        ∃ a, i.analyser.run j.store.bytes = .ok a ∧ a.validate = .ok ()) ∧
      (∀ e, ((s.calls r l).analyse r).1 = .error e → ((s.calls r l).analyse r).2 = s.calls r l ∧
        ∃ m, e = .during "analyse" 0 (.malformed m) ∧
          (i.analyser.run j.store.bytes = .error m ∨
            ∃ a, i.analyser.run j.store.bytes = .ok a ∧ a.validate = .error m)) ∧
      ∀ file data,
        (∃ k, ((s.calls r l).writeRaw r file data).2.heap.image? r = some k ∧
          k.layout = j.layout) ∧
        ∀ e, ((s.calls r l).writeRaw r file data).1 = .error e →
          ((s.calls r l).writeRaw r file data).2 = s.calls r l := by
  have hstart : s.Current r i.analyser none := ⟨i, hi, rfl, hfresh⟩
  obtain ⟨j, hj, hja, hlayout⟩ := hstart.calls l
  obtain ⟨hok, herror⟩ := analyse_answers hj
  rw [hja] at hok herror
  refine ⟨j, hj, hja, hlayout, hok, herror, fun file data => ⟨?_, fun e => writeRaw_refused⟩⟩
  obtain ⟨k, hk, _, hkl⟩ :=
    Still.image? (writeRaw_keeps storeBlind_surface (s.calls r l) r file data) hj
  exact ⟨k, hk, hkl⟩

def refusingZero : Analyser :=
  ⟨"wary", fun data =>
    if data.head? = some 0 then .error (.truncated 1 0) else Analyser.flatAnalysis 0 data⟩

def twoBytes : Image where
  store := .memory { bytes := [1, 2], growable := true }
  analyser := refusingZero
  globals := 0

def twoBytesObserved : Session where
  heap := (Heap.empty.alloc { uuid := ⟨0⟩, id := 7, name := "plain", body := .image twoBytes }).2
  registry := { entries := .ofList [(7, 0)] }
  chain := { next := 1, active := [(0, { tag := "o", reaction := .patch })] }
  supply := Uuid.mk

def analysesAndWrites : List ImageCall := [.analyse, .writeRaw 0 [0], .analyse, .writeRaw 4 [7]]

theorem twoBytesObserved_layout :
    (((twoBytesObserved.calls 0 analysesAndWrites).heap.image? 0).map (·.store.bytes) =
        some [0, 2, 0, 0, 7]) ∧
      ∃ j l, (twoBytesObserved.calls 0 analysesAndWrites).heap.image? 0 = some j ∧
        j.layout = some l ∧
        l.base = 0 ∧ l.entry = 0 ∧ l.stop = 2 ∧ l.sections.map (·.stop) = [2] ∧
        l.contentHash =
          "sha256:a12871fee210fb8619291eaea194581cbd2531e4b23759d225f6806923f63222" := by
  have hlast : lastAnalysed 0 twoBytesObserved none analysesAndWrites = some [1, 2] := by
    decide +kernel
  obtain ⟨j, hj, _, hlayout, _⟩ :=
    layout_of_last_analysis twoBytesObserved 0 twoBytes rfl rfl analysesAndWrites
  rw [hlast] at hlayout
  obtain ⟨a, l, hrun, _, hl, _, hbase, hentry, hstop, hsections, hhash⟩ := hlayout
  cases hrun
  exact ⟨by decide +kernel, j, l, hj, hl, hbase, hentry, hstop, by rw [hsections]; rfl,
    hhash.trans (by decide +kernel)⟩

end Session

end BinaryAtlas
