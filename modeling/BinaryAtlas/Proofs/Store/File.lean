import BinaryAtlas.Proofs.Store.Memory

/-!
A file store and the disk that its file is on. Between the calls on the store anything may happen
to the disk, and a save may break off at each of its stages. The store is what was on the disk when
it last took the file or put its own bytes there, with the writes since then; it is dirty if there
are any, and the disk still holds the former unless something else has touched it.
-/

namespace BinaryAtlas

namespace FileStore

variable {s : FileStore} {disk : Disk} {offset len : Nat} {data : Bytes}

theorem readFile_eq_ok_iff {path : String} {bound : Nat} {content : Bytes} :
    readFile disk path bound = .ok content ↔
      disk.read? path = some content ∧ content.length ≤ bound := by
  unfold readFile
  cases disk.read? path with
  | none => simp
  | some found =>
    dsimp only
    split
    · rename_i hlarge
      simp only [reduceCtorEq, Option.some.injEq, false_iff, not_and]
      rintro rfl
      omega
    · rename_i hfits
      simp only [Except.ok.injEq, Option.some.injEq, iff_self_and]
      rintro rfl
      omega

theorem of_ofDisk_eq_ok {path : String} {config : StoreConfig}
    (h : ofDisk disk path config = .ok s) :
    s.path = path ∧ s.maxSize = config.maxFileSize ∧ disk.read? path = some s.bytes ∧
      s.size ≤ config.maxFileSize ∧ s.dirty = false := by
  obtain ⟨content, hread, rfl⟩ := (map_eq_ok_iff _ _ _).mp h
  obtain ⟨hfound, hsmall⟩ := readFile_eq_ok_iff.mp hread
  exact ⟨rfl, rfl, hfound, hsmall, rfl⟩

theorem storeRange_inside (hword : s.size < Word.limit) (hin : offset + len ≤ s.size) :
    storeRange offset len s.size = .ok (offset, offset + len) :=
  (storeRange_eq_ok_iff _).mpr ⟨Nat.lt_of_le_of_lt hin hword, hin, rfl⟩

theorem read_inside (hword : s.size < Word.limit) (hin : offset + len ≤ s.size) :
    s.read offset len = .ok (s.bytes.window offset len) := by
  rw [read, storeRange_inside hword hin]
  rfl

theorem read_outside (hout : s.size < offset + len) :
    s.read offset len = .error (.outOfBounds offset len s.size) := by
  rw [read, storeRange_eq_error hout]
  rfl

theorem write_inside (hword : s.size < Word.limit) (hin : offset + data.length ≤ s.size) :
    s.write offset data =
      (.ok (), { s with bytes := s.bytes.splice offset data, owned := true, dirty := true }) := by
  rw [write, storeRange_inside hword hin]

theorem write_outside (hout : s.size < offset + data.length) :
    s.write offset data = (.error (.outOfBounds offset data.length s.size), s) := by
  rw [write, storeRange_eq_error hout]

theorem load_of_ok {content : Bytes} (h : readFile disk s.path s.maxSize = .ok content) :
    s.load disk =
      (.ok (), { s with bytes := content, owned := content.isEmpty, dirty := false }) := by
  rw [load, h]

theorem load_of_error {e : StoreError} (h : readFile disk s.path s.maxSize = .error e) :
    s.load disk = (.error e, s) := by
  rw [load, h]

theorem flush_of_dirty (h : s.dirty = true) : s.flush disk = s.save disk := by
  rw [flush, if_pos h]

theorem flush_of_clean (h : s.dirty = false) : s.flush disk = (.ok (), s, disk) := by
  rw [flush, if_neg (Bool.eq_false_iff.mp h)]

end FileStore

structure Mounted where
  store : FileStore
  disk : Disk

inductive FileEvent where
  | read (offset len : Nat)
  | write (offset : Nat) (data : Bytes)
  | flush
  | load
  | save
  | fault (fault : Option SaveFault)
  | outside (disk : Disk)

namespace Mounted

variable {s s' : Mounted} {event : FileEvent} {b : Bytes} {e : StoreError}

def attempt (s : Mounted) : FileEvent → Except StoreError Bytes × Mounted
  | .read offset len => (s.store.read offset len, s)
  | .write offset data =>
    let (answer, store) := s.store.write offset data
    (answer.map fun _ => [], { s with store })
  | .flush =>
    let (answer, store, disk) := s.store.flush s.disk
    (answer.map fun _ => [], { store, disk })
  | .load =>
    let (answer, store) := s.store.load s.disk
    (answer.map fun _ => [], { s with store })
  | .save =>
    let (answer, store, disk) := s.store.save s.disk
    (answer.map fun _ => [], { store, disk })
  | .fault fault => (.ok [], { s with disk := { s.disk with fault } })
  | .outside disk => (.ok [], { s with disk })

def next (s : Mounted) (event : FileEvent) : Mounted := (s.attempt event).2

def after (s : Mounted) (l : List FileEvent) : Mounted := l.foldl next s

inductive Takes (s : Mounted) : FileEvent → Bytes → Mounted → Prop
  | read (offset len : Nat) (inside : offset + len ≤ s.store.size) :
    Takes s (.read offset len) (s.store.bytes.window offset len) s
  | write (offset : Nat) (data : Bytes) (inside : offset + data.length ≤ s.store.size) :
    Takes s (.write offset data) []
      { s with
        store := { s.store with
          bytes := s.store.bytes.splice offset data, owned := true, dirty := true } }
  | flush (clean : s.store.dirty = false) : Takes s .flush [] s
  | flushDirty (dirty : s.store.dirty = true) (ready : s.disk.Ready) :
    Takes s .flush []
      { store := { s.store with dirty := false }
        disk := s.disk.put s.store.path s.store.bytes }
  | load (content : Bytes) (found : s.disk.read? s.store.path = some content)
      (small : content.length ≤ s.store.maxSize) :
    Takes s .load []
      { s with
        store := { s.store with bytes := content, owned := content.isEmpty, dirty := false } }
  | save (ready : s.disk.Ready) :
    Takes s .save []
      { store := { s.store with dirty := false }
        disk := s.disk.put s.store.path s.store.bytes }
  | fault (fault : Option SaveFault) :
    Takes s (.fault fault) [] { s with disk := { s.disk with fault } }
  | outside (disk : Disk) : Takes s (.outside disk) [] { s with disk }

inductive Refuses (s : Mounted) : FileEvent → StoreError → Prop
  | read (offset len : Nat) (outside : s.store.size < offset + len) :
    Refuses s (.read offset len) (.outOfBounds offset len s.store.size)
  | write (offset : Nat) (data : Bytes) (outside : s.store.size < offset + data.length) :
    Refuses s (.write offset data) (.outOfBounds offset data.length s.store.size)
  | flush (dirty : s.store.dirty = true) (broken : ¬ s.disk.Ready) : Refuses s .flush .system
  | missing (missing : s.disk.read? s.store.path = none) : Refuses s .load .system
  | large (content : Bytes) (found : s.disk.read? s.store.path = some content)
      (large : s.store.maxSize < content.length) :
    Refuses s .load (.fileTooLarge s.store.maxSize content.length)
  | save (broken : ¬ s.disk.Ready) : Refuses s .save .system

theorem attempt_of_takes (hword : s.store.size < Word.limit) (h : s.Takes event b s') :
    s.attempt event = (.ok b, s') := by
  cases h with
  | read offset len hin => rw [attempt, FileStore.read_inside hword hin]
  | write offset data hin =>
    rw [attempt, FileStore.write_inside hword hin]
    rfl
  | flush hclean =>
    rw [attempt, FileStore.flush_of_clean hclean]
    rfl
  | flushDirty hdirty hready =>
    rw [attempt, FileStore.flush_of_dirty hdirty, FileStore.save_of_ready hready]
    rfl
  | load content hfound hsmall =>
    rw [attempt, FileStore.load_of_ok (FileStore.readFile_eq_ok_iff.mpr ⟨hfound, hsmall⟩)]
    rfl
  | save hready =>
    rw [attempt, FileStore.save_of_ready hready]
    rfl
  | fault fault => rfl
  | outside disk => rfl

theorem attempt_of_refuses (h : s.Refuses event e) : s.attempt event = (.error e, s) := by
  cases h with
  | read offset len hout => rw [attempt, FileStore.read_outside hout]
  | write offset data hout =>
    rw [attempt, FileStore.write_outside hout]
    rfl
  | flush hdirty hbroken =>
    rw [attempt, FileStore.flush_of_dirty hdirty, FileStore.save_of_not_ready hbroken]
    rfl
  | missing hmissing =>
    rw [attempt, FileStore.load_of_error (e := .system) (by rw [FileStore.readFile, hmissing])]
    rfl
  | large content hfound hlarge =>
    rw [attempt, FileStore.load_of_error (e := .fileTooLarge s.store.maxSize content.length)]
    · rfl
    · rw [FileStore.readFile, hfound]
      exact if_pos hlarge
  | save hbroken =>
    rw [attempt, FileStore.save_of_not_ready hbroken]
    rfl

theorem takes_or_refuses (s : Mounted) (event : FileEvent) :
    (∃ b s', s.Takes event b s') ∨ ∃ e, s.Refuses event e := by
  cases event with
  | read offset len =>
    rcases Nat.lt_or_ge s.store.size (offset + len) with hout | hin
    · exact .inr ⟨_, .read offset len hout⟩
    · exact .inl ⟨_, _, .read offset len hin⟩
  | write offset data =>
    rcases Nat.lt_or_ge s.store.size (offset + data.length) with hout | hin
    · exact .inr ⟨_, .write offset data hout⟩
    · exact .inl ⟨_, _, .write offset data hin⟩
  | flush =>
    cases hdirty : s.store.dirty with
    | false => exact .inl ⟨_, _, .flush hdirty⟩
    | true =>
      by_cases hready : s.disk.Ready
      · exact .inl ⟨_, _, .flushDirty hdirty hready⟩
      · exact .inr ⟨_, .flush hdirty hready⟩
  | load =>
    cases hfound : s.disk.read? s.store.path with
    | none => exact .inr ⟨_, .missing hfound⟩
    | some content =>
      rcases Nat.lt_or_ge s.store.maxSize content.length with hlarge | hsmall
      · exact .inr ⟨_, .large content hfound hlarge⟩
      · exact .inl ⟨_, _, .load content hfound hsmall⟩
  | save =>
    by_cases hready : s.disk.Ready
    · exact .inl ⟨_, _, .save hready⟩
    · exact .inr ⟨_, .save hready⟩
  | fault fault => exact .inl ⟨_, _, .fault fault⟩
  | outside disk => exact .inl ⟨_, _, .outside disk⟩

theorem attempt_eq_ok_iff (hword : s.store.size < Word.limit) :
    s.attempt event = (.ok b, s') ↔ s.Takes event b s' := by
  constructor
  · intro hrun
    rcases s.takes_or_refuses event with ⟨b₁, s₁, h⟩ | ⟨e, h⟩
    · cases hrun.symm.trans (attempt_of_takes hword h)
      exact h
    · cases hrun.symm.trans (attempt_of_refuses h)
  · exact attempt_of_takes hword

theorem attempt_eq_error_iff (hword : s.store.size < Word.limit) :
    s.attempt event = (.error e, s') ↔ s.Refuses event e ∧ s' = s := by
  constructor
  · intro hrun
    rcases s.takes_or_refuses event with ⟨b₁, s₁, h⟩ | ⟨e₁, h⟩
    · cases hrun.symm.trans (attempt_of_takes hword h)
    · cases hrun.symm.trans (attempt_of_refuses h)
      exact ⟨h, rfl⟩
  · rintro ⟨h, rfl⟩
    exact attempt_of_refuses h

theorem Takes.store (h : s.Takes event b s') :
    s'.store.path = s.store.path ∧ s'.store.maxSize = s.store.maxSize ∧
      (s'.store.size = s.store.size ∨ s'.store.size ≤ s.store.maxSize) := by
  cases h with
  | write offset data hin => exact ⟨rfl, rfl, .inl (Bytes.length_splice hin)⟩
  | load content hfound hsmall => exact ⟨rfl, rfl, .inr hsmall⟩
  | _ => exact ⟨rfl, rfl, .inl rfl⟩

end Mounted

/-- What is known of a file and its store without a look at either: the bytes that were on the disk
when store and file last agreed, the writes since then, and whether nothing else came between. -/
structure Ledger where
  base : Bytes
  unsaved : List (Nat × Bytes) := []
  undisturbed : Bool := true

namespace Ledger

def content (g : Ledger) : Bytes := g.unsaved.foldl (fun b w => b.splice w.1 w.2) g.base

def note (g : Ledger) (found : Option Bytes) : FileEvent → Ledger
  | .read _ _ => g
  | .write offset data => { g with unsaved := g.unsaved ++ [(offset, data)] }
  | .flush => if g.unsaved.isEmpty then g else { base := g.content }
  | .load => { base := found.getD [] }
  | .save => { base := g.content }
  | .fault _ => g
  | .outside _ => { g with undisturbed := false }

end Ledger

namespace Mounted

variable {s s' : Mounted} {event : FileEvent} {b : Bytes} {g : Ledger} {start : Mounted}

def ledger (s : Mounted) (g : Ledger) : List FileEvent → Ledger
  | [] => g
  | event :: rest =>
    match s.attempt event with
    | (.ok _, s') => s'.ledger (g.note (s.disk.read? s.store.path) event) rest
    | (.error _, s') => s'.ledger g rest

structure Agrees (s : Mounted) (g : Ledger) : Prop where
  bytes : s.store.bytes = g.content
  dirty : s.store.dirty = !g.unsaved.isEmpty
  disk : g.undisturbed = true → s.disk.read? s.store.path = some g.base

theorem Agrees.saved (h : s.Agrees g) (hready : s.disk.Ready) :
    Agrees { store := { s.store with dirty := false }
             disk := s.disk.put s.store.path s.store.bytes } { base := g.content } where
  bytes := h.bytes
  dirty := rfl
  disk _ := (Disk.read?_put hready.1 _ _).trans (congrArg some h.bytes)

theorem Agrees.takes (h : s.Agrees g) (ht : s.Takes event b s') :
    s'.Agrees (g.note (s.disk.read? s.store.path) event) := by
  cases ht with
  | read offset len hin => exact h
  | write offset data hin =>
    refine ⟨?_, by simp [Ledger.note], h.disk⟩
    simp only [Ledger.note, Ledger.content, List.foldl_append, List.foldl_cons, List.foldl_nil]
    rw [h.bytes, Ledger.content]
  | flush hclean =>
    have hnone : g.unsaved.isEmpty = true := by simpa [hclean] using h.dirty
    simpa only [Ledger.note, hnone, if_true] using h
  | flushDirty hdirty hready =>
    have hsome : g.unsaved.isEmpty = false := by simpa [hdirty] using h.dirty
    simp only [Ledger.note, hsome, Bool.false_eq_true, if_false]
    exact h.saved hready
  | load content hfound hsmall =>
    rw [hfound]
    exact ⟨rfl, rfl, fun _ => hfound⟩
  | save hready => exact h.saved hready
  | fault fault => exact ⟨h.bytes, h.dirty, h.disk⟩
  | outside disk => exact ⟨h.bytes, h.dirty, nofun⟩

structure Within (start s : Mounted) : Prop where
  path : s.store.path = start.store.path
  maxSize : s.store.maxSize = start.store.maxSize
  size : s.store.size ≤ start.store.maxSize

theorem Within.takes (h : start.Within s) (ht : s.Takes event b s') : start.Within s' := by
  obtain ⟨hpath, hmax, hsize⟩ := ht.store
  refine ⟨hpath.trans h.path, hmax.trans h.maxSize, ?_⟩
  have hbefore := h.size
  have hbound := h.maxSize
  omega

theorem after_cons (s : Mounted) (event : FileEvent) (l : List FileEvent) :
    s.after (event :: l) = (s.next event).after l := rfl

theorem after_agrees (hword : start.store.maxSize < Word.limit) (hw : start.Within s)
    (h : s.Agrees g) (l : List FileEvent) :
    start.Within (s.after l) ∧ (s.after l).Agrees (s.ledger g l) := by
  induction l generalizing s g with
  | nil => exact ⟨hw, h⟩
  | cons event rest ih =>
    rw [after_cons, ledger, next]
    have hsize := Nat.lt_of_le_of_lt hw.size hword
    rcases s.takes_or_refuses event with ⟨b, s', ht⟩ | ⟨e, hr⟩
    · rw [attempt_of_takes hsize ht]
      exact ih (hw.takes ht) (h.takes ht)
    · rw [attempt_of_refuses hr]
      exact ih hw h

inductive Snapshots (s s' : Mounted) : FileEvent → Prop
  | same (event : FileEvent) (bytes : s'.store.bytes = s.store.bytes) : Snapshots s s' event
  | write (offset : Nat) (data : Bytes) (inside : offset + data.length ≤ s.store.size)
      (size : s'.store.size = s.store.size)
      (others : ∀ i, i < offset ∨ offset + data.length ≤ i →
        s'.store.bytes[i]? = s.store.bytes[i]?)
      (range : ∀ k < data.length, s'.store.bytes[offset + k]? = data[k]?) :
    Snapshots s s' (.write offset data)
  | load (content : s.disk.read? s.store.path = some s'.store.bytes)
      (clean : s'.store.dirty = false) :
    Snapshots s s' .load

inductive Places (s s' : Mounted) : FileEvent → Prop
  | same (event : FileEvent) (disk : s'.disk = s.disk) : Places s s' event
  | saved (event : FileEvent) (event_eq : event = .save ∨ event = .flush ∧ s.store.dirty = true)
      (ready : s.disk.Ready) (disk : s'.disk = s.disk.put s.store.path s.store.bytes)
      (found : s'.disk.read? s.store.path = some s.store.bytes)
      (bytes : s'.store.bytes = s.store.bytes) (clean : s'.store.dirty = false) :
    Places s s' event
  | fault (fault : Option SaveFault) (disk : s'.disk = { s.disk with fault }) :
    Places s s' (.fault fault)
  | outside (disk : Disk) : Places s s' (.outside disk)

structure Follows (s : Mounted) (event : FileEvent) : Prop where
  takes_iff : ∀ b s', s.attempt event = (.ok b, s') ↔ s.Takes event b s'
  refuses_iff : ∀ e s', s.attempt event = (.error e, s') ↔ s.Refuses event e ∧ s' = s
  bytes : s.Snapshots (s.next event) event
  disk : s.Places (s.next event) event
  saved : (event = .save ∨ event = .flush ∧ s.store.dirty = true) →
    ∀ b s', s.attempt event = (.ok b, s') →
      s'.disk.read? s.store.path = some s.store.bytes ∧ s'.store.bytes = s.store.bytes ∧
        s'.store.dirty = false
  clean : event = .flush → s.store.dirty = false → s.attempt event = (.ok [], s)

theorem Takes.snapshots (h : s.Takes event b s') : s.Snapshots s' event := by
  cases h with
  | write offset data hin =>
    refine .write offset data hin (Bytes.length_splice hin) (fun i hi => ?_) fun k hk => ?_
    · exact (Bytes.getElem?_splice hin i).trans (if_neg (by omega))
    · refine (Bytes.getElem?_splice hin (offset + k)).trans ?_
      rw [if_pos (by omega), Nat.add_sub_cancel_left]
  | load content hfound hsmall => exact .load hfound rfl
  | _ => exact .same _ rfl

theorem Takes.places (h : s.Takes event b s') : s.Places s' event := by
  cases h with
  | flushDirty hdirty hready =>
    exact .saved _ (.inr ⟨rfl, hdirty⟩) hready rfl (Disk.read?_put hready.1 _ _) rfl rfl
  | save hready => exact .saved _ (.inl rfl) hready rfl (Disk.read?_put hready.1 _ _) rfl rfl
  | fault fault => exact .fault fault rfl
  | outside disk => exact .outside disk
  | _ => exact .same _ rfl

theorem Takes.saved (h : s.Takes event b s')
    (hevent : event = .save ∨ event = .flush ∧ s.store.dirty = true) :
    s'.disk.read? s.store.path = some s.store.bytes ∧ s'.store.bytes = s.store.bytes ∧
      s'.store.dirty = false := by
  cases h with
  | flush hclean => simp [hclean] at hevent
  | flushDirty hdirty hready => exact ⟨Disk.read?_put hready.1 _ _, rfl, rfl⟩
  | save hready => exact ⟨Disk.read?_put hready.1 _ _, rfl, rfl⟩
  | _ => simp at hevent

theorem follows (hword : s.store.size < Word.limit) (event : FileEvent) : s.Follows event := by
  have hnext : s.next event = s ∨ ∃ b, s.Takes event b (s.next event) := by
    rcases s.takes_or_refuses event with ⟨b, s', ht⟩ | ⟨e, hr⟩
    · rw [next, attempt_of_takes hword ht]
      exact .inr ⟨b, ht⟩
    · rw [next, attempt_of_refuses hr]
      exact .inl rfl
  constructor
  case takes_iff => exact fun b s' => attempt_eq_ok_iff hword
  case refuses_iff => exact fun e s' => attempt_eq_error_iff hword
  case bytes =>
    rcases hnext with hsame | ⟨b, ht⟩
    · exact .same event (by rw [hsame])
    · exact ht.snapshots
  case disk =>
    rcases hnext with hsame | ⟨b, ht⟩
    · exact .same event (by rw [hsame])
    · exact ht.places
  case saved => exact fun hevent b s' h => ((attempt_eq_ok_iff hword).mp h).saved hevent
  case clean =>
    rintro rfl hclean
    exact attempt_of_takes hword (.flush hclean)

theorem file_store_follows_ledger (disk : Disk) (path : String) (config : StoreConfig)
    (hword : config.maxFileSize < Word.limit) (store : FileStore)
    (hopen : FileStore.ofDisk disk path config = .ok store) (l : List FileEvent) :
    let s := after { store, disk } l
    let g := ledger { store, disk } { base := store.bytes } l
    (s.store.path = path ∧ s.store.size ≤ config.maxFileSize) ∧
    (disk.read? path = some store.bytes ∧ store.dirty = false) ∧
    s.Agrees g ∧
    (g.undisturbed = true → s.store.dirty = false →
      s.disk.read? path = some s.store.bytes) ∧
    ∀ event, s.Follows event := by
  intro s g
  obtain ⟨hpath, hbound, hfound, hsmall, hclean⟩ := FileStore.of_ofDisk_eq_ok hopen
  have hopened : Within { store, disk } { store, disk } := ⟨rfl, rfl, hbound ▸ hsmall⟩
  have hagrees : Agrees { store, disk } { base := store.bytes } :=
    ⟨rfl, hclean, fun _ => hpath ▸ hfound⟩
  obtain ⟨hw, ha⟩ : Within { store, disk } s ∧ s.Agrees g :=
    after_agrees (hbound ▸ hword) hopened hagrees l
  have hsize : s.store.size ≤ config.maxFileSize := hbound ▸ hw.size
  refine ⟨⟨hw.path.trans hpath, hsize⟩, ⟨hfound, hclean⟩, ha, fun halone hunmarked => ?_, ?_⟩
  · have hnone : g.unsaved = [] := by simpa [hunmarked] using ha.dirty
    have hdisk := ha.disk halone
    rw [hw.path.trans hpath] at hdisk
    rw [hdisk, ha.bytes, Ledger.content, hnone]
    rfl
  · exact follows (Nat.lt_of_le_of_lt hsize hword)

def fourBytes : Disk := { files := [("a", [1, 2, 3, 4])] }

def brokenSaves : List FileEvent := [
  .write 1 [9], .flush, .write 0 [7, 7],
  .fault (some .create), .save, .fault (some (.fill 2)), .flush, .fault (some .sync), .save,
  .fault (some .place), .save, .fault none, .save,
  .write 3 [5], .outside { present := false }, .save,
  .outside { files := [("a", [6, 6])] }, .write 3 [0, 0], .load, .write 1 [8]]

theorem fourBytes_brokenSaves :
    ∃ store, FileStore.ofDisk fourBytes "a" {} = .ok store ∧
      (after { store, disk := fourBytes } (brokenSaves.take 11)).Agrees
        { base := [1, 9, 3, 4], unsaved := [(0, [7, 7])] } ∧
      (after { store, disk := fourBytes } (brokenSaves.take 11)).disk.read? "a" =
        some [1, 9, 3, 4] ∧
      (after { store, disk := fourBytes } (brokenSaves.take 11)).attempt .save =
        (.error .system, after { store, disk := fourBytes } (brokenSaves.take 11)) ∧
      (after { store, disk := fourBytes } (brokenSaves.take 13)).disk.read? "a" =
        some [7, 7, 3, 4] ∧
      (after { store, disk := fourBytes } brokenSaves).store.bytes = [6, 8] ∧
      (after { store, disk := fourBytes } brokenSaves).disk.read? "a" = some [6, 6] ∧
      (after { store, disk := fourBytes } brokenSaves).Agrees
        { base := [6, 6], unsaved := [(1, [8])] } := by
  obtain ⟨store, hopen⟩ : ∃ store, FileStore.ofDisk fourBytes "a" {} = .ok store := ⟨_, rfl⟩
  obtain ⟨_, _, hbroken, _, hfollows⟩ :=
    file_store_follows_ledger fourBytes "a" {} (by decide) store hopen (brokenSaves.take 11)
  obtain ⟨_, _, hagrees, _⟩ :=
    file_store_follows_ledger fourBytes "a" {} (by decide) store hopen brokenSaves
  cases hopen
  refine ⟨_, rfl, hbroken, by decide, ?_, by decide, by decide, by decide, hagrees⟩
  exact ((hfollows .save).refuses_iff _ _).mpr ⟨.save (by decide), rfl⟩

end Mounted

end BinaryAtlas
