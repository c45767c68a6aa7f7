import BinaryAtlas.Proofs.Store

namespace BinaryAtlas

theorem storeRange_eq_error {offset len size : Nat} (h : size < offset + len) :
    storeRange offset len size = .error (.outOfBounds offset len size) := by
  unfold storeRange
  split
  · rename_i stop hstop
    obtain ⟨rfl, _⟩ := Word.add?_eq_some_iff.mp hstop
    rw [if_neg (by omega)]
  · rfl

namespace Bytes

theorem getElem?_extend (data : Bytes) (size i : Nat) :
    (data.extend size)[i]? =
      if i < data.length then data[i]? else if i < size then some 0 else none := by
  rw [extend, List.getElem?_append]
  by_cases hold : i < data.length
  · rw [if_pos hold, if_pos hold]
  · rw [if_neg hold, if_neg hold, List.getElem?_replicate]
    by_cases hnew : i < size
    · rw [if_pos (by omega), if_pos hnew]
    · rw [if_neg (by omega), if_neg hnew]

theorem extend_of_le {data : Bytes} {size : Nat} (h : size ≤ data.length) :
    data.extend size = data := by
  simp [extend, Nat.sub_eq_zero_of_le h]

end Bytes

namespace MemoryStore

variable {s s' : MemoryStore} {offset len : Nat} {data : Bytes}

def Takes (s : MemoryStore) (stop : Nat) : Prop :=
  stop ≤ s.size ∨ s.growable = true ∧ stop ≤ s.maxSize ∧ stop < allocationLimit

theorem growsTo_iff (s : MemoryStore) (stop : Nat) :
    s.growsTo stop = true ↔ s.growable = true ∧ stop ≤ s.maxSize ∧ stop < allocationLimit := by
  simp [growsTo, and_assoc]

theorem write_of_takes (hword : s.size < Word.limit) (h : s.Takes (offset + data.length)) :
    s.write offset data =
      (.ok (), { s with bytes := (s.bytes.extend (offset + data.length)).splice offset data }) := by
  unfold write
  by_cases hin : offset + data.length ≤ s.size
  · have hrange := (storeRange_eq_ok_iff (offset, offset + data.length)).mpr
      ⟨Nat.lt_of_le_of_lt hin hword, hin, rfl⟩
    rw [hrange, Bytes.extend_of_le hin]
  · have hgrows := (s.growsTo_iff _).mpr (h.resolve_left hin)
    rw [storeRange_eq_error (Nat.lt_of_not_le hin)]
    simp only [hgrows, if_true]

theorem write_of_not_takes (h : ¬ s.Takes (offset + data.length)) :
    s.write offset data = (.error (.outOfBounds offset data.length s.size), s) := by
  have hout : s.size < offset + data.length := Nat.lt_of_not_le fun hle => h (.inl hle)
  have hgrows : ¬ s.growsTo (offset + data.length) = true := fun hg =>
    h (.inr ((s.growsTo_iff _).mp hg))
  unfold write
  rw [storeRange_eq_error hout]
  exact if_neg hgrows

theorem write_eq_ok_iff (hword : s.size < Word.limit) :
    s.write offset data = (.ok (), s') ↔ s.Takes (offset + data.length) ∧
      s' = { s with bytes := (s.bytes.extend (offset + data.length)).splice offset data } := by
  by_cases h : s.Takes (offset + data.length)
  · rw [write_of_takes hword h]
    simp [h, eq_comm]
  · rw [write_of_not_takes h]
    simp [h]

theorem write_eq_error_iff (hword : s.size < Word.limit) {e : StoreError} :
    s.write offset data = (.error e, s') ↔ ¬ s.Takes (offset + data.length) ∧
      e = .outOfBounds offset data.length s.size ∧ s' = s := by
  by_cases h : s.Takes (offset + data.length)
  · rw [write_of_takes hword h]
    simp [h]
  · rw [write_of_not_takes h]
    simp [h, eq_comm]

structure Wrote (s s' : MemoryStore) (offset : Nat) (data : Bytes) : Prop where
  growable : s'.growable = s.growable
  maxSize : s'.maxSize = s.maxSize
  size : s'.size = max s.size (offset + data.length)
  inside : ∀ k < data.length, s'.bytes[offset + k]? = data[k]?
  kept : ∀ i < s.size, i < offset ∨ offset + data.length ≤ i → s'.bytes[i]? = s.bytes[i]?
  filled : ∀ i < s'.size, s.size ≤ i → i < offset ∨ offset + data.length ≤ i →
    s'.bytes[i]? = some 0

theorem wrote_of_write (hword : s.size < Word.limit) (h : s.write offset data = (.ok (), s')) :
    s.Wrote s' offset data := by
  obtain ⟨_, rfl⟩ := (write_eq_ok_iff hword).mp h
  have hlen := s.bytes.length_extend (offset + data.length)
  have hfits : offset + data.length ≤ (s.bytes.extend (offset + data.length)).length := by omega
  have hget := Bytes.getElem?_splice hfits
  have hsize : ((s.bytes.extend (offset + data.length)).splice offset data).length =
      max s.size (offset + data.length) := (Bytes.length_splice hfits).trans hlen
  constructor
  case growable => rfl
  case maxSize => rfl
  case size => exact hsize
  case inside =>
    intro k hk
    dsimp only
    rw [hget, if_pos (by omega), Nat.add_sub_cancel_left]
  case kept =>
    intro i hi hout
    dsimp only
    rw [hget, if_neg (by omega), Bytes.getElem?_extend]
    exact if_pos hi
  case filled =>
    intro i hi hold hout
    have hi' : i < max s.size (offset + data.length) := hsize ▸ hi
    dsimp only
    rw [hget, if_neg (by omega), Bytes.getElem?_extend]
    exact (if_neg (Nat.not_lt.mpr hold)).trans (if_pos (by omega))

theorem read_eq_ok_iff (hword : s.size < Word.limit) (b : Bytes) :
    s.read offset len = .ok b ↔ offset + len ≤ s.size ∧ b = s.bytes.window offset len := by
  rw [read, map_eq_ok_iff]
  simp only [storeRange_eq_ok_iff]
  constructor
  · rintro ⟨_, ⟨_, hin, rfl⟩, rfl⟩
    exact ⟨hin, rfl⟩
  · rintro ⟨hin, rfl⟩
    exact ⟨_, ⟨Nat.lt_of_le_of_lt hin hword, hin, rfl⟩, rfl⟩

inductive Access where
  | read (offset len : Nat)
  | write (offset : Nat) (data : Bytes)

def access (s : MemoryStore) : Access → Except StoreError Bytes × MemoryStore
  | .read offset len => (s.read offset len, s)
  | .write offset data =>
    let (answer, s) := s.write offset data
    (answer.map fun _ => [], s)

theorem access_write {answer : Except StoreError Unit} (h : s.write offset data = (answer, s')) :
    s.access (.write offset data) = (answer.map fun _ => [], s') := by
  simp only [access, h]

def after (s : MemoryStore) (l : List Access) : MemoryStore :=
  l.foldl (fun s a => (s.access a).2) s

theorem after_cons (s : MemoryStore) (a : Access) (l : List Access) :
    s.after (a :: l) = (s.access a).2.after l := rfl

def written (s : MemoryStore) : List Access → List (Nat × Bytes)
  | [] => []
  | .read _ _ :: rest => s.written rest
  | .write offset data :: rest =>
    match s.write offset data with
    | (.ok _, s') => s'.written rest ++ [(offset, data)]
    | (.error _, s') => s'.written rest

def covering? (i : Nat) (w : Nat × Bytes) : Option UInt8 :=
  if w.1 ≤ i then w.2[i - w.1]? else none

def byteAt (s : MemoryStore) (i : Nat) : UInt8 := s.bytes[i]?.getD 0

theorem covering?_eq_none_iff (i offset : Nat) (data : Bytes) :
    covering? i (offset, data) = none ↔ i < offset ∨ offset + data.length ≤ i := by
  unfold covering?
  split
  · rw [List.getElem?_eq_none_iff]
    dsimp only at *
    omega
  · dsimp only at *
    simp only [true_iff]
    omega

theorem getElem?_eq_byteAt (s : MemoryStore) (i : Nat) :
    s.bytes[i]? = if i < s.size then some (s.byteAt i) else none := by
  unfold byteAt
  split
  · rename_i hi
    rw [List.getElem?_eq_getElem hi]
    rfl
  · rename_i hi
    exact List.getElem?_eq_none (Nat.le_of_not_lt hi)

theorem Wrote.byteAt (h : s.Wrote s' offset data) (i : Nat) :
    s'.byteAt i = (covering? i (offset, data)).getD (s.byteAt i) := by
  unfold MemoryStore.byteAt
  cases hc : covering? i (offset, data) with
  | some b =>
    have hin : offset ≤ i ∧ i < offset + data.length := by
      have hsome := mt (covering?_eq_none_iff i offset data).mpr (by simp [hc])
      omega
    have hk := h.inside (i - offset) (by omega)
    rw [Nat.add_sub_cancel' hin.1] at hk
    rw [covering?, if_pos hin.1] at hc
    rw [hk, hc]
    rfl
  | none =>
    have hout := (covering?_eq_none_iff i offset data).mp hc
    by_cases hold : i < s.size
    · rw [h.kept i hold hout]
      rfl
    · have hnone : s.bytes[i]? = none := List.getElem?_eq_none (Nat.le_of_not_lt hold)
      rw [hnone]
      by_cases hnew : i < s'.size
      · rw [h.filled i hnew (Nat.le_of_not_lt hold) hout]
        rfl
      · have hend : s'.bytes[i]? = none := List.getElem?_eq_none (Nat.le_of_not_lt hnew)
        rw [hend]
        rfl

structure Within (start : MemoryStore) (s : MemoryStore) : Prop where
  growable : s.growable = start.growable
  maxSize : s.maxSize = start.maxSize
  size_ge : start.size ≤ s.size
  size_le : s.size ≤ max start.size start.maxSize
  word : s.size < Word.limit

theorem Within.refl (hword : s.size < Word.limit) : s.Within s :=
  ⟨rfl, rfl, Nat.le_refl _, Nat.le_max_left _ _, hword⟩

theorem Within.write {start : MemoryStore} (h : start.Within s)
    (hw : s.write offset data = (.ok (), s')) : start.Within s' := by
  have hwrote := wrote_of_write h.word hw
  have hsize := hwrote.size
  have hge := h.size_ge
  have hle := h.size_le
  have hmax := h.maxSize
  have hword := h.word
  have hlimit : allocationLimit < Word.limit := by decide
  obtain ⟨htakes, _⟩ := (write_eq_ok_iff h.word).mp hw
  refine ⟨hwrote.growable.trans h.growable, hwrote.maxSize.trans h.maxSize, by omega, ?_, ?_⟩
  · rcases htakes with hin | ⟨_, hcap, _⟩ <;> omega
  · rcases htakes with hin | ⟨_, _, halloc⟩ <;> omega

theorem Within.access {start : MemoryStore} (h : start.Within s) (a : Access) :
    start.Within (s.access a).2 := by
  cases a with
  | read offset len => exact h
  | write offset data =>
    rcases hw : s.write offset data with ⟨e | _, s'⟩
    · obtain ⟨_, _, rfl⟩ := (write_eq_error_iff h.word).mp hw
      rwa [access_write hw]
    · rw [access_write hw]
      exact h.write hw

theorem Within.after {start : MemoryStore} (h : start.Within s) (l : List Access) :
    start.Within (s.after l) := by
  induction l generalizing s with
  | nil => exact h
  | cons a rest ih => exact ih (h.access a)

theorem byteAt_after (hword : s.size < Word.limit) (l : List Access) (i : Nat) :
    (s.after l).byteAt i = ((s.written l).findSome? (covering? i)).getD (s.byteAt i) := by
  induction l generalizing s with
  | nil => rfl
  | cons a rest ih =>
    cases a with
    | read offset len => exact ih hword
    | write offset data =>
      rcases hw : s.write offset data with ⟨e | _, s'⟩
      · obtain ⟨_, _, rfl⟩ := (write_eq_error_iff hword).mp hw
        rw [after_cons, access_write hw, ih hword]
        simp only [written, hw]
      · have hrest := ih ((Within.refl hword).write hw).word
        rw [after_cons, access_write hw, hrest, (wrote_of_write hword hw).byteAt i]
        simp only [written, hw, List.findSome?_append]
        cases (s'.written rest).findSome? (covering? i) <;>
          cases hc : covering? i (offset, data) <;> simp [hc]

theorem memory_refines_bytes (init : MemoryStore) (hword : init.size < Word.limit)
    (l : List Access) :
    let s := init.after l
    (∀ more, s.size ≤ (init.after (l ++ more)).size) ∧
    s.size ≤ max init.size init.maxSize ∧
    (∀ i, s.bytes[i]? =
      if i < s.size then some (((init.written l).findSome? (covering? i)).getD (init.byteAt i))
      else none) ∧
    (∀ offset data,
      ((∃ s', s.write offset data = (.ok (), s')) ↔ offset + data.length ≤ s.size ∨
        init.growable = true ∧ offset + data.length ≤ init.maxSize ∧
          offset + data.length < allocationLimit) ∧
      (∀ s', s.write offset data = (.ok (), s') →
        s.Wrote s' offset data ∧ s.access (.write offset data) = (.ok [], s')) ∧
      ∀ e s', s.write offset data = (.error e, s') →
        e = .outOfBounds offset data.length s.size ∧ s' = s ∧
          s.access (.write offset data) = (.error e, s)) ∧
    ∀ offset len,
      ((∃ b, s.read offset len = .ok b) ↔ offset + len ≤ s.size) ∧
      ∀ b, s.read offset len = .ok b →
        b.length = len ∧ ∀ k < len, b[k]? = some (s.byteAt (offset + k)) := by
  intro s
  have hs : init.Within s := (Within.refl hword).after l
  refine ⟨fun more => ?_, hs.size_le, fun i => ?_, fun offset data => ⟨?_, ?_, ?_⟩,
    fun offset len => ⟨?_, ?_⟩⟩
  · have happend : init.after (l ++ more) = s.after more := List.foldl_append
    rw [happend]
    exact ((Within.refl hs.word).after more).size_ge
  · rw [getElem?_eq_byteAt, byteAt_after hword]
  · rw [← hs.growable, ← hs.maxSize]
    simp only [write_eq_ok_iff hs.word]
    exact ⟨fun ⟨_, htakes, _⟩ => htakes, fun htakes => ⟨_, htakes, rfl⟩⟩
  · intro s' hw
    exact ⟨wrote_of_write hs.word hw, access_write hw⟩
  · intro e s' hw
    obtain ⟨_, he, rfl⟩ := (write_eq_error_iff hs.word).mp hw
    exact ⟨he, rfl, access_write hw⟩
  · simp only [read_eq_ok_iff hs.word]
    exact ⟨fun ⟨_, hin, _⟩ => hin, fun hin => ⟨_, hin, rfl⟩⟩
  · intro b hb
    obtain ⟨hin, rfl⟩ := (read_eq_ok_iff hs.word b).mp hb
    refine ⟨Bytes.length_window hin, fun k hk => ?_⟩
    rw [Bytes.window, List.getElem?_take_of_lt hk, List.getElem?_drop, getElem?_eq_byteAt,
      if_pos (by omega)]

def threeGrowable : MemoryStore := { bytes := [1, 2, 3], growable := true, maxSize := 8 }

def gapAndOverlap : List Access := [.write 5 [9], .write 7 [4, 4], .write 4 [7, 8], .read 2 3]

theorem threeGrowable_bytes :
    (threeGrowable.after gapAndOverlap).bytes = [1, 2, 3, 0, 7, 8] ∧
      (threeGrowable.after gapAndOverlap).write 7 [4, 4] =
        (.error (.outOfBounds 7 2 6), threeGrowable.after gapAndOverlap) ∧
      (threeGrowable.after gapAndOverlap).size ≤ 8 ∧
      ∃ s', (threeGrowable.after gapAndOverlap).write 0 [6] = (.ok (), s') ∧
        s'.bytes[5]? = some 8 := by
  obtain ⟨_, hsize, hbytes, hwrite, _⟩ :=
    memory_refines_bytes threeGrowable (by decide) gapAndOverlap
  obtain ⟨s', hs'⟩ := (hwrite 0 [6]).1.mpr (.inl (by decide))
  obtain ⟨hwrote, _⟩ := (hwrite 0 [6]).2.1 s' hs'
  have hrefused : (threeGrowable.after gapAndOverlap).write 7 [4, 4] =
      (.error (.outOfBounds 7 2 6), threeGrowable.after gapAndOverlap) := rfl
  refine ⟨by decide, hrefused, hsize, s', hs', ?_⟩
  rw [hwrote.kept 5 (by decide) (.inr (by decide)), hbytes 5]
  decide

end MemoryStore

end BinaryAtlas
