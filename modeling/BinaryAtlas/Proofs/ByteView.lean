import BinaryAtlas.Proofs.Reading
import BinaryAtlas.Proofs.Store.Memory

namespace BinaryAtlas

theorem Bytes.getElem?_window (data : Bytes) (start : Nat) {len k : Nat} (hk : k < len) :
    (data.window start len)[k]? = data[start + k]? := by
  rw [window, List.getElem?_take_of_lt hk, List.getElem?_drop]

namespace Store

variable {s s' : Store} {offset len : Nat} {data b : Bytes}

theorem read_eq_ok_iff :
    s.read offset len = .ok b ↔
      offset + len < Word.limit ∧ offset + len ≤ s.size ∧ b = s.bytes.window offset len := by
  constructor
  · intro h
    have hrange : ∀ bytes : Bytes, (storeRange offset len bytes.length).map
        (fun _ => bytes.window offset len) = .ok b →
        offset + len < Word.limit ∧ offset + len ≤ bytes.length ∧ b = bytes.window offset len := by
      intro bytes hread
      obtain ⟨range, hok, rfl⟩ := (map_eq_ok_iff _ _ _).mp hread
      obtain ⟨hword, hin, _⟩ := (storeRange_eq_ok_iff range).mp hok
      exact ⟨hword, hin, rfl⟩
    cases s with
    | memory m => exact hrange m.bytes h
    | file f => exact hrange f.bytes h
  · rintro ⟨hword, hin, rfl⟩
    exact read_eq_ok hword hin

theorem getElem?_of_write (h : s.write offset data = (.ok (), s')) {k : Nat} (hk : k < s.size) :
    s'.bytes[k]? =
      if offset ≤ k ∧ k < offset + data.length then data[k - offset]? else s.bytes[k]? := by
  obtain ⟨hanswer, rfl⟩ := Prod.mk.inj h
  cases s with
  | memory m =>
    have hanswer : (m.write offset data).1 = .ok () := hanswer
    show (m.write offset data).2.bytes[k]? = _
    unfold MemoryStore.write at hanswer ⊢
    split
    · rename_i range hrange
      exact Bytes.getElem?_splice ((storeRange_eq_ok_iff range).mp hrange).2.1 k
    · rename_i hrange
      rw [hrange] at hanswer
      split
      · have hlen := m.bytes.length_extend (offset + data.length)
        have hold : (m.bytes.extend (offset + data.length))[k]? = m.bytes[k]? :=
          (Bytes.getElem?_extend _ _ k).trans (if_pos hk)
        show ((m.bytes.extend (offset + data.length)).splice offset data)[k]? = _
        rw [Bytes.getElem?_splice (by omega), hold]
        rfl
      · simp_all
  | file f =>
    have hanswer : (f.write offset data).1 = .ok () := hanswer
    show (f.write offset data).2.bytes[k]? = _
    unfold FileStore.write at hanswer ⊢
    split
    · rename_i range hrange
      exact Bytes.getElem?_splice ((storeRange_eq_ok_iff range).mp hrange).2.1 k
    · rename_i hrange
      rw [hrange] at hanswer
      cases hanswer

end Store

namespace Image

open Section

variable {l : Layout} {i j : Image} {offset len start : Nat} {b : Bytes}

structure Mapped (i : Image) (offset len : Nat) : Prop where
  together : ∃ s ∈ i.sections, ∀ k < len, s.contains (offset + k) = true
  stored : ∀ k < len, ∃ file, i.toFile (offset + k) = .ok file ∧ file < i.store.size

theorem read_eq_ok_iff (hl : i.layout = some l) (hb : ∀ s ∈ l.sections, s.Built) :
    i.read offset len = .ok b ↔ ∃ start, l.Loads offset len start ∧
      start + len ≤ i.store.size ∧ b = i.store.bytes.window start len := by
  simp only [read, hl]
  cases hstart : rangeStart l offset len with
  | error e =>
    simp only [reduceCtorEq, false_iff, not_exists, not_and]
    intro start hloads
    rw [(rangeStart_eq_ok_iff hb).mpr hloads] at hstart
    cases hstart
  | ok first =>
    have hloads := (rangeStart_eq_ok_iff hb).mp hstart
    have hread : ((i.store.read first len).mapError fun e =>
        Error.during "read" offset (.store e)) = .ok b ↔ i.store.read first len = .ok b := by
      cases i.store.read first len <;> simp [Except.mapError]
    simp only [hread, Store.read_eq_ok_iff]
    constructor
    · rintro ⟨_, hin, rfl⟩
      exact ⟨first, hloads, hin, rfl⟩
    · rintro ⟨start, hother, hin, rfl⟩
      have hsame := (rangeStart_eq_ok_iff hb).mpr hother
      cases hstart.symm.trans hsame
      exact ⟨hother.lt_limit hb, hin, rfl⟩

section

variable (hl : i.layout = some l) (hb : ∀ s ∈ l.sections, s.Built)
  (ha : l.sections.Pairwise Apart)

include hl hb ha

theorem toFile_of_loads (h : l.Loads offset len start) {k : Nat} (hk : k < len) :
    i.toFile (offset + k) = .ok (start + k) := by
  obtain ⟨s, hat, _, hall⟩ := h
  simp only [toFile, hl]
  exact (SectionMap.toFile_eq_ok_iff hb ha _ _).mpr ⟨s, List.mem_of_find?_eq_some hat, hall k hk⟩

theorem exists_loads_iff_mapped (hlen : 0 < len) :
    (∃ start, l.Loads offset len start ∧ start + len ≤ i.store.size) ↔ i.Mapped offset len := by
  have hsections : i.sections = l.sections := by simp [sections, hl]
  constructor
  · rintro ⟨start, hloads, hin⟩
    constructor
    case stored =>
      intro k hk
      exact ⟨start + k, toFile_of_loads hl hb ha hloads hk, by omega⟩
    case together =>
      obtain ⟨s, hat, _, hall⟩ := hloads
      have hs := List.mem_of_find?_eq_some hat
      exact ⟨s, hsections ▸ hs, fun k hk => (hall k hk).contains (hb s hs)⟩
  · rintro ⟨⟨s, hs, hcontains⟩, hstored⟩
    rw [hsections] at hs
    have hat : ∀ k < len, l.sections.at? (offset + k) = some s := fun k hk =>
      (SectionMap.at?_eq_some_iff ha _ s).mpr ⟨hs, hcontains k hk⟩
    have hfile : ∀ k < len, ∃ file, s.Loads file (offset + k) ∧ file < i.store.size := by
      intro k hk
      obtain ⟨file, hf, hin⟩ := hstored k hk
      simp only [toFile, hl] at hf
      obtain ⟨s', hs', hloads⟩ := (SectionMap.toFile_eq_ok_iff hb ha _ _).mp hf
      have hat' := (SectionMap.at?_eq_some_iff ha _ s').mpr ⟨hs', hloads.contains (hb s' hs')⟩
      cases (hat k hk).symm.trans hat'
      exact ⟨file, hloads, hin⟩
    obtain ⟨start, hfirst, _⟩ := hfile 0 hlen
    have hall : ∀ k < len, s.Loads (start + k) (offset + k) ∧ start + k < i.store.size := by
      intro k hk
      obtain ⟨file, hloads, hin⟩ := hfile k hk
      have hsame : file = start + k := hfirst.unique hloads
      subst hsame
      exact ⟨hloads, hin⟩
    have hlast := (hall (len - 1) (by omega)).2
    exact ⟨start, ⟨s, hat 0 hlen, hfirst, fun k hk => (hall k hk).1⟩, by omega⟩

end

theorem writeRaw_eq_ok_iff {file : Nat} {data : Bytes} :
    i.writeRaw file data = (.ok (), j) ↔
      ∃ store, i.store.write file data = (.ok (), store) ∧ j = { i with store } := by
  unfold writeRaw
  rcases i.store.write file data with ⟨e | _, store⟩
  · simp [Except.mapError]
  · simp [Except.mapError, eq_comm]

theorem read_of_writeRaw {file : Nat} {data : Bytes} (hl : i.layout = some l)
    (hb : ∀ s ∈ l.sections, s.Built) (ha : l.sections.Pairwise Apart)
    (hwrite : i.writeRaw file data = (.ok (), j)) (hread : i.read offset len = .ok b) :
    ∃ b', j.read offset len = .ok b' ∧ b'.length = len ∧
      ∀ k < len, ∀ g, i.toFile (offset + k) = .ok g →
        b'[k]? = if file ≤ g ∧ g < file + data.length then data[g - file]? else b[k]? := by
  obtain ⟨store, hstore, rfl⟩ := writeRaw_eq_ok_iff.mp hwrite
  obtain ⟨start, hloads, hin, rfl⟩ := (read_eq_ok_iff hl hb).mp hread
  have hsize : i.store.size ≤ store.size := by
    have hle := i.store.size_le_write file data
    rwa [hstore] at hle
  have hin' : start + len ≤ store.size := Nat.le_trans hin hsize
  refine ⟨store.bytes.window start len, ?_, Bytes.length_window hin', fun k hk g hg => ?_⟩
  · exact (read_eq_ok_iff (i := { i with store }) hl hb).mpr ⟨start, hloads, hin', rfl⟩
  · cases (toFile_of_loads hl hb ha hloads hk).symm.trans hg
    rw [Bytes.getElem?_window _ _ hk, Bytes.getElem?_window _ _ hk]
    exact Store.getElem?_of_write hstore (by omega)

theorem read_bytewise (i : Image) (h : i.LaidOut) :
    (∀ offset len, 0 < len →
      ((∃ b, i.read offset len = .ok b) ↔ i.Mapped offset len) ∧
      ∀ b, i.read offset len = .ok b → b.length = len ∧
        ∀ k < len, ∃ file, i.toFile (offset + k) = .ok file ∧
          file < i.store.size ∧ b[k]? = i.store.bytes[file]?) ∧
    ∀ file data j, i.writeRaw file data = (.ok (), j) →
      ∀ offset len b, 0 < len → i.read offset len = .ok b →
        ∃ b', j.read offset len = .ok b' ∧ b'.length = len ∧
          ∀ k < len, ∀ g, i.toFile (offset + k) = .ok g →
            b'[k]? = if file ≤ g ∧ g < file + data.length then data[g - file]? else b[k]? := by
  obtain ⟨l, hl, hb, ha, _⟩ := h.layout
  refine ⟨fun offset len hlen => ⟨?_, fun b hread => ?_⟩, ?_⟩
  · rw [← exists_loads_iff_mapped hl hb ha hlen]
    simp only [read_eq_ok_iff hl hb]
    constructor
    · rintro ⟨_, start, hloads, hin, _⟩
      exact ⟨start, hloads, hin⟩
    · rintro ⟨start, hloads, hin⟩
      exact ⟨_, start, hloads, hin, rfl⟩
  · obtain ⟨start, hloads, hin, rfl⟩ := (read_eq_ok_iff hl hb).mp hread
    refine ⟨Bytes.length_window hin, fun k hk => ?_⟩
    exact ⟨start + k, toFile_of_loads hl hb ha hloads hk, by omega, Bytes.getElem?_window _ _ hk⟩
  · intro file data j hwrite offset len b _ hread
    exact read_of_writeRaw hl hb ha hwrite hread

theorem sharedLaidOut_patched :
    sharedLaidOut.LaidOut ∧ sharedLaidOut.read 16 3 = .ok [2, 3, 4] ∧
      sharedLaidOut.Mapped 16 3 ∧ ¬ sharedLaidOut.Mapped 16 4 ∧
      ∃ j, sharedLaidOut.writeRaw 2 [9] = (.ok (), j) ∧
        (∃ b, j.read 16 3 = .ok b ∧ b[0]? = some 2 ∧ b[1]? = some 9) ∧
        ∃ b, j.read 8 2 = .ok b ∧ b[1]? = some 9 := by
  obtain ⟨hview, hpatch⟩ := read_bytewise sharedLaidOut sharedLaidOut_laidOut
  have hread : sharedLaidOut.read 16 3 = .ok [2, 3, 4] := rfl
  have hother : sharedLaidOut.read 8 2 = .ok [2, 3] := rfl
  obtain ⟨j, hwrite⟩ : ∃ j, sharedLaidOut.writeRaw 2 [9] = (.ok (), j) := ⟨_, rfl⟩
  refine ⟨sharedLaidOut_laidOut, hread, (hview 16 3 (by decide)).1.mp ⟨_, hread⟩, fun hlong => ?_,
    j, hwrite, ?_, ?_⟩
  · obtain ⟨b, hb⟩ := (hview 16 4 (by decide)).1.mpr hlong
    cases hb
  · obtain ⟨b, hb, _, hbytes⟩ := hpatch 2 [9] j hwrite 16 3 _ (by decide) hread
    exact ⟨b, hb, hbytes 0 (by decide) 1 rfl, hbytes 1 (by decide) 2 rfl⟩
  · obtain ⟨b, hb, _, hbytes⟩ := hpatch 2 [9] j hwrite 8 2 _ (by decide) hother
    exact ⟨b, hb, hbytes 1 (by decide) 2 rfl⟩

end Image

end BinaryAtlas
