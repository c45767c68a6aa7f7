import BinaryAtlas.Proofs.Overflow
import BinaryAtlas.Proofs.PortableExecutable.Acceptance

/-!
The reading of a portable executable, step by step on words. A sum that is no word, a division by
zero, an index past the end of a slice and a copy that does not fill its buffer have no outcome at
all; where none of them occurs, the outcomes are those of the reading itself, errors included.
-/

namespace BinaryAtlas

namespace Section

def containsRawSteps? (s : Section) (file : Nat) : Option Bool := do
  let (first, stop) ← s.rawRange?
  pure (first ≤ file && file < stop)

theorem Exact.containsRaw {s : Section} (h : s.Exact) (file : Nat) :
    s.containsRawSteps? file = some (s.containsRaw file) := by
  rw [containsRawSteps?, h.rawRange]
  rfl

theorem Built.exists_toOffset? {s : Section} (h : s.Built) {file : Nat}
    (hfile : s.containsRaw file = true) : ∃ offset, s.toOffset? file = some offset :=
  ⟨_, (toOffset?_eq_some_iff h file _).mpr ⟨hfile, rfl⟩⟩

end Section

namespace PortableExecutable

/-- Either stuck, or done with an outcome that may be an error. -/
abbrev Steps (α : Type) := ExceptT Malformed Option α

section

variable {α β : Type}

theorem run_bind {x : Steps α} {y : Except Malformed α} {f : α → Steps β}
    {g : α → Except Malformed β} (hx : x.run = some y)
    (hf : ∀ a, y = .ok a → (f a).run = some (g a)) : (x >>= f).run = some (y >>= g) := by
  rw [ExceptT.run_bind, hx]
  cases hy : y with
  | error e => rfl
  | ok a => exact hf a hy

theorem run_bind_map {x : Steps α} {y : Except Malformed α} {f : α → Steps β} {g : α → β}
    (hx : x.run = some y) (hf : ∀ a, y = .ok a → f a = pure (g a)) :
    (x >>= f).run = some (y.map g) := by
  have hmap : y.map g = y >>= fun a => .ok (g a) := by cases y <;> rfl
  rw [hmap]
  exact run_bind hx fun a ha => congrArg ExceptT.run (hf a ha)

theorem run_refuse (c : Prop) [Decidable c] (e : Malformed) {x : Steps α}
    {y : Except Malformed α} (h : ¬ c → x.run = some y) :
    (if c then (throw e : Steps PUnit) >>= fun _ => x else x).run =
      some (if c then (throw e : Except Malformed PUnit) >>= fun _ => y else y) := by
  by_cases hc : c
  · simp only [if_pos hc]
    rfl
  · simp only [if_neg hc]
    exact h hc

theorem run_mapM {f : α → Steps β} {g : α → Except Malformed β} {l : List α}
    (h : ∀ a ∈ l, (f a).run = some (g a)) : (l.mapM f).run = some (l.mapM g) := by
  induction l with
  | nil => rfl
  | cons a rest ih =>
    simp only [List.mapM_cons]
    refine run_bind (h a List.mem_cons_self) fun b _ => ?_
    exact run_bind (ih fun c hc => h c (List.mem_cons_of_mem a hc)) fun bs _ => rfl

theorem lift_some (a : α) : (liftM (some a) : Steps α) = pure a := rfl

end

def front? (data : Bytes) (stop : Nat) : Option Bytes :=
  if stop ≤ data.length then some (data.take stop) else none

def copy? (size : Nat) (data : Bytes) : Option Bytes :=
  if data.length = size then some data else none

def numberSteps (data : Bytes) (start width : Nat) : Steps Nat := do
  let raw ← slice data start width
  let buffer ← copy? width raw
  pure buffer.ofLittleEndian

def numberAtSteps (data : Bytes) (start skip width : Nat) : Steps Nat := do
  let first ← Word.add? start skip
  numberSteps data first width

def DosHeader.readSteps (data : Bytes) : Steps DosHeader := do
  requireLength data DosHeader.size
  let magic ← numberSteps data 0 2
  if magic ≠ DosHeader.signature then throw (.badSignature (.dosMagic magic))
  pure { magic, peOffset := ← numberSteps data 60 4 }

def CoffHeader.readSteps (data : Bytes) (start : Nat) : Steps CoffHeader := do
  let _ ← slice data start CoffHeader.size
  pure {
    machine := .ofCode (← numberSteps data start 2)
    sectionCount := ← numberAtSteps data start 2 2
    timestamp := ← numberAtSteps data start 4 4
    optionalSize := ← numberAtSteps data start 16 2
    characteristics := ← numberAtSteps data start 18 2 }

def OptionalHeader.readSteps (data : Bytes) (start size : Nat) : Steps OptionalHeader := do
  if size < 2 then throw (.truncated 2 size)
  let _ ← slice data start size
  let magic ← numberSteps data start 2
  match leastSize? magic with
  | none => throw (.badSignature (.optionalMagic magic))
  | some least =>
    if size < least then throw (.truncated least size)
    let imageBase ←
      if magic = wideMagic then numberAtSteps data start 24 8 else numberAtSteps data start 28 4
    pure {
      magic
      entry := ← numberAtSteps data start 16 4
      imageBase
      sectionAlignment := ← numberAtSteps data start 32 4
      fileAlignment := ← numberAtSteps data start 36 4
      imageSize := ← numberAtSteps data start 56 4
      headersSize := ← numberAtSteps data start 60 4 }

def NtHeaders.readSteps (data : Bytes) (start : Nat) : Steps NtHeaders := do
  let found ← slice data start 4
  if found ≠ signature then throw (.badSignature (.peSignature found start))
  let coff ← CoffHeader.readSteps data (← Word.add? start 4)
  let optionalStart ← Word.add? (← Word.add? start 4) CoffHeader.size
  let optional ← OptionalHeader.readSteps data optionalStart coff.optionalSize
  pure { coff, optional }

def Headers.readSteps (data : Bytes) : Steps Headers := do
  let dos ← DosHeader.readSteps data
  pure { dos, nt := ← NtHeaders.readSteps data dos.peOffset }

theorem run_numberSteps (data : Bytes) (start width : Nat) :
    (numberSteps data start width).run = some (number data start width) := by
  refine run_bind_map rfl fun raw hraw => ?_
  obtain ⟨_, hfits, rfl⟩ := (slice_eq_ok_iff ..).mp hraw
  rw [copy?, if_pos (Bytes.length_window hfits), lift_some, pure_bind]

theorem numberSteps_eq_pure {data : Bytes} {start width : Nat} (hword : start + width < Word.limit)
    (hfits : start + width ≤ data.length) :
    numberSteps data start width = pure (data.field start width) := by
  apply ExceptT.ext
  rw [run_numberSteps, (number_eq_ok_iff ..).mpr ⟨hword, hfits, rfl⟩]
  rfl

section

variable {data raw : Bytes} {start len : Nat} (h : slice data start len = .ok raw)

include h

theorem numberSteps_of_slice {width : Nat} (hwidth : width ≤ len) :
    numberSteps data start width = pure (raw.field 0 width) := by
  obtain ⟨hword, hfits, rfl⟩ := (slice_eq_ok_iff ..).mp h
  rw [Bytes.field_window _ _ _ _ _ (by omega)]
  exact numberSteps_eq_pure (by omega) (by omega)

theorem numberAtSteps_of_slice {skip width : Nat} (hskip : skip + width ≤ len) :
    numberAtSteps data start skip width = pure (raw.field skip width) := by
  obtain ⟨hword, hfits, rfl⟩ := (slice_eq_ok_iff ..).mp h
  have hadd : Word.add? start skip = some (start + skip) := if_pos (by omega)
  rw [Bytes.field_window _ _ _ _ _ hskip, numberAtSteps, hadd, lift_some, pure_bind]
  exact numberSteps_eq_pure (by omega) (by omega)

end

example : (numberAtSteps [] Word.top 2 2).run = none := rfl

theorem run_dosHeader_readSteps (data : Bytes) :
    (DosHeader.readSteps data).run = some (DosHeader.read data) := by
  refine run_bind rfl fun _ _ => ?_
  refine run_bind (run_numberSteps data 0 2) fun magic _ => ?_
  refine run_refuse _ _ fun _ => ?_
  exact run_bind (run_numberSteps data 60 4) fun _ _ => rfl

theorem run_coffHeader_readSteps (data : Bytes) (start : Nat) :
    (CoffHeader.readSteps data start).run = some (CoffHeader.read data start) := by
  refine run_bind rfl fun raw hraw => ?_
  simp (disch := decide) only [numberSteps_of_slice hraw, numberAtSteps_of_slice hraw, pure_bind]
  rfl

theorem run_optionalHeader_readSteps (data : Bytes) (start size : Nat) :
    (OptionalHeader.readSteps data start size).run =
      some (OptionalHeader.read data start size) := by
  refine run_refuse _ _ fun hsize => ?_
  refine run_bind rfl fun raw hraw => ?_
  rw [numberSteps_of_slice hraw (by omega), pure_bind]
  dsimp only
  cases hleast : OptionalHeader.leastSize? (raw.field 0 2) with
  | none => rfl
  | some least =>
    refine run_refuse _ _ fun hfits => ?_
    have hform := (leastSize?_eq_some_iff ..).mp hleast
    simp (disch := omega) only [numberAtSteps_of_slice hraw, pure_bind]
    split <;> rfl

theorem run_ntHeaders_readSteps (data : Bytes) (start : Nat) :
    (NtHeaders.readSteps data start).run = some (NtHeaders.read data start) := by
  refine run_bind rfl fun found hfound => ?_
  obtain ⟨hword, _, _⟩ := (slice_eq_ok_iff ..).mp hfound
  refine run_refuse _ _ fun _ => ?_
  have hadd : Word.add? start 4 = some (start + 4) := if_pos hword
  simp only [hadd, lift_some, pure_bind]
  refine run_bind (run_coffHeader_readSteps data (start + 4)) fun coff hcoff => ?_
  obtain ⟨_, hraw, _⟩ := (bind_eq_ok_iff ..).mp hcoff
  obtain ⟨hword, _, _⟩ := (slice_eq_ok_iff ..).mp hraw
  have hadd : Word.add? (start + 4) CoffHeader.size = some (start + 24) := if_pos hword
  simp only [hadd, lift_some, pure_bind]
  exact run_bind (run_optionalHeader_readSteps data (start + 24) _) fun _ _ => rfl

theorem run_headers_readSteps (data : Bytes) :
    (Headers.readSteps data).run = some (Headers.read data) := by
  refine run_bind (run_dosHeader_readSteps data) fun dos _ => ?_
  exact run_bind (run_ntHeaders_readSteps data dos.peOffset) fun _ _ => rfl

def mul? (a b : Nat) : Option Nat := if a * b < Word.limit then some (a * b) else none

namespace SectionHeader

def readAtSteps (data : Bytes) (table i : Nat) : Steps SectionHeader := do
  let skip ← mul? i size
  let raw ← slice data (Word.addSat table skip) size
  let nameBytes ← copy? 8 (← front? raw 8)
  pure {
    nameBytes
    virtualSize := ← numberSteps raw 8 4
    virtualAddress := ← numberSteps raw 12 4
    rawSize := ← numberSteps raw 16 4
    rawPointer := ← numberSteps raw 20 4
    characteristics := ← numberSteps raw 36 4 }

def readAllSteps (data : Bytes) (table count : Nat) : Steps (List SectionHeader) :=
  (List.range count).mapM (readAtSteps data table)

def nameSteps? (h : SectionHeader) : Option String :=
  (front? h.nameBytes ((h.nameBytes.findIdx? (· == 0)).getD 8)).map Text.Utf8.decode

def presentRawSteps (h : SectionHeader) (name : String) (fileSize : Nat)
    (config : AnalysisConfig) : Steps Nat := do
  if h.declaredRaw = 0 then pure 0
  else
    let stop ← Word.add? h.rawPointer h.declaredRaw
    if stop ≤ fileSize then pure h.declaredRaw
    else if config.clampRawData then pure (fileSize - h.rawPointer)
    else throw (.inconsistent (.rawPastEnd name h.rawPointer h.declaredRaw fileSize))

def toSectionSteps (h : SectionHeader) (base fileSize : Nat) (config : AnalysisConfig) :
    Steps Section := do
  let name ← h.nameSteps?
  let present ← h.presentRawSteps name fileSize config
  match Section.build? name h.type (Perms.of h.readable h.writable h.executable) base
      h.virtualAddress h.virtualSize h.rawPointer present with
  | some s => pure s
  | none => throw (.inconsistent (.sectionOverflow name))

structure Fits (h : SectionHeader) : Prop where
  nameBytes : h.nameBytes.length = 8
  rawSize : h.rawSize < 4294967296
  rawPointer : h.rawPointer < 4294967296

theorem ofBytes_fits {raw : Bytes} (h : raw.length = size) : (ofBytes raw).Fits where
  nameBytes := by
    rw [ofBytes, List.length_take, h]
    rfl
  rawSize := raw.field_lt 16 4
  rawPointer := raw.field_lt 20 4

theorem run_readAtSteps (data : Bytes) (table : Nat) {i : Nat} (hi : i < 65536) :
    (readAtSteps data table i).run = some (readAt data table i) := by
  have hmul : mul? i size = some (i * size) := by
    apply if_pos
    simp only [size, Word.limit]
    omega
  rw [readAtSteps, hmul, lift_some, pure_bind]
  refine run_bind_map rfl fun raw hraw => ?_
  obtain ⟨_, hfits, rfl⟩ := (slice_eq_ok_iff ..).mp hraw
  have hlen := Bytes.length_window hfits
  generalize data.window _ _ = raw at hlen
  have hfront : front? raw 8 = some (raw.take 8) := if_pos (by rw [hlen]; decide)
  have hcopy : copy? 8 (raw.take 8) = some (raw.take 8) :=
    if_pos (by rw [List.length_take, hlen]; rfl)
  have hnumber : ∀ skip, skip + 4 ≤ 40 → numberSteps raw skip 4 = pure (raw.field skip 4) := by
    intro skip hskip
    apply numberSteps_eq_pure
    · simp only [Word.limit]
      omega
    · rw [hlen]
      exact hskip
  simp (disch := decide) only [hfront, hcopy, hnumber, lift_some, pure_bind]
  rfl

theorem run_readAllSteps (data : Bytes) (table : Nat) {count : Nat} (hcount : count < 65536) :
    (readAllSteps data table count).run = some (readAll data table count) :=
  run_mapM fun _ hi => run_readAtSteps data table (Nat.lt_trans (List.mem_range.mp hi) hcount)

theorem nameSteps?_eq_some {h : SectionHeader} (hfits : h.Fits) : h.nameSteps? = some h.name := by
  have hidx : (h.nameBytes.findIdx? (· == 0)).getD 8 = h.nameBytes.findIdx (· == 0) := by
    rw [List.findIdx_eq_getD_findIdx?, hfits.nameBytes]
  have htake : h.nameBytes.takeWhile (· != 0) =
      h.nameBytes.take (h.nameBytes.findIdx (· == 0)) := by
    rw [List.takeWhile_eq_take_findIdx_not]
    congr 2
    funext b
    exact Bool.not_not (b == 0)
  rw [nameSteps?, hidx, front?, if_pos List.findIdx_le_length, name, htake]
  rfl

theorem declaredRaw_le (h : SectionHeader) : h.declaredRaw ≤ h.rawSize := by
  unfold declaredRaw
  split
  · exact Nat.zero_le _
  · exact Nat.le_refl _

theorem run_presentRawSteps {h : SectionHeader} (hfits : h.Fits) (name : String) (fileSize : Nat)
    (config : AnalysisConfig) :
    (h.presentRawSteps name fileSize config).run =
      some (if h.pastEnd fileSize && !config.clampRawData then
          .error (.inconsistent (.rawPastEnd name h.rawPointer h.declaredRaw fileSize))
        else .ok (h.presentRaw fileSize)) := by
  have hadd : Word.add? h.rawPointer h.declaredRaw = some (h.rawPointer + h.declaredRaw) := by
    have hle := h.declaredRaw_le
    have hsize := hfits.rawSize
    have hpointer := hfits.rawPointer
    apply if_pos
    simp only [Word.limit]
    omega
  unfold presentRawSteps presentRaw
  by_cases hzero : h.declaredRaw = 0
  · have hpast : h.pastEnd fileSize = false := by simp [pastEnd, hzero]
    simp only [hpast, hzero]
    rfl
  · have hpos : 0 < h.declaredRaw := Nat.pos_of_ne_zero hzero
    rw [if_neg hzero, hadd, lift_some, pure_bind]
    by_cases hstop : h.rawPointer + h.declaredRaw ≤ fileSize
    · have hpast : h.pastEnd fileSize = false := by simp [pastEnd, hstop]
      simp only [hpast, if_pos hstop]
      rfl
    · have hpast : h.pastEnd fileSize = true := by simpa [pastEnd, hpos] using hstop
      simp only [hpast, if_neg hstop]
      cases config.clampRawData <;> rfl

theorem run_toSectionSteps {h : SectionHeader} (hfits : h.Fits) (base fileSize : Nat)
    (config : AnalysisConfig) :
    (h.toSectionSteps base fileSize config).run = some (h.toSection base fileSize config) := by
  have hbind : h.toSection base fileSize config =
      (if h.pastEnd fileSize && !config.clampRawData then
          .error (.inconsistent (.rawPastEnd h.name h.rawPointer h.declaredRaw fileSize))
        else .ok (h.presentRaw fileSize)) >>= fun present =>
      match Section.build? h.name h.type (Perms.of h.readable h.writable h.executable) base
          h.virtualAddress h.virtualSize h.rawPointer present with
      | some s => .ok s
      | none => .error (.inconsistent (.sectionOverflow h.name)) := by
    unfold toSection
    split <;> rfl
  rw [toSectionSteps, nameSteps?_eq_some hfits, lift_some, pure_bind, hbind]
  refine run_bind (run_presentRawSteps hfits h.name fileSize config) fun present _ => ?_
  split <;> rfl

theorem readAt_eq_ok_iff (data : Bytes) (table i : Nat) (h : SectionHeader) :
    readAt data table i = .ok h ↔
      (Word.addSat table (i * size) + size < Word.limit ∧
        Word.addSat table (i * size) + size ≤ data.length) ∧
      h = ofBytes (data.window (Word.addSat table (i * size)) size) := by
  simp only [readAt, map_eq_ok_iff, slice_eq_ok_iff]
  constructor
  · rintro ⟨_, ⟨hword, hlen, rfl⟩, rfl⟩
    exact ⟨⟨hword, hlen⟩, rfl⟩
  · rintro ⟨⟨hword, hlen⟩, rfl⟩
    exact ⟨_, ⟨hword, hlen, rfl⟩, rfl⟩

theorem fits_of_mem_readAll {data : Bytes} {table count : Nat} {hs : List SectionHeader}
    (hread : readAll data table count = .ok hs) {h : SectionHeader} (hmem : h ∈ hs) : h.Fits := by
  obtain ⟨hall, rfl⟩ := (mapM_eq_ok_iff _ _ _ _ hs
    fun i _ h => readAt_eq_ok_iff data table i h).mp hread
  obtain ⟨i, hi, rfl⟩ := List.mem_map.mp hmem
  exact ofBytes_fits (Bytes.length_window (hall i hi).2)

end SectionHeader

def Headers.tableOffsetSteps (h : Headers) : Option Nat := do
  let skip ← Word.add? 4 CoffHeader.size
  pure (Word.addSat (Word.addSat h.dos.peOffset skip) h.nt.coff.optionalSize)

def sectionsSteps (config : AnalysisConfig) (data : Bytes) (h : Headers) :
    Steps (List Section) := do
  let count := h.nt.coff.sectionCount
  if config.maxSections < count then throw (.inconsistent (.tooMany count config.maxSections))
  let headers ← SectionHeader.readAllSteps data (← h.tableOffsetSteps) count
  headers.mapM fun header => header.toSectionSteps h.nt.optional.imageBase data.length config

def divUp? (a b : Nat) : Option Nat :=
  if b = 0 then none
  else if 0 < a % b then Word.add? (a / b) 1
  else some (a / b)

def alignUpSteps? (value alignment : Nat) : Option Nat :=
  if alignment = 0 then some value
  else (divUp? value alignment).map (Word.mulSat · alignment)

def windows {α : Type} (n : Nat) (l : List α) : List (List α) :=
  (l.tails.filter (n ≤ ·.length)).map (·.take n)

def overlapSteps? : List (List Section) → Option (Option (Section × Section))
  | [] => some none
  | pair :: rest => do
    let s ← pair[0]?
    let t ← pair[1]?
    if s.overlaps t then some (some (s, t)) else overlapSteps? rest

def validateSteps (a : Analysis) : Steps Unit := do
  match ← overlapSteps? (windows 2 a.ordered) with
  | some (s, t) => throw (.inconsistent (.overlap s.name t.name))
  | none =>
    match a.sections.find? (fun s => a.stop < s.stop) with
    | some s => throw (.inconsistent (.pastImage s.name s.stop a.stop))
    | none => if a.entry < a.stop then pure () else throw (.entryOutside a.entry a.stop)

def analyseSteps (config : AnalysisConfig) (data : Bytes) : Steps Analysis := do
  let h ← Headers.readSteps data
  let optional := h.nt.optional
  let sections ← sectionsSteps config data h
  let aligned ← alignUpSteps? (sectionsStop sections) optional.sectionAlignment
  let size := max optional.imageSize aligned
  if (Word.add? optional.imageBase size).isNone then
    throw (.inconsistent (.imageOverflow size optional.imageBase))
  let result : Analysis := {
    base := optional.imageBase
    entry := Word.addSat optional.imageBase optional.entry
    size
    sections }
  validateSteps result
  pure result

theorem divUp?_eq_some {a b : Nat} (ha : a < Word.limit) (hb : b ≠ 0) :
    divUp? a b = some ((a + (b - 1)) / b) := by
  have hpos := Nat.pos_of_ne_zero hb
  have hdiv := Nat.div_add_mod' a b
  have hmod := Nat.mod_lt a hpos
  rw [divUp?, if_neg hb]
  split
  · rename_i hrest
    have hup : (a + (b - 1)) / b = a / b + 1 := by
      rw [Nat.div_eq_iff hpos, Nat.succ_mul]
      omega
    have hle : a / b ≤ a / b * b := Nat.le_mul_of_pos_right _ hpos
    rw [hup]
    exact if_pos (by omega)
  · rename_i hrest
    have hdown : (a + (b - 1)) / b = a / b := by
      rw [Nat.div_eq_iff hpos]
      omega
    rw [hdown]

theorem alignUpSteps?_eq_some {value : Nat} (h : value < Word.limit) (alignment : Nat) :
    alignUpSteps? value alignment = some (Word.alignUp value alignment) := by
  unfold alignUpSteps? Word.alignUp
  split
  · rfl
  · rename_i hzero
    rw [divUp?_eq_some h hzero]
    rfl

theorem windows_cons_cons {α : Type} (a b : α) (l : List α) :
    windows 2 (a :: b :: l) = [a, b] :: windows 2 (b :: l) := by
  simp [windows]

theorem overlapSteps?_windows (l : List Section) :
    overlapSteps? (windows 2 l) = some (Analysis.firstOverlap? l) := by
  fun_induction Analysis.firstOverlap? l with
  | case1 s t rest hoverlap => simp [windows_cons_cons, overlapSteps?, hoverlap]
  | case2 s t rest hoverlap ih => simp [windows_cons_cons, overlapSteps?, hoverlap, ih]
  | case3 l hshort =>
    match l with
    | [] => rfl
    | [s] => rfl
    | s :: t :: rest => exact absurd rfl (hshort s t rest)

theorem run_validateSteps (a : Analysis) : (validateSteps a).run = some a.validate := by
  rw [validateSteps, overlapSteps?_windows, lift_some, pure_bind, Analysis.validate]
  cases Analysis.firstOverlap? a.ordered with
  | some pair => rfl
  | none =>
    cases a.sections.find? (fun s => a.stop < s.stop) with
    | some s => rfl
    | none =>
      dsimp only
      split <;> rfl

theorem sectionsStop_lt_limit (sections : List Section) : sectionsStop sections < Word.limit := by
  have hle : sectionsStop sections ≤ Word.top := by
    rw [sectionsStop, foldl_max_le_iff]
    refine ⟨Nat.zero_le _, ?_⟩
    rw [List.forall_mem_map]
    exact fun s _ => Word.addSat_le_top _ _
  exact Nat.lt_of_le_pred (by decide) hle

theorem run_sectionsSteps (config : AnalysisConfig) (data : Bytes) {h : Headers}
    (hcount : h.nt.coff.sectionCount < 65536) :
    (sectionsSteps config data h).run = some (sections config data h) := by
  refine run_refuse _ _ fun _ => ?_
  refine run_bind (SectionHeader.run_readAllSteps data _ hcount) fun headers hheaders => ?_
  refine run_mapM fun header hmem => ?_
  exact SectionHeader.run_toSectionSteps (SectionHeader.fits_of_mem_readAll hheaders hmem) _ _ _

theorem run_analyseSteps (config : AnalysisConfig) (data : Bytes) :
    (analyseSteps config data).run = some (analyse config data) := by
  refine run_bind (run_headers_readSteps data) fun h hread => ?_
  obtain ⟨_, rfl⟩ := (headers_read_eq_ok_iff data h).mp hread
  refine run_bind (run_sectionsSteps config data (Declared.sectionCount_lt data)) fun l _ => ?_
  rw [alignUpSteps?_eq_some (sectionsStop_lt_limit l), lift_some, pure_bind]
  refine run_refuse _ _ fun _ => ?_
  exact run_bind (run_validateSteps _) fun _ _ => rfl

theorem reading_stays_in_words (config : AnalysisConfig) (data : Bytes) :
    (DosHeader.readSteps data).run = some (DosHeader.read data) ∧
    (∀ start, (CoffHeader.readSteps data start).run = some (CoffHeader.read data start)) ∧
    (∀ start size, (OptionalHeader.readSteps data start size).run =
      some (OptionalHeader.read data start size)) ∧
    (∀ start, (NtHeaders.readSteps data start).run = some (NtHeaders.read data start)) ∧
    (∀ table count, count < 65536 → (SectionHeader.readAllSteps data table count).run =
      some (SectionHeader.readAll data table count)) ∧
    (∀ (header : SectionHeader) (base fileSize : Nat), header.Fits →
      (header.toSectionSteps base fileSize config).run =
        some (header.toSection base fileSize config)) ∧
    (analyseSteps config data).run = some (analyse config data) ∧
    (∀ s : Section, s.Built → s.Exact ∧ ∀ file,
      s.containsRawSteps? file = some (s.containsRaw file) ∧
      (s.containsRaw file = true → ∃ offset, s.toOffset? file = some offset)) := by
  refine ⟨run_dosHeader_readSteps data, run_coffHeader_readSteps data,
    run_optionalHeader_readSteps data, run_ntHeaders_readSteps data, ?_, ?_,
    run_analyseSteps config data, ?_⟩
  · exact fun table count hcount => SectionHeader.run_readAllSteps data table hcount
  · intro header base fileSize hfits
    exact SectionHeader.run_toSectionSteps hfits base fileSize config
  · intro s hbuilt
    refine ⟨hbuilt.exact, fun file => ⟨hbuilt.exact.containsRaw file, fun hfile => ?_⟩⟩
    exact hbuilt.exists_toOffset? hfile

def fullHeader : SectionHeader where
  nameBytes := List.replicate 8 0x41
  virtualSize := 4294967295
  virtualAddress := 4294967295
  rawSize := 4294967295
  rawPointer := 4294967295
  characteristics := 4294967295

def topSection : Section where
  name := "top"
  type := .data
  perms := .of true false false
  relative := 8
  virtualSize := 16
  rawPointer := Word.top - 16
  rawSize := 16
  start := Word.top - 16
  stop := Word.top

theorem extremes_stay_in_words :
    (65535 < 65536 ∧ (SectionHeader.readAllSteps [] Word.top 65535).run =
      some (SectionHeader.readAll [] Word.top 65535)) ∧
    (fullHeader.Fits ∧ (fullHeader.toSectionSteps Word.top 1 { clampRawData := true }).run =
      some (fullHeader.toSection Word.top 1 { clampRawData := true })) ∧
    topSection.Built ∧ topSection.Exact ∧
    topSection.containsRawSteps? (Word.top - 1) = some (topSection.containsRaw (Word.top - 1)) ∧
    topSection.containsRaw (Word.top - 1) = true ∧
    ∃ offset, topSection.toOffset? (Word.top - 1) = some offset := by
  have hfits : fullHeader.Fits := ⟨rfl, by decide, by decide⟩
  have hbuilt : topSection.Built :=
    ⟨"top", .data, .of true false false, Word.top - 24, 8, 16, Word.top - 16, 16, by decide⟩
  have hlast : topSection.containsRaw (Word.top - 1) = true := by decide
  obtain ⟨_, _, _, _, hheaders, hsection, _, hranges⟩ :=
    reading_stays_in_words { clampRawData := true } []
  obtain ⟨hexact, hraw⟩ := hranges topSection hbuilt
  refine ⟨⟨by decide, hheaders Word.top 65535 (by decide)⟩,
    ⟨hfits, hsection fullHeader Word.top 1 hfits⟩, hbuilt, hexact, ?_⟩
  obtain ⟨hcontains, hoffset⟩ := hraw (Word.top - 1)
  exact ⟨hcontains, hlast, hoffset hlast⟩

end PortableExecutable

end BinaryAtlas
