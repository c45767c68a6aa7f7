import BinaryAtlas.PortableExecutable.Analysis
import BinaryAtlas.Proofs.Except
import BinaryAtlas.Proofs.Section

namespace BinaryAtlas.PortableExecutable

namespace Declared

def peOffset (data : Bytes) : Nat := data.field 60 4

def sectionCount (data : Bytes) : Nat := data.field (peOffset data + 6) 2

def optionalSize (data : Bytes) : Nat := data.field (peOffset data + 20) 2

def magic (data : Bytes) : Nat := data.field (peOffset data + 24) 2

def entry (data : Bytes) : Nat := data.field (peOffset data + 40) 4

def imageBase (data : Bytes) : Nat :=
  if magic data = 0x20B then data.field (peOffset data + 48) 8
  else data.field (peOffset data + 52) 4

def sectionAlignment (data : Bytes) : Nat := data.field (peOffset data + 56) 4

def imageSize (data : Bytes) : Nat := data.field (peOffset data + 80) 4

def headerOffset (data : Bytes) (i : Nat) : Nat := peOffset data + 24 + optionalSize data + 40 * i

def header (data : Bytes) (i : Nat) : SectionHeader where
  nameBytes := data.window (headerOffset data i) 8
  virtualSize := data.field (headerOffset data i + 8) 4
  virtualAddress := data.field (headerOffset data i + 12) 4
  rawSize := data.field (headerOffset data i + 16) 4
  rawPointer := data.field (headerOffset data i + 20) 4
  characteristics := data.field (headerOffset data i + 36) 4

def headers (data : Bytes) : Headers where
  dos := { magic := data.field 0 2, peOffset := peOffset data }
  nt := {
    coff := {
      machine := .ofCode (data.field (peOffset data + 4) 2)
      sectionCount := sectionCount data
      timestamp := data.field (peOffset data + 8) 4
      optionalSize := optionalSize data
      characteristics := data.field (peOffset data + 22) 2 }
    optional := {
      magic := magic data
      entry := entry data
      imageBase := imageBase data
      sectionAlignment := sectionAlignment data
      fileAlignment := data.field (peOffset data + 60) 4
      imageSize := imageSize data
      headersSize := data.field (peOffset data + 84) 4 } }

structure HeadersPresent (data : Bytes) : Prop where
  dosLength : 64 ≤ data.length
  dosMagic : data.field 0 2 = 0x5A4D
  coffLength : peOffset data + 24 ≤ data.length
  signature : data.window (peOffset data) 4 = [0x50, 0x45, 0, 0]
  optionalLength : peOffset data + 24 + optionalSize data ≤ data.length
  optionalForm : magic data = 0x10B ∧ 96 ≤ optionalSize data ∨
    magic data = 0x20B ∧ 112 ≤ optionalSize data

theorem peOffset_lt (data : Bytes) : peOffset data < 4294967296 := data.field_lt 60 4

theorem sectionCount_lt (data : Bytes) : sectionCount data < 65536 := data.field_lt _ 2

theorem optionalSize_lt (data : Bytes) : optionalSize data < 65536 := data.field_lt _ 2

theorem sectionAlignment_lt (data : Bytes) : sectionAlignment data < 4294967296 :=
  data.field_lt _ 4

end Declared

open Declared

theorem slice_eq_ok_iff (data : Bytes) (start len : Nat) (raw : Bytes) :
    slice data start len = .ok raw ↔
      start + len < Word.limit ∧ start + len ≤ data.length ∧ raw = data.window start len := by
  unfold slice
  split
  · simp only [reduceCtorEq, false_iff]
    omega
  · split
    · simp only [reduceCtorEq, false_iff]
      omega
    · rw [Except.ok.injEq, eq_comm (a := raw)]
      constructor
      · intro h
        exact ⟨by omega, by omega, h⟩
      · exact fun h => h.2.2

theorem number_eq_ok_iff (data : Bytes) (start width n : Nat) :
    number data start width = .ok n ↔
      start + width < Word.limit ∧ start + width ≤ data.length ∧ n = data.field start width := by
  simp only [number, map_eq_ok_iff, slice_eq_ok_iff]
  constructor
  · rintro ⟨_, ⟨hw, hl, rfl⟩, rfl⟩
    exact ⟨hw, hl, rfl⟩
  · rintro ⟨hw, hl, rfl⟩
    exact ⟨_, ⟨hw, hl, rfl⟩, rfl⟩

theorem requireLength_eq_ok_iff (data : Bytes) (needed : Nat) :
    requireLength data needed = .ok () ↔ needed ≤ data.length := by
  unfold requireLength
  split <;> simp <;> omega

theorem dosHeader_read_eq_ok_iff (data : Bytes) (h : DosHeader) :
    DosHeader.read data = .ok h ↔
      64 ≤ data.length ∧ data.field 0 2 = 0x5A4D ∧ h = (headers data).dos := by
  simp only [DosHeader.read, refuse_eq_ok_iff, bind_eq_ok_iff, pure_eq_ok_iff, number_eq_ok_iff,
    Decidable.not_not]
  constructor
  · rintro ⟨_, hlen, _, ⟨_, _, rfl⟩, hmagic, _, ⟨_, _, rfl⟩, rfl⟩
    exact ⟨(requireLength_eq_ok_iff data 64).mp hlen, hmagic, rfl⟩
  · rintro ⟨hlen, hmagic, rfl⟩
    exact ⟨(), (requireLength_eq_ok_iff data 64).mpr hlen, _, ⟨by decide, by omega, rfl⟩, hmagic,
      _, ⟨by decide, by omega, rfl⟩, rfl⟩

theorem coffHeader_read_eq_ok_iff (data : Bytes) (h : CoffHeader) :
    CoffHeader.read data (peOffset data + 4) = .ok h ↔
      peOffset data + 24 ≤ data.length ∧ h = (headers data).nt.coff := by
  have hpe := peOffset_lt data
  simp only [CoffHeader.read, bind_eq_ok_iff, pure_eq_ok_iff, slice_eq_ok_iff, CoffHeader.size]
  constructor
  · rintro ⟨_, ⟨_, hlen, rfl⟩, rfl⟩
    refine ⟨hlen, ?_⟩
    simp only [headers, sectionCount, optionalSize]
    repeat rw [Bytes.field_window _ _ _ _ _ (by decide)]
  · rintro ⟨hlen, rfl⟩
    refine ⟨_, ⟨?_, hlen, rfl⟩, ?_⟩
    · simp only [Word.limit]
      omega
    · simp only [headers, sectionCount, optionalSize]
      repeat rw [Bytes.field_window _ _ _ _ _ (by decide)]

theorem leastSize?_eq_some_iff (magic least : Nat) :
    OptionalHeader.leastSize? magic = some least ↔
      magic = 0x10B ∧ least = 96 ∨ magic = 0x20B ∧ least = 112 := by
  unfold OptionalHeader.leastSize?
  split
  · rename_i hm
    change magic = 0x10B at hm
    simp only [Option.some.injEq]
    omega
  · rename_i hm
    change ¬ magic = 0x10B at hm
    split
    · rename_i hw
      change magic = 0x20B at hw
      simp only [Option.some.injEq]
      omega
    · rename_i hw
      change ¬ magic = 0x20B at hw
      simp only [reduceCtorEq, false_iff]
      omega

theorem optional_window (data : Bytes) (h : 64 ≤ optionalSize data) :
    let raw := data.window (peOffset data + 24) (optionalSize data)
    (headers data).nt.optional = {
      magic := raw.field 0 2
      entry := raw.field 16 4
      imageBase := if raw.field 0 2 = OptionalHeader.wideMagic then raw.field 24 8
        else raw.field 28 4
      sectionAlignment := raw.field 32 4
      fileAlignment := raw.field 36 4
      imageSize := raw.field 56 4
      headersSize := raw.field 60 4 } := by
  dsimp only
  repeat rw [Bytes.field_window _ _ _ _ _ (by omega)]
  rfl

theorem optionalHeader_read_eq_ok_iff (data : Bytes) (h : OptionalHeader) :
    OptionalHeader.read data (peOffset data + 24) (optionalSize data) = .ok h ↔
      peOffset data + 24 + optionalSize data ≤ data.length ∧
      (magic data = 0x10B ∧ 96 ≤ optionalSize data ∨
        magic data = 0x20B ∧ 112 ≤ optionalSize data) ∧
      h = (headers data).nt.optional := by
  have hpe := peOffset_lt data
  have hsize := optionalSize_lt data
  have hmagic : 2 ≤ optionalSize data →
      (data.window (peOffset data + 24) (optionalSize data)).field 0 2 = magic data := by
    intro htwo
    exact Bytes.field_window _ _ _ _ _ htwo
  simp only [OptionalHeader.read, refuse_eq_ok_iff, bind_eq_ok_iff, slice_eq_ok_iff]
  constructor
  · rintro ⟨htwo, _, ⟨_, hlen, rfl⟩, hread⟩
    split at hread
    · cases hread
    · rename_i least hleast
      rw [hmagic (by omega), leastSize?_eq_some_iff] at hleast
      obtain ⟨hfits, hread⟩ := (refuse_eq_ok_iff ..).mp hread
      refine ⟨hlen, by omega, ?_⟩
      rw [optional_window data (by omega)]
      exact (pure_eq_ok_iff ..).mp hread
  · rintro ⟨hlen, hform, rfl⟩
    obtain ⟨least, hleast, hfits⟩ : ∃ least, OptionalHeader.leastSize? (magic data) = some least ∧
        least ≤ optionalSize data := by
      rcases hform with ⟨hm, hs⟩ | ⟨hm, hs⟩
      · exact ⟨96, (leastSize?_eq_some_iff ..).mpr (.inl ⟨hm, rfl⟩), hs⟩
      · exact ⟨112, (leastSize?_eq_some_iff ..).mpr (.inr ⟨hm, rfl⟩), hs⟩
    have hword : peOffset data + 24 + optionalSize data < Word.limit := by
      simp only [Word.limit]
      omega
    refine ⟨by omega, _, ⟨hword, hlen, rfl⟩, ?_⟩
    rw [hmagic (by omega), hleast]
    refine (refuse_eq_ok_iff ..).mpr ⟨by omega, (pure_eq_ok_iff ..).mpr ?_⟩
    rw [optional_window data (by omega), hmagic (by omega)]

theorem ntHeaders_read_eq_ok_iff (data : Bytes) (h : NtHeaders) :
    NtHeaders.read data (peOffset data) = .ok h ↔
      peOffset data + 24 ≤ data.length ∧ data.window (peOffset data) 4 = [0x50, 0x45, 0, 0] ∧
      peOffset data + 24 + optionalSize data ≤ data.length ∧
      (magic data = 0x10B ∧ 96 ≤ optionalSize data ∨
        magic data = 0x20B ∧ 112 ≤ optionalSize data) ∧
      h = (headers data).nt := by
  have hpe := peOffset_lt data
  simp only [NtHeaders.read, refuse_eq_ok_iff, bind_eq_ok_iff, slice_eq_ok_iff, pure_eq_ok_iff,
    coffHeader_read_eq_ok_iff, Decidable.not_not]
  constructor
  · rintro ⟨_, ⟨_, _, rfl⟩, hsig, _, ⟨hcoff, rfl⟩, optional, hopt, rfl⟩
    obtain ⟨hlen, hform, rfl⟩ := (optionalHeader_read_eq_ok_iff data optional).mp hopt
    exact ⟨hcoff, hsig, hlen, hform, rfl⟩
  · rintro ⟨hcoff, hsig, hlen, hform, rfl⟩
    refine ⟨_, ⟨?_, by omega, rfl⟩, hsig, _, ⟨hcoff, rfl⟩, (headers data).nt.optional, ?_, rfl⟩
    · simp only [Word.limit]
      omega
    · exact (optionalHeader_read_eq_ok_iff data _).mpr ⟨hlen, hform, rfl⟩

theorem headers_read_eq_ok_iff (data : Bytes) (h : Headers) :
    Headers.read data = .ok h ↔ HeadersPresent data ∧ h = headers data := by
  simp only [Headers.read, bind_eq_ok_iff, pure_eq_ok_iff, dosHeader_read_eq_ok_iff]
  constructor
  · rintro ⟨_, ⟨hdos, hmagic, rfl⟩, nt, hnt, rfl⟩
    obtain ⟨hcoff, hsig, hlen, hform, rfl⟩ := (ntHeaders_read_eq_ok_iff data nt).mp hnt
    exact ⟨⟨hdos, hmagic, hcoff, hsig, hlen, hform⟩, rfl⟩
  · rintro ⟨hp, rfl⟩
    refine ⟨_, ⟨hp.dosLength, hp.dosMagic, rfl⟩, (headers data).nt, ?_, rfl⟩
    exact (ntHeaders_read_eq_ok_iff data _).mpr
      ⟨hp.coffLength, hp.signature, hp.optionalLength, hp.optionalForm, rfl⟩

theorem addSat_tableOffset (data : Bytes) {i : Nat} (hi : i < 65536) :
    Word.addSat (headers data).tableOffset (i * SectionHeader.size) = headerOffset data i := by
  have hpe := peOffset_lt data
  have hsize := optionalSize_lt data
  simp only [Headers.tableOffset, NtHeaders.tableOffset, headers, headerOffset, SectionHeader.size,
    Word.addSat, Word.top, Word.limit]
  omega

theorem sectionHeader_readAt_eq_ok_iff (data : Bytes) (i : Nat) (hi : i < 65536)
    (h : SectionHeader) :
    SectionHeader.readAt data (headers data).tableOffset i = .ok h ↔
      headerOffset data i + 40 ≤ data.length ∧ h = header data i := by
  have hpe := peOffset_lt data
  have hsize := optionalSize_lt data
  have hfields : SectionHeader.ofBytes (data.window (headerOffset data i) 40) = header data i := by
    simp only [SectionHeader.ofBytes, header]
    repeat rw [Bytes.field_window _ _ _ _ _ (by decide)]
    simp [Bytes.window, List.take_take]
  simp only [SectionHeader.readAt, map_eq_ok_iff, slice_eq_ok_iff, addSat_tableOffset data hi]
  constructor
  · rintro ⟨_, ⟨_, hlen, rfl⟩, rfl⟩
    exact ⟨hlen, hfields⟩
  · rintro ⟨hlen, rfl⟩
    refine ⟨_, ⟨?_, hlen, rfl⟩, hfields⟩
    simp only [headerOffset, SectionHeader.size, Word.limit]
    omega

end BinaryAtlas.PortableExecutable
