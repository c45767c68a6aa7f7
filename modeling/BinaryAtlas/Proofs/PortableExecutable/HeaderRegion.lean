import BinaryAtlas.Proofs.PortableExecutable.Aliasing

/-!
The part of a file that decides its layout. Analysis looks at no byte outside the headers, so two
files of one length with the same headers have the same outcome, errors included. A file that grows
behind its headers keeps the layout it has, as long as raw data past the end is refused.
-/

set_option maxRecDepth 2000

namespace BinaryAtlas.PortableExecutable

open Declared

/-- The outcome of a computation stays the same, unless it is an error and `free` holds. -/
structure Steady {ε α : Type} (free : Prop) (x x' : Except ε α) : Prop where
  fixed : ¬ free → x' = x
  ok : ∀ a, x = .ok a → x' = .ok a

section

variable {ε α β : Type} {free : Prop} {x x' : Except ε α}

theorem Steady.refl (free : Prop) (x : Except ε α) : Steady free x x := ⟨fun _ => rfl, fun _ => id⟩

theorem Steady.bind {f f' : α → Except ε β} (h : Steady free x x')
    (hf : ∀ a, x = .ok a → Steady free (f a) (f' a)) : Steady free (x >>= f) (x' >>= f') where
  fixed hfixed := by
    rw [h.fixed hfixed]
    cases hx : x with
    | error e => rfl
    | ok a => exact (hf a hx).fixed hfixed
  ok b hb := by
    obtain ⟨a, ha, hb⟩ := (bind_eq_ok_iff ..).mp hb
    exact (bind_eq_ok_iff ..).mpr ⟨a, h.ok a ha, (hf a ha).ok b hb⟩

theorem Steady.map (h : Steady free x x') (f : α → β) : Steady free (x.map f) (x'.map f) where
  fixed hfixed := by rw [h.fixed hfixed]
  ok b hb := by
    obtain ⟨a, ha, hb⟩ := (map_eq_ok_iff ..).mp hb
    exact (map_eq_ok_iff ..).mpr ⟨a, h.ok a ha, hb⟩

theorem Steady.refuse {y y' : Except ε β} (c : Prop) [Decidable c] (e : ε)
    (h : Steady free y y') :
    Steady free (if c then (throw e : Except ε PUnit) >>= fun _ => y else y)
      (if c then (throw e : Except ε PUnit) >>= fun _ => y' else y') := by
  by_cases hc : c
  · simp only [if_pos hc]
    exact .refl free _
  · simpa only [if_neg hc] using h

theorem Steady.mapM {f f' : α → Except ε β} {l : List α}
    (h : ∀ a ∈ l, Steady free (f a) (f' a)) : Steady free (l.mapM f) (l.mapM f') := by
  induction l with
  | nil => exact .refl free _
  | cons a rest ih =>
    simp only [List.mapM_cons]
    refine (h a List.mem_cons_self).bind fun b _ => ?_
    refine (ih fun c hc => h c (List.mem_cons_of_mem a hc)).bind fun bs _ => ?_
    exact .refl free _

end

namespace Declared

def tableStop (data : Bytes) : Nat :=
  peOffset data + 24 + optionalSize data + 40 * sectionCount data

/-- The bytes of the first header, and those from the signature to the end of the section headers,
as far as the file has them. A file that ends before the sizes it declares has all its bytes from
the signature on in the region, whatever is read for these sizes. -/
def headerRegion (data : Bytes) : Set Nat :=
  {i | i < data.length ∧ (i < 64 ∨ peOffset data ≤ i ∧ i < tableStop data)}

end Declared

structure SameHeaders (data data' : Bytes) : Prop where
  length_le : data.length ≤ data'.length
  agree : ∀ i ∈ headerRegion data, data'[i]? = data[i]?

def Declared.InHeaders (data : Bytes) (start len : Nat) : Prop :=
  start + len ≤ 64 ∨ peOffset data ≤ start ∧ start + len ≤ tableStop data

section

variable {data data' : Bytes} (h : SameHeaders data data')

include h

theorem SameHeaders.window_eq {start len : Nat} (hin : InHeaders data start len)
    (hlen : start + len ≤ data.length ∨ data.length = data'.length) :
    data'.window start len = data.window start len := by
  apply List.ext_getElem?
  intro k
  simp only [Bytes.window, List.getElem?_take, List.getElem?_drop]
  split
  · rename_i hk
    by_cases hinside : start + k < data.length
    · apply h.agree
      refine ⟨hinside, ?_⟩
      rcases hin with hdos | ⟨hlow, hhigh⟩
      · exact .inl (by omega)
      · exact .inr ⟨by omega, by omega⟩
    · rw [List.getElem?_eq_none (by omega), List.getElem?_eq_none (by omega)]
  · rfl

theorem SameHeaders.slice {start len : Nat} (hin : InHeaders data start len) :
    Steady (data.length < data'.length) (slice data start len) (slice data' start len) where
  fixed hfixed := by
    have hlen : data.length = data'.length := Nat.le_antisymm h.length_le (Nat.not_lt.mp hfixed)
    rw [PortableExecutable.slice, PortableExecutable.slice, h.window_eq hin (.inr hlen), hlen]
  ok raw hraw := by
    obtain ⟨hword, hfits, rfl⟩ := (slice_eq_ok_iff ..).mp hraw
    refine (slice_eq_ok_iff ..).mpr ⟨hword, Nat.le_trans hfits h.length_le, ?_⟩
    exact (h.window_eq hin (.inl hfits)).symm

theorem SameHeaders.number {start width : Nat} (hin : InHeaders data start width) :
    Steady (data.length < data'.length) (number data start width) (number data' start width) :=
  (h.slice hin).map _

theorem SameHeaders.requireLength (needed : Nat) :
    Steady (data.length < data'.length) (requireLength data needed)
      (requireLength data' needed) where
  fixed hfixed := by
    have hlen : data.length = data'.length := Nat.le_antisymm h.length_le (Nat.not_lt.mp hfixed)
    rw [PortableExecutable.requireLength, PortableExecutable.requireLength, hlen]
  ok _ hok := by
    rw [requireLength_eq_ok_iff] at hok ⊢
    exact Nat.le_trans hok h.length_le

theorem SameHeaders.dosHeader_read :
    Steady (data.length < data'.length) (DosHeader.read data) (DosHeader.read data') := by
  refine (h.requireLength _).bind fun _ _ => ?_
  refine (h.number (.inl (by decide))).bind fun magic _ => ?_
  refine .refuse _ _ ?_
  exact (h.number (.inl (by decide))).bind fun _ _ => .refl _ _

theorem SameHeaders.coffHeader_read :
    Steady (data.length < data'.length) (CoffHeader.read data (peOffset data + 4))
      (CoffHeader.read data' (peOffset data + 4)) := by
  have hin : InHeaders data (peOffset data + 4) CoffHeader.size := by
    simp only [InHeaders, tableStop, CoffHeader.size]
    omega
  exact (h.slice hin).bind fun _ _ => .refl _ _

theorem SameHeaders.optionalHeader_read :
    Steady (data.length < data'.length)
      (OptionalHeader.read data (peOffset data + 24) (optionalSize data))
      (OptionalHeader.read data' (peOffset data + 24) (optionalSize data)) := by
  have hin : InHeaders data (peOffset data + 24) (optionalSize data) := by
    simp only [InHeaders, tableStop]
    omega
  exact .refuse _ _ ((h.slice hin).bind fun _ _ => .refl _ _)

theorem SameHeaders.ntHeaders_read :
    Steady (data.length < data'.length) (NtHeaders.read data (peOffset data))
      (NtHeaders.read data' (peOffset data)) := by
  have hin : InHeaders data (peOffset data) 4 := by
    simp only [InHeaders, tableStop]
    omega
  refine (h.slice hin).bind fun found _ => .refuse _ _ ?_
  refine h.coffHeader_read.bind fun coff hcoff => ?_
  obtain ⟨_, rfl⟩ := (coffHeader_read_eq_ok_iff data coff).mp hcoff
  exact h.optionalHeader_read.bind fun _ _ => .refl _ _

theorem SameHeaders.headers_read :
    Steady (data.length < data'.length) (Headers.read data) (Headers.read data') := by
  refine h.dosHeader_read.bind fun dos hdos => ?_
  obtain ⟨_, _, rfl⟩ := (dosHeader_read_eq_ok_iff data dos).mp hdos
  exact h.ntHeaders_read.bind fun _ _ => .refl _ _

theorem SameHeaders.readAll :
    Steady (data.length < data'.length)
      (SectionHeader.readAll data (headers data).tableOffset (sectionCount data))
      (SectionHeader.readAll data' (headers data).tableOffset (sectionCount data)) := by
  apply Steady.mapM
  intro i hi
  have hi := List.mem_range.mp hi
  have hin : InHeaders data (headerOffset data i) SectionHeader.size := by
    simp only [InHeaders, tableStop, headerOffset, SectionHeader.size]
    omega
  simp only [SectionHeader.readAt]
  rw [addSat_tableOffset data (Nat.lt_trans hi (sectionCount_lt data))]
  exact (h.slice hin).map _

end

theorem toSection_steady {config : AnalysisConfig} {size size' : Nat}
    (hsize : size = size' ∨ config.clampRawData = false ∧ size ≤ size') (header : SectionHeader)
    (base : Nat) :
    Steady (size < size') (header.toSection base size config)
      (header.toSection base size' config) where
  fixed hfixed := by
    rw [show size = size' by omega]
  ok s hs := by
    rcases hsize with rfl | ⟨hstrict, hle⟩
    · exact hs
    · have hpast : header.pastEnd size = false := by
        cases hpast : header.pastEnd size with
        | true => simp [SectionHeader.toSection, hpast, hstrict] at hs
        | false => rfl
      have hpast' : header.pastEnd size' = false := by
        simp only [SectionHeader.pastEnd, Bool.and_eq_false_iff, decide_eq_false_iff_not] at hpast ⊢
        omega
      simpa [SectionHeader.toSection, SectionHeader.presentRaw, hpast, hpast'] using hs

section

variable {data data' : Bytes} {config : AnalysisConfig} (h : SameHeaders data data')
  (hlen : data.length = data'.length ∨ config.clampRawData = false)

include h hlen

theorem SameHeaders.sections :
    Steady (data.length < data'.length) (sections config data (headers data))
      (sections config data' (headers data)) := by
  refine .refuse _ _ (h.readAll.bind fun hs _ => .mapM fun header _ => ?_)
  exact toSection_steady (hlen.imp_right fun hstrict => ⟨hstrict, h.length_le⟩) header _

theorem SameHeaders.analyse :
    Steady (data.length < data'.length) (analyse config data) (analyse config data') := by
  refine h.headers_read.bind fun read hread => ?_
  obtain ⟨_, rfl⟩ := (headers_read_eq_ok_iff data read).mp hread
  exact (h.sections hlen).bind fun _ _ => .refl _ _

end

theorem sameHeaders_splice {data patch : Bytes} {start : Nat}
    (hfits : start + patch.length ≤ data.length)
    (hout : ∀ i ∈ headerRegion data, ¬ (start ≤ i ∧ i < start + patch.length)) :
    SameHeaders data (data.splice start patch) where
  length_le := Nat.le_of_eq (Bytes.length_splice hfits).symm
  agree i hi := by rw [Bytes.getElem?_splice hfits, if_neg (hout i hi)]

theorem sameHeaders_append (data extra : Bytes) : SameHeaders data (data ++ extra) where
  length_le := by
    rw [List.length_append]
    exact Nat.le_add_right _ _
  agree i hi := List.getElem?_append_left hi.1

theorem analyse_reads_headers (config : AnalysisConfig) (data : Bytes) :
    (∀ data' : Bytes, data'.length = data.length →
      (∀ i ∈ headerRegion data, data'[i]? = data[i]?) →
        analyse config data' = analyse config data) ∧
    (config.clampRawData = false → ∀ r, analyse config data = .ok r →
      (∀ data' : Bytes, data.length ≤ data'.length →
        (∀ i ∈ headerRegion data, data'[i]? = data[i]?) → analyse config data' = .ok r) ∧
      (∀ (start : Nat) (patch : Bytes), start + patch.length ≤ data.length →
        (∀ i ∈ headerRegion data, ¬ (start ≤ i ∧ i < start + patch.length)) →
          analyse config (data.splice start patch) = .ok r) ∧
      ∀ extra : Bytes, analyse config (data ++ extra) = .ok r) := by
  refine ⟨fun data' hlen hagree => ?_, fun hstrict r hr => ?_⟩
  · have hsame : SameHeaders data data' := ⟨Nat.le_of_eq hlen.symm, hagree⟩
    exact (hsame.analyse (.inl hlen.symm)).fixed (by omega)
  · have hkeeps : ∀ data', SameHeaders data data' → analyse config data' = .ok r :=
      fun data' hsame => (hsame.analyse (.inr hstrict)).ok r hr
    exact ⟨fun data' hle hagree => hkeeps data' ⟨hle, hagree⟩,
      fun start patch hfits hout => hkeeps _ (sameHeaders_splice hfits hout),
      fun extra => hkeeps _ (sameHeaders_append data extra)⟩

theorem pairFile_patched :
    analyse {} (pairFile 8) = .ok (pairLayout 264) ∧
      analyse {} ((pairFile 8).splice 270 [1, 2]) = .ok (pairLayout 264) ∧
      analyse {} (pairFile 8 ++ [3]) = .ok (pairLayout 264) := by
  have h : analyse {} (pairFile 8) = .ok (pairLayout 264) := by cbv
  have hlen : (pairFile 8).length = 272 := by cbv
  have hstop : tableStop (pairFile 8) = 264 := by cbv
  obtain ⟨_, hpatch, happend⟩ := (analyse_reads_headers {} (pairFile 8)).2 rfl _ h
  refine ⟨h, hpatch 270 [1, 2] (Nat.le_of_eq hlen.symm) ?_, happend [3]⟩
  rintro i ⟨_, hdos | ⟨_, htable⟩⟩
  · omega
  · omega

end BinaryAtlas.PortableExecutable
