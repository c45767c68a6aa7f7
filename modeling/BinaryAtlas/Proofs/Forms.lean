import BinaryAtlas.Image.Layout
import BinaryAtlas.DataType
import BinaryAtlas.Proofs.Except
import BinaryAtlas.Proofs.Section

namespace BinaryAtlas

theorem Json.word?_natural {n : Nat} (h : n < Word.limit) : (Json.natural n).word? = some n :=
  if_pos h

theorem Json.lt_of_word? {j : Json} {n : Nat} (h : j.word? = some n) : n < Word.limit := by
  unfold Json.word? at h
  split at h
  · split at h
    · cases h
      assumption
    · cases h
  · cases h

namespace TypeKind

def Fits : TypeKind → Prop
  | .void => True
  | .scalar size _ _ => size < Word.limit
  | .pointer target => target < Word.limit
  | .array element count => element < Word.limit ∧ count < Word.limit
  | .alias target => target < Word.limit
  | .enumeration size => size < Word.limit
  | .struct size => size < Word.limit
  | .signature => True

instance : DecidablePred Fits
  | .void => inferInstanceAs (Decidable True)
  | .scalar size _ _ => inferInstanceAs (Decidable (size < Word.limit))
  | .pointer target => inferInstanceAs (Decidable (target < Word.limit))
  | .array element count =>
    inferInstanceAs (Decidable (element < Word.limit ∧ count < Word.limit))
  | .alias target => inferInstanceAs (Decidable (target < Word.limit))
  | .enumeration size => inferInstanceAs (Decidable (size < Word.limit))
  | .struct size => inferInstanceAs (Decidable (size < Word.limit))
  | .signature => inferInstanceAs (Decidable True)

theorem ofJson?_toJson {k : TypeKind} (h : k.Fits) : ofJson? k.toJson = some k := by
  cases k <;>
    simp_all [Fits, toJson, ofJson?, ofTagged?, Json.fields?, Json.slots?, List.lookup_cons,
      Json.bool?, Json.word?_natural]

theorem fits_of_single {content : Json} {key : String} {f : Nat → TypeKind} {k : TypeKind}
    (hf : ∀ n, n < Word.limit → (f n).Fits)
    (h : (do match ← content.fields? [key] with
      | [number] => pure (f (← number.word?))
      | _ => none) = some k) : k.Fits := by
  obtain ⟨fields, _, h⟩ := Option.bind_eq_some_iff.mp h
  split at h
  · obtain ⟨n, hn, h⟩ := Option.bind_eq_some_iff.mp h
    cases h
    exact hf n (Json.lt_of_word? hn)
  · cases h

theorem fits_of_ofTagged? {tag : String} {content : Json} {k : TypeKind}
    (h : ofTagged? tag content = some k) : k.Fits := by
  unfold ofTagged? at h
  split at h
  · obtain ⟨_, _, rfl⟩ := Option.map_eq_some_iff.mp h
    trivial
  · obtain ⟨_, _, rfl⟩ := Option.map_eq_some_iff.mp h
    trivial
  · obtain ⟨fields, _, h⟩ := Option.bind_eq_some_iff.mp h
    split at h
    · obtain ⟨size, hsize, h⟩ := Option.bind_eq_some_iff.mp h
      obtain ⟨signed, _, h⟩ := Option.bind_eq_some_iff.mp h
      obtain ⟨floating, _, h⟩ := Option.bind_eq_some_iff.mp h
      cases h
      exact Json.lt_of_word? hsize
    · cases h
  · exact fits_of_single (f := .pointer) (fun n hn => hn) h
  · obtain ⟨fields, _, h⟩ := Option.bind_eq_some_iff.mp h
    split at h
    · obtain ⟨element, helement, h⟩ := Option.bind_eq_some_iff.mp h
      obtain ⟨count, hcount, h⟩ := Option.bind_eq_some_iff.mp h
      cases h
      exact ⟨Json.lt_of_word? helement, Json.lt_of_word? hcount⟩
    · cases h
  · exact fits_of_single (f := .alias) (fun n hn => hn) h
  · exact fits_of_single (f := .enumeration) (fun n hn => hn) h
  · exact fits_of_single (f := .struct) (fun n hn => hn) h
  · cases h

theorem fits_of_ofJson? {j : Json} {k : TypeKind} (h : ofJson? j = some k) : k.Fits := by
  unfold ofJson? at h
  split at h
  · split at h
    · exact fits_of_ofTagged? h
    · cases h
  · exact fits_of_ofTagged? h
  · cases h

end TypeKind

namespace Section

structure Fits (s : Section) : Prop where
  relative : s.relative < Word.limit
  virtualSize : s.virtualSize < Word.limit
  rawPointer : s.rawPointer < Word.limit
  rawSize : s.rawSize < Word.limit
  start : s.start < Word.limit
  stop : s.stop < Word.limit

theorem Built.fits {s : Section} (h : s.Built) : s.Fits := by
  obtain ⟨name, type, perms, base, relative, virtualSize, rawPointer, rawSize, hs⟩ := h
  obtain ⟨hstop, hraw, rfl⟩ := (build?_eq_some_iff ..).mp hs
  constructor <;> dsimp only <;> omega

theorem permsOfJson?_toJson (p : Perms) :
    permsOfJson? (.obj [("bits", .natural p.bits.toNat)]) = some p := by
  have hbits := p.bits.toNat_lt
  have hword : p.bits.toNat < Word.limit := by
    simp only [Word.limit]
    omega
  simp [permsOfJson?, Json.fields?, Json.slots?, List.lookup_cons, Json.word?_natural hword, hbits]

theorem sectionTypeOfJson?_name (t : SectionType) : SectionType.ofJson? (.str t.name) = some t := by
  cases t <;> rfl

theorem ofJson?_toJson {s : Section} (h : s.Fits) : ofJson? s.toJson = some s := by
  simp [toJson, ofJson?, Json.fields?, Json.slots?, List.lookup_cons, Json.str?,
    sectionTypeOfJson?_name, permsOfJson?_toJson, Json.word?_natural h.relative,
    Json.word?_natural h.virtualSize, Json.word?_natural h.rawPointer, Json.word?_natural h.rawSize,
    Json.word?_natural h.start, Json.word?_natural h.stop]

theorem fits_of_ofJson? {j : Json} {s : Section} (h : ofJson? j = some s) : s.Fits := by
  obtain ⟨fields, _, h⟩ := Option.bind_eq_some_iff.mp h
  split at h
  · simp only [bind, Option.bind_eq_some_iff] at h
    obtain ⟨_, _, _, _, _, _, _, hrelative, _, hvirtual, _, hpointer, _, hraw, _, hstart, _, hstop,
      h⟩ := h
    cases h
    exact ⟨Json.lt_of_word? hrelative, Json.lt_of_word? hvirtual, Json.lt_of_word? hpointer,
      Json.lt_of_word? hraw, Json.lt_of_word? hstart, Json.lt_of_word? hstop⟩
  · cases h

end Section

namespace Layout

structure Fits (l : Layout) : Prop where
  base : l.base < Word.limit
  entry : l.entry < Word.limit
  stop : l.stop < Word.limit
  sections : ∀ s ∈ l.sections, s.Fits

theorem ofJson?_toJson {l : Layout} (h : l.Fits) : ofJson? l.toJson = some l := by
  have hsections := mapM_map_eq_some fun s hs => Section.ofJson?_toJson (h.sections s hs)
  simp [toJson, ofJson?, Json.fields?, Json.slots?, List.lookup_cons, Json.str?, Json.arr?, hsections,
    Json.word?_natural h.base, Json.word?_natural h.entry, Json.word?_natural h.stop]

theorem fits_of_ofJson? {j : Json} {l : Layout} (h : ofJson? j = some l) : l.Fits := by
  obtain ⟨fields, _, h⟩ := Option.bind_eq_some_iff.mp h
  split at h
  · simp only [bind, Option.bind_eq_some_iff] at h
    obtain ⟨_, hbase, _, hentry, _, hstop, _, _, _, hsections, _, _, h⟩ := h
    cases h
    refine ⟨Json.lt_of_word? hbase, Json.lt_of_word? hentry, Json.lt_of_word? hstop, fun s hs => ?_⟩
    obtain ⟨i, _, hi⟩ := exists_of_mem_mapM hsections hs
    exact Section.fits_of_ofJson? hi
  · cases h

end Layout

end BinaryAtlas
