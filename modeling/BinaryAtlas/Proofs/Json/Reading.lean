import BinaryAtlas.Proofs.Json.Spelling
import Mathlib.Data.List.DropRight

namespace BinaryAtlas.Json

namespace Parser

attribute [local simp] value? elements? members?

theorem skipBlanks_append {gap : List Char} (h : Blank gap) (cs : List Char) :
    skipBlanks (gap ++ cs) = skipBlanks cs := by
  rw [skipBlanks, List.dropWhile_append_of_pos h]
  rfl

theorem skipBlanks_cons {c : Char} (h : isBlank c = false) (cs : List Char) :
    skipBlanks (c :: cs) = c :: cs := by
  simp [skipBlanks, h]

theorem toList_hexPadded_control {n : Nat} (h : n < 0x20) :
    (Text.hexPadded 4 n).toList = ['0', '0', (n / 16).digitChar, (n % 16).digitChar] := by
  rw [Text.hexPadded, Text.padLeft, Text.hex, String.toList_append, String.toList_ofList,
    String.toList_ofList, String.length_ofList]
  revert n
  decide

theorem hexNumber?_control {n : Nat} (h : n < 0x20) :
    Text.hexNumber? ['0', '0', (n / 16).digitChar, (n % 16).digitChar] = some n := by
  revert n
  decide

theorem toNat_valid (c : Char) : c.toNat < 0xD800 ∨ 0xDFFF < c.toNat := by
  rcases c.valid with h | ⟨h, _⟩
  · exact .inl h
  · exact .inr h

theorem isHigh_toNat (c : Char) : isHigh c.toNat = false := by
  have := toNat_valid c
  simp [isHigh]
  omega

theorem isLow_toNat (c : Char) : isLow c.toNat = false := by
  have := toNat_valid c
  simp [isLow]
  omega

theorem units?_escaped (read : List Nat) (c : Char) (rest : List Char) :
    units? read ((escaped c).toList ++ rest) = units? (c.toNat :: read) rest := by
  unfold escaped
  split
  case h_8 c hquote hslash _ _ _ _ _ =>
    split
    case isTrue hc =>
      rw [String.toList_append, toList_hexPadded_control hc]
      simp [units?, hexNumber?_control hc]
    case isFalse hc =>
      rw [String.toList_singleton, List.singleton_append, units?]
      · rw [if_neg hc]
      · exact hquote
      · rintro _ _ _ _ _ rfl
        exact absurd rfl hslash
      · rintro _ _ rfl
        exact absurd rfl hslash
  all_goals simp [units?, escape?]

theorem units?_flatMap (read : List Nat) (cs rest : List Char) :
    units? read (cs.flatMap (fun c => (escaped c).toList) ++ '"' :: rest)
      = some (read.reverse ++ cs.map Char.toNat, rest) := by
  induction cs generalizing read with
  | nil => simp [units?]
  | cons c cs ih =>
    rw [List.flatMap_cons, List.append_assoc, units?_escaped, ih]
    simp

theorem join?_toNat (read cs : List Char) :
    join? read (cs.map Char.toNat) = some (read.reverse ++ cs) := by
  induction cs generalizing read with
  | nil => simp [join?]
  | cons c cs ih =>
    cases cs with
    | nil => simp [join?, isHigh_toNat, isLow_toNat]
    | cons d cs =>
      have hrest := ih (c :: read)
      simpa [join?, isHigh_toNat, isLow_toNat] using hrest

theorem string?_quoted (s : String) (rest : List Char) :
    ∃ cs, (quoted s).toList ++ rest = '"' :: cs ∧ string? cs = some (some s, rest) := by
  refine ⟨s.toList.flatMap (fun c => (escaped c).toList) ++ '"' :: rest, ?_, ?_⟩
  · simp [quoted, String.toList_join, List.flatMap_map]
  · rw [string?, units?_flatMap]
    simp [join?_toNat]

def Stops (c : Char) : Prop := isDigit c = false ∧ c ≠ '.' ∧ c ≠ 'e' ∧ c ≠ 'E'

instance : DecidablePred Stops := fun c =>
  inferInstanceAs (Decidable (isDigit c = false ∧ c ≠ '.' ∧ c ≠ 'e' ∧ c ≠ 'E'))

theorem stops_of_isBlank {c : Char} (h : isBlank c = true) : Stops c := by
  simp only [isBlank, Bool.or_eq_true, beq_iff_eq] at h
  rcases h with ((rfl | rfl) | rfl) | rfl <;> decide

def Ends (rest : List Char) : Prop := ∀ c ∈ rest.head?, Stops c

theorem ends_nil : Ends [] := by
  rintro _ ⟨⟩

theorem ends_cons {c : Char} (h : Stops c) (rest : List Char) : Ends (c :: rest) := by
  rintro _ ⟨⟩
  exact h

theorem Ends.append {gap rest : List Char} (hg : Blank gap) (h : Ends rest) :
    Ends (gap ++ rest) := by
  cases gap with
  | nil => exact h
  | cons c gap => exact ends_cons (stops_of_isBlank (hg c (by simp))) _

theorem isDigit_of_mem_toDigits {n : Nat} {c : Char} (h : c ∈ Nat.toDigits 10 n) :
    isDigit c = true := by
  have hd := Nat.isDigit_of_mem_toDigits (by decide) (by decide) h
  simpa [isDigit, Char.isDigit, Char.le_def] using hd

theorem head?_toDigits {n : Nat} (h : 0 < n) : (Nat.toDigits 10 n).head? ≠ some '0' := by
  induction n using Nat.strongRecOn with
  | ind n ih =>
    by_cases hn : n < 10
    · rw [Nat.toDigits_of_lt_base hn]
      have hdigit : ∀ m < 10, 0 < m → [m.digitChar].head? ≠ some '0' := by decide
      exact hdigit n hn h
    · rw [Nat.toDigits_of_base_le (by decide) (by omega),
        List.head?_append_of_ne_nil _ Nat.toDigits_ne_nil]
      exact ih (n / 10) (by omega) (by omega)

theorem Ends.digits?_append {rest : List Char} (h : Ends rest) (n : Nat) :
    digits? (Nat.toDigits 10 n ++ rest) = some (Nat.toDigits 10 n, rest) := by
  have hall : ∀ c ∈ Nat.toDigits 10 n, isDigit c = true := fun c => isDigit_of_mem_toDigits
  have hrest : rest.takeWhile isDigit = [] ∧ rest.dropWhile isDigit = rest := by
    cases rest with
    | nil => simp
    | cons c rest => simp [(h c (by simp)).1]
  rw [digits?, List.takeWhile_append_of_pos hall, List.dropWhile_append_of_pos hall, hrest.1,
    hrest.2, List.append_nil]
  split
  · exact absurd (by assumption) Nat.toDigits_ne_nil
  · rfl

theorem Ends.fraction? {rest : List Char} (h : Ends rest) : fraction? rest = some ([], rest) := by
  unfold Parser.fraction?
  split
  · exact absurd rfl (h _ rfl).2.1
  · rfl

theorem Ends.exponent? {rest : List Char} (h : Ends rest) : exponent? rest = some ([], rest) := by
  unfold Parser.exponent?
  split
  · exact absurd rfl (h _ rfl).2.2.1
  · exact absurd rfl (h _ rfl).2.2.2
  · rfl

theorem decimalValue_toDigits (n : Nat) : decimalValue (Nat.toDigits 10 n) = n := by
  have := @Nat.ofDigitChars_ten_toDigits n
  rwa [Nat.ofDigitChars_eq_foldl] at this

theorem Ends.unsigned?_append {rest : List Char} (h : Ends rest) (n : Nat) :
    unsigned? (Nat.toDigits 10 n ++ rest)
      = some (.natural n, Nat.toDigits 10 n, rest) := by
  have hzero : ¬((Nat.toDigits 10 n).head? = some '0' ∧ (Nat.toDigits 10 n).length ≠ 1) := by
    rintro ⟨hhead, hlength⟩
    rcases Nat.eq_zero_or_pos n with rfl | hn
    · exact hlength (by simp)
    · exact head?_toDigits hn hhead
  simp [unsigned?, h.digits?_append, h.fraction?, h.exponent?, hzero, decimalValue_toDigits]

theorem value?_of_digit (fuel : Nat) {d : Char} (hd : isDigit d = true) (cs : List Char) :
    value? (fuel + 1) (d :: cs) = (unsigned? (d :: cs)).map fun (j, _, rest) => (j, rest) := by
  have hblank : isBlank d = false := by
    by_contra hb
    rw [(stops_of_isBlank (by simpa using hb)).1] at hd
    cases hd
  rw [value?, skipBlanks_cons hblank]
  split
  case h_7 =>
    rw [number?]
    rintro _ ⟨⟩
    simp [isDigit] at hd
  all_goals
    rename_i heq
    cases heq
    simp [isDigit] at hd

theorem Ends.value?_decimal {rest : List Char} (h : Ends rest) (fuel n : Nat) :
    value? (fuel + 1) ((Text.decimal n).toList ++ rest) = some (.natural n, rest) := by
  rw [Text.decimal, String.toList_ofList]
  obtain ⟨d, ds, hds⟩ := List.exists_cons_of_ne_nil (@Nat.toDigits_ne_nil n 10)
  have hd : isDigit d = true := isDigit_of_mem_toDigits (n := n) (by simp [hds])
  rw [hds, List.cons_append, value?_of_digit fuel hd, ← List.cons_append, ← hds,
    h.unsigned?_append]
  rfl

theorem skipBlanks_skipBlanks (cs : List Char) : skipBlanks (skipBlanks cs) = skipBlanks cs := by
  exact List.dropWhile_idempotent _ _

theorem value?_skipBlanks (fuel : Nat) (cs : List Char) :
    value? fuel (skipBlanks cs) = value? fuel cs := by
  cases fuel with
  | zero => rw [value?, value?]
  | succ fuel => rw [value?, value?, skipBlanks_skipBlanks]

theorem elements?_skipBlanks (fuel : Nat) (cs : List Char) :
    elements? fuel (skipBlanks cs) = elements? fuel cs := by
  cases fuel with
  | zero => rw [elements?, elements?]
  | succ fuel => rw [elements?, elements?, value?_skipBlanks]

theorem members?_skipBlanks (fuel : Nat) (cs : List Char) :
    members? fuel (skipBlanks cs) = members? fuel cs := by
  cases fuel with
  | zero => rw [members?, members?]
  | succ fuel => rw [members?, members?, skipBlanks_skipBlanks]

theorem elements?_closed (fuel : Nat) (cs : List Char) : elements? fuel (']' :: cs) = none := by
  cases fuel with
  | zero => rw [elements?]
  | succ fuel =>
    have : value? fuel (']' :: cs) = none := by
      cases fuel with
      | zero => rw [value?]
      | succ fuel =>
        simp [skipBlanks, isBlank, number?, unsigned?, digits?, isDigit]
    rw [elements?, this]

theorem members?_closed (fuel : Nat) (cs : List Char) : members? fuel ('\x7d' :: cs) = none := by
  cases fuel with
  | zero => rw [members?]
  | succ fuel => simp [skipBlanks, isBlank]

theorem value?_noItems {gap : List Char} (hg : Blank gap) (fuel : Nat) (rest : List Char) :
    value? (fuel + 1) ('[' :: (gap ++ (']' :: rest))) = some (.arr [], rest) := by
  simp [skipBlanks_cons, skipBlanks_append hg, isBlank]

theorem value?_noFields {gap : List Char} (hg : Blank gap) (fuel : Nat) (rest : List Char) :
    value? (fuel + 1) ('\x7b' :: (gap ++ ('\x7d' :: rest))) = some (.obj [], rest) := by
  simp [skipBlanks_cons, skipBlanks_append hg, isBlank]

theorem value?_of_elements? {fuel : Nat} {cs rest : List Char} {items : List Json}
    (h : elements? fuel cs = some (items, rest)) :
    value? (fuel + 1) ('[' :: cs) = some (.arr items, rest) := by
  simp only [value?, skipBlanks_cons (c := '[') (by decide)]
  split
  case h_1 heq =>
    rw [← elements?_skipBlanks, heq, elements?_closed] at h
    cases h
  case h_2 =>
    rw [elements?_skipBlanks, h]
    rfl

theorem ofMembers_some (fields : List (String × Json)) :
    ofMembers (fields.map fun field => (some field.1, field.2)) = .obj fields := by
  have : (fields.map fun field => (some field.1, field.2)).mapM
      (fun member => member.1.map fun k => (k, member.2)) = some fields := by
    induction fields with
    | nil => rfl
    | cons field fields ih => simp [ih]
  rw [ofMembers, this]

theorem value?_of_members? {fuel : Nat} {cs rest : List Char} {fields : List (String × Json)}
    (h : members? fuel cs = some (fields.map fun field => (some field.1, field.2), rest)) :
    value? (fuel + 1) ('\x7b' :: cs) = some (.obj fields, rest) := by
  simp only [value?, skipBlanks_cons (c := '\x7b') (by decide)]
  split
  case h_1 heq =>
    rw [← members?_skipBlanks, heq, members?_closed] at h
    cases h
  case h_2 =>
    rw [members?_skipBlanks, h, Option.map_some, ofMembers_some]

theorem literal?_append (word : String) (value : Json) (rest : List Char) :
    literal? word value (word.toList ++ rest) = some (value, rest) := by
  simp [literal?, ← String.length_toList]

theorem value?_null (fuel : Nat) (rest : List Char) :
    value? (fuel + 1) ("null".toList ++ rest) = some (.null, rest) := by
  simpa [skipBlanks, isBlank] using literal?_append "null" .null rest

theorem value?_bool (fuel : Nat) (b : Bool) (rest : List Char) :
    value? (fuel + 1) ((if b then "true" else "false").toList ++ rest)
      = some (.bool b, rest) := by
  cases b with
  | false => simpa [skipBlanks, isBlank] using literal?_append "false" (.bool false) rest
  | true => simpa [skipBlanks, isBlank] using literal?_append "true" (.bool true) rest

theorem value?_of_string? {fuel : Nat} {cs ds rest : List Char} {s : String}
    (hcs : skipBlanks cs = '"' :: ds) (h : string? ds = some (some s, rest)) :
    value? (fuel + 1) cs = some (.str s, rest) := by
  simp only [value?, hcs]
  rw [h]
  rfl

theorem skipBlanks_key {before : List Char} (hb : Blank before) (k : String) (cs : List Char) :
    ∃ ds, skipBlanks (before ++ ((quoted k).toList ++ cs)) = '"' :: ds ∧
      string? ds = some (some k, cs) := by
  obtain ⟨ds, hds, hs⟩ := string?_quoted k cs
  refine ⟨ds, ?_, hs⟩
  rw [skipBlanks_append hb, hds, skipBlanks_cons (by decide)]

section

variable {before after cs r rest : List Char} (hb : Blank before) (ha : Blank after) {fuel : Nat}
  (k : String) {j : Json} (hv : value? fuel cs = some (j, r))

include hb ha hv

theorem members?_last (hr : skipBlanks r = '\x7d' :: rest) :
    members? (fuel + 1) (before ++ ((quoted k).toList ++ (after ++ ':' :: cs))) =
      some ([(some k, j)], rest) := by
  obtain ⟨ds, hds, hs⟩ := skipBlanks_key hb k (after ++ ':' :: cs)
  have hcolon : skipBlanks (':' :: cs) = ':' :: cs := skipBlanks_cons (by decide) cs
  simp only [members?, hds, hs, skipBlanks_append ha, hcolon, hv, hr]

theorem members?_more (hr : skipBlanks r = ',' :: rest) :
    members? (fuel + 1) (before ++ ((quoted k).toList ++ (after ++ ':' :: cs))) =
      (members? fuel rest).map fun more => ((some k, j) :: more.1, more.2) := by
  obtain ⟨ds, hds, hs⟩ := skipBlanks_key hb k (after ++ ':' :: cs)
  have hcolon : skipBlanks (':' :: cs) = ':' :: cs := skipBlanks_cons (by decide) cs
  simp only [members?, hds, hs, skipBlanks_append ha, hcolon, hv, hr]

end

end Parser

open BinaryAtlas.Json.Parser

mutual

theorem Spells.value? {j : Json} {cs : List Char} :
    Spells j cs → (fuel : Nat) → {rest : List Char} → 2 * cs.length < fuel → Ends rest →
      ∃ r, Parser.value? fuel (cs ++ rest) = some (j, r) ∧ skipBlanks r = skipBlanks rest
  | .null, fuel + 1, rest, _, _ => ⟨rest, value?_null fuel rest, rfl⟩
  | .bool b, fuel + 1, rest, _, _ => ⟨rest, value?_bool fuel b rest, rfl⟩
  | .natural n, fuel + 1, rest, _, h => ⟨rest, h.value?_decimal fuel n, rfl⟩
  | .str s, fuel + 1, rest, _, _ => by
    obtain ⟨cs, hcs, hs⟩ := string?_quoted s rest
    refine ⟨rest, value?_of_string? ?_ hs, rfl⟩
    rw [hcs, skipBlanks_cons (by decide)]
  | .noItems hg, fuel + 1, rest, _, _ => by
    refine ⟨rest, ?_, rfl⟩
    rw [List.cons_append, List.append_assoc]
    exact value?_noItems hg fuel rest
  | .arr hitems, fuel + 1, rest, hf, _ => by
    simp only [List.length_cons, List.length_append, List.length_nil] at hf
    refine ⟨rest, ?_, rfl⟩
    rw [List.cons_append, List.append_assoc]
    exact value?_of_elements? (hitems.elements? fuel (by omega))
  | .noFields hg, fuel + 1, rest, _, _ => by
    refine ⟨rest, ?_, rfl⟩
    rw [List.cons_append, List.append_assoc]
    exact value?_noFields hg fuel rest
  | .obj hfields, fuel + 1, rest, hf, _ => by
    simp only [List.length_cons, List.length_append, List.length_nil] at hf
    refine ⟨rest, ?_, rfl⟩
    rw [List.cons_append, List.append_assoc]
    exact value?_of_members? (hfields.members? fuel (by omega))
  | .pad hb h ha, fuel, rest, hf, hend => by
    simp only [List.length_append] at hf
    obtain ⟨r, hr, hskip⟩ := h.value? fuel (by omega) (hend.append ha)
    refine ⟨r, ?_, hskip.trans (skipBlanks_append ha rest)⟩
    rw [List.append_assoc, List.append_assoc, ← value?_skipBlanks, skipBlanks_append hb,
      value?_skipBlanks, hr]

theorem SpellsItems.elements? {items : List Json} {cs : List Char} :
    SpellsItems items cs → (fuel : Nat) → {rest : List Char} → 2 * cs.length + 1 < fuel →
      Parser.elements? fuel (cs ++ ']' :: rest) = some (items, rest)
  | .last h, fuel + 1, rest, hf => by
    obtain ⟨r, hr, hskip⟩ := h.value? fuel (by omega) (ends_cons (c := ']') (by decide) rest)
    rw [skipBlanks_cons (by decide)] at hskip
    simp only [Parser.elements?, hr, hskip]
  | @SpellsItems.more _ _ _ ds h hrest, fuel + 1, rest, hf => by
    simp only [List.length_cons, List.length_append] at hf
    have hcomma : Ends (',' :: (ds ++ ']' :: rest)) := ends_cons (by decide) _
    obtain ⟨r, hr, hskip⟩ := h.value? fuel (by omega) hcomma
    rw [skipBlanks_cons (by decide)] at hskip
    rw [List.append_assoc, List.cons_append]
    simp only [Parser.elements?, hr, hskip, hrest.elements? fuel (by omega), Option.map_some]

theorem SpellsFields.members? {fields : List (String × Json)} {cs : List Char} :
    SpellsFields fields cs → (fuel : Nat) → {rest : List Char} → 2 * cs.length + 1 < fuel →
      Parser.members? fuel (cs ++ '\x7d' :: rest)
        = some (fields.map fun field => (some field.1, field.2), rest)
  | .last hb ha h, fuel + 1, rest, hf => by
    simp only [List.length_cons, List.length_append] at hf
    obtain ⟨r, hr, hskip⟩ := h.value? fuel (by omega) (ends_cons (c := '\x7d') (by decide) rest)
    rw [skipBlanks_cons (by decide)] at hskip
    rw [List.append_assoc, List.append_assoc, List.append_assoc, List.cons_append]
    exact members?_last hb ha _ hr hskip
  | @SpellsFields.more _ _ _ _ _ _ ds hb ha h hrest, fuel + 1, rest, hf => by
    simp only [List.length_cons, List.length_append] at hf
    have hcomma : Ends (',' :: (ds ++ '\x7d' :: rest)) := ends_cons (by decide) _
    obtain ⟨r, hr, hskip⟩ := h.value? fuel (by omega) hcomma
    rw [skipBlanks_cons (by decide)] at hskip
    simp only [List.append_assoc, List.cons_append]
    rw [members?_more hb ha _ hr hskip, hrest.members? fuel (by omega)]
    rfl

end

theorem ofText?_of_spells {j : Json} {t : String} (h : Spells j t.toList) :
    ofText? t = some j := by
  obtain ⟨r, hr, hskip⟩ := h.value? (2 * t.toList.length + 2) (by omega) ends_nil
  rw [List.append_nil] at hr
  rw [ofText?, hr]
  dsimp only
  rw [hskip]
  rfl

end BinaryAtlas.Json
