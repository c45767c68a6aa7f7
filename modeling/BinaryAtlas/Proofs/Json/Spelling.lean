import BinaryAtlas.Json.Parser
import BinaryAtlas.Json.Printer
import Mathlib.Data.List.Forall2

namespace BinaryAtlas.Json

def Blank (gap : List Char) : Prop := ∀ c ∈ gap, Parser.isBlank c = true

theorem Blank.nil : Blank [] := by
  intro c hc
  simp at hc

theorem blank_newline (n : Nat) : Blank ('\n' :: (Text.blanks n).toList) := by
  intro c hc
  rcases List.mem_cons.1 hc with rfl | hc
  · rfl
  · rw [Text.blanks, String.toList_ofList] at hc
    rw [List.eq_of_mem_replicate hc]
    rfl

mutual

inductive Spells : Json → List Char → Prop
  | null : Spells .null "null".toList
  | bool (b : Bool) : Spells (.bool b) (if b then "true" else "false").toList
  | natural (n : Nat) : Spells (.natural n) (Text.decimal n).toList
  | str (s : String) : Spells (.str s) (quoted s).toList
  | noItems {gap : List Char} : Blank gap → Spells (.arr []) ('[' :: (gap ++ [']']))
  | arr {items : List Json} {cs : List Char} :
      SpellsItems items cs → Spells (.arr items) ('[' :: (cs ++ [']']))
  | noFields {gap : List Char} : Blank gap → Spells (.obj []) ('\x7b' :: (gap ++ ['\x7d']))
  | obj {fields : List (String × Json)} {cs : List Char} :
      SpellsFields fields cs → Spells (.obj fields) ('\x7b' :: (cs ++ ['\x7d']))
  | pad {j : Json} {before cs after : List Char} :
      Blank before → Spells j cs → Blank after → Spells j (before ++ (cs ++ after))

inductive SpellsItems : List Json → List Char → Prop
  | last {j : Json} {cs : List Char} : Spells j cs → SpellsItems [j] cs
  | more {j : Json} {cs : List Char} {items : List Json} {ds : List Char} :
      Spells j cs → SpellsItems items ds → SpellsItems (j :: items) (cs ++ ',' :: ds)

inductive SpellsFields : List (String × Json) → List Char → Prop
  | last {k : String} {before after : List Char} {j : Json} {cs : List Char} :
      Blank before → Blank after → Spells j cs →
        SpellsFields [(k, j)] (before ++ ((quoted k).toList ++ (after ++ ':' :: cs)))
  | more {k : String} {before after : List Char} {j : Json} {cs : List Char}
      {fields : List (String × Json)} {ds : List Char} :
      Blank before → Blank after → Spells j cs → SpellsFields fields ds →
        SpellsFields ((k, j) :: fields)
          (before ++ ((quoted k).toList ++ (after ++ ':' :: (cs ++ ',' :: ds))))

end

mutual

def plain : Json → Bool
  | .null | .bool _ | .natural _ | .str _ => true
  | .number _ | .garbled => false
  | .arr items => plainItems items
  | .obj fields => plainFields fields

def plainItems : List Json → Bool
  | [] => true
  | j :: rest => plain j && plainItems rest

def plainFields : List (String × Json) → Bool
  | [] => true
  | (_, j) :: rest => plain j && plainFields rest

end

def SpellsField (field : String × Json) (cs : List Char) : Prop :=
  ∃ ds, Spells field.2 ds ∧ cs = (quoted field.1).toList ++ ':' :: ds

section Spread

variable {gap closing : List Char} (hg : Blank gap) (hc : Blank closing)
include hg hc

theorem SpellsItems.intercalate {items : List Json} {texts : List (List Char)}
    (h : List.Forall₂ Spells items texts) (hne : items ≠ []) :
    SpellsItems items (gap ++ ((',' :: gap).intercalate texts ++ closing)) := by
  induction h with
  | nil => exact absurd rfl hne
  | @cons j cs items texts hj hrest ih =>
    cases hrest with
    | nil =>
      rw [List.intercalate_singleton]
      exact .last (.pad hg hj hc)
    | cons hk hrest =>
      have hitems := SpellsItems.more (.pad hg hj .nil) (ih (by simp))
      simpa using hitems

theorem SpellsFields.intercalate {fields : List (String × Json)} {texts : List (List Char)}
    (h : List.Forall₂ SpellsField fields texts) (hne : fields ≠ []) :
    SpellsFields fields (gap ++ ((',' :: gap).intercalate texts ++ closing)) := by
  induction h with
  | nil => exact absurd rfl hne
  | @cons field cs fields texts hf hrest ih =>
    obtain ⟨ds, hd, rfl⟩ := hf
    cases hrest with
    | nil =>
      have hfield := SpellsFields.last (k := field.1) hg .nil (.pad .nil hd hc)
      simpa using hfield
    | cons hk hrest =>
      have hfields := SpellsFields.more (k := field.1) hg .nil hd (ih (by simp))
      simpa using hfields

end Spread

theorem toList_spread (opening closing : String) (depth : Nat) {entries : List String}
    (h : entries ≠ []) :
    (spread opening closing depth entries).toList
      = opening.toList ++ ('\n' :: (Text.blanks (2 * (depth + 1))).toList
        ++ ((',' :: '\n' :: (Text.blanks (2 * (depth + 1))).toList).intercalate
          (entries.map String.toList) ++ '\n' :: (Text.blanks (2 * depth)).toList)
        ++ closing.toList) := by
  cases entries with
  | nil => exact absurd rfl h
  | cons entry entries => simp [spread, String.toList_intercalate]

theorem spells_spread_items (depth : Nat) {items : List Json} {texts : List String}
    (h : List.Forall₂ Spells items (texts.map String.toList)) :
    Spells (.arr items) (spread "[" "]" depth texts).toList := by
  cases texts with
  | nil =>
    cases h
    simpa [spread] using Spells.noItems .nil
  | cons text texts =>
    rw [toList_spread _ _ _ (by simp)]
    apply Spells.arr
    apply SpellsItems.intercalate (blank_newline _) (blank_newline _) h
    rintro rfl
    cases h

theorem spells_spread_fields (depth : Nat) {fields : List (String × Json)} {texts : List String}
    (h : List.Forall₂ SpellsField fields (texts.map String.toList)) :
    Spells (.obj fields) (spread "\x7b" "\x7d" depth texts).toList := by
  cases texts with
  | nil =>
    cases h
    simpa [spread] using Spells.noFields .nil
  | cons text texts =>
    rw [toList_spread _ _ _ (by simp)]
    apply Spells.obj
    apply SpellsFields.intercalate (blank_newline _) (blank_newline _) h
    rintro rfl
    cases h

mutual

theorem spells_prettyAt (depth : Nat) :
    (j : Json) → j.plain = true → Spells j (prettyAt depth j).toList
  | .null, _ => .null
  | .bool b, _ => .bool b
  | .natural n, _ => .natural n
  | .str s, _ => .str s
  | .arr items, h => by
    rw [prettyAt]
    exact spells_spread_items depth (spells_prettyItems depth items (by simpa [plain] using h))
  | .obj fields, h => by
    rw [prettyAt]
    exact spells_spread_fields depth (spells_prettyFields depth fields (by simpa [plain] using h))

theorem spells_prettyItems (depth : Nat) :
    (items : List Json) → plainItems items = true →
      List.Forall₂ Spells items ((prettyItems depth items).map String.toList)
  | [], _ => by
    rw [prettyItems]
    exact .nil
  | j :: items, h => by
    rw [plainItems, Bool.and_eq_true] at h
    rw [prettyItems]
    exact .cons (spells_prettyAt (depth + 1) j h.1) (spells_prettyItems depth items h.2)

theorem spells_prettyFields (depth : Nat) :
    (fields : List (String × Json)) → plainFields fields = true →
      List.Forall₂ SpellsField fields ((prettyFields depth fields).map String.toList)
  | [], _ => by
    rw [prettyFields]
    exact .nil
  | (k, j) :: fields, h => by
    rw [plainFields, Bool.and_eq_true] at h
    rw [prettyFields]
    have hblank : Blank [' '] := by simp [Blank, Parser.isBlank]
    refine .cons ⟨_, .pad hblank (spells_prettyAt (depth + 1) j h.1) .nil, ?_⟩
      (spells_prettyFields depth fields h.2)
    simp

end

theorem spells_pretty {j : Json} (h : j.plain = true) : Spells j j.pretty.toList :=
  spells_prettyAt 0 j h

end BinaryAtlas.Json
