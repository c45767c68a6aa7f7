import BinaryAtlas.Word

namespace BinaryAtlas

inductive Json where
  | null
  | bool (value : Bool)
  | natural (value : Nat)
  | number (literal : String)
  | str (value : String)
  | arr (items : List Json)
  | obj (fields : List (String × Json))
  | garbled
deriving Inhabited

namespace Json

def get? (key : String) : Json → Option Json
  | .obj fields => fields.lookup key
  | _ => none

def bool? : Json → Option Bool
  | .bool b => some b
  | _ => none

def word? : Json → Option Nat
  | .natural n => if n < Word.limit then some n else none
  | _ => none

def str? : Json → Option String
  | .str s => some s
  | _ => none

def arr? : Json → Option (List Json)
  | .arr items => some items
  | _ => none

def isNull : Json → Bool
  | .null => true
  | _ => false

/-- The values that the named fields of a structure take, in order. An object gives them by name,
with other names passed over and no name given twice; an array gives the first ones by position. -/
def slots? (names : List String) : Json → Option (List (Option Json))
  | .obj fields =>
    if names.all fun n => (fields.filter (·.1 == n)).length ≤ 1 then
      some (names.map fun n => fields.lookup n)
    else none
  | .arr items =>
    if items.length ≤ names.length then
      some (items.map some ++ List.replicate (names.length - items.length) none)
    else none
  | _ => none

def fields? (names : List String) (j : Json) : Option (List Json) := do
  (← j.slots? names).mapM id

def orDefault {α : Type} (read : Json → Option α) (fallback : α) : Option Json → Option α
  | none => some fallback
  | some j => read j

def variant? {α : Type} (alternatives : List (String × α)) : Json → Option α
  | .str s => alternatives.lookup s
  | .obj [(s, .null)] => alternatives.lookup s
  | _ => none

end Json

end BinaryAtlas
