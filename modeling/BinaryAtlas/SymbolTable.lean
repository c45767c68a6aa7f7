import BinaryAtlas.KeyMap
import BinaryAtlas.Json.Basic
import BinaryAtlas.Text.Numeral

namespace BinaryAtlas

/-- The name of an object in the heap, never given twice. -/
abbrev Ref := Nat

inductive SymbolKind where
  | variable
  | function
  | parameter
  | field
deriving DecidableEq, Inhabited

namespace SymbolKind

def name : SymbolKind → String
  | .variable => "Variable"
  | .function => "Function"
  | .parameter => "FunctionParameter"
  | .field => "StructureField"

def ofJson? (j : Json) : Option SymbolKind :=
  j.variant? ([SymbolKind.variable, .function, .parameter, .field].map fun k => (k.name, k))

end SymbolKind

structure Symbol where
  kind : SymbolKind
  type : Ref
deriving DecidableEq, Inhabited

def symbolReference (name : String) (displacement : Nat) : String :=
  if displacement = 0 then name else name ++ "+" ++ Text.marked displacement

structure Hit where
  entry : Nat
  symbol : Ref
  displacement : Nat
deriving DecidableEq

structure SymbolTable where
  symbols : KeyMap Ref := .empty
  /-- The table this one was last nested in, which may have died. -/
  parent : Option Ref := none
  children : List Ref := []
deriving Inhabited

namespace SymbolTable

/-- The last symbol at or before an offset, if the offset lies in its extent. A symbol without
extent reaches to the next one. -/
def hit? (extent : Ref → Option Nat) (t : SymbolTable) (offset : Nat) : Option Hit :=
  match t.symbols.floor? offset with
  | none => none
  | some (entry, symbol) =>
    match extent symbol with
    | some size =>
      if offset - entry < size then some ⟨entry, symbol, offset - entry⟩ else none
    | none => some ⟨entry, symbol, offset - entry⟩

def span? (extent : Ref → Option Nat) (t : SymbolTable) : Option (Nat × Nat) :=
  match t.symbols.first?, t.symbols.last? with
  | some (first, _), some (last, symbol) =>
    some (first, Word.addSat last ((extent symbol).getD 1))
  | _, _ => none

def spans (extent : Ref → Option Nat) (t : SymbolTable) (offset : Nat) : Bool :=
  match t.span? extent with
  | some (start, stop) => decide (start ≤ offset) && decide (offset < stop)
  | none => false

def hitReads (t : SymbolTable) (offset : Nat) : List Ref :=
  (t.symbols.floor? offset).toList.map (·.2)

def spanReads (t : SymbolTable) : List Ref := t.symbols.last?.toList.map (·.2)

end SymbolTable

end BinaryAtlas
