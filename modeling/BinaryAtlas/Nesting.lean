import BinaryAtlas.SymbolTable

namespace BinaryAtlas.Nesting

structure Found where
  hit : Hit
  table : Ref
deriving DecidableEq

def chain (tables : Ref → Option SymbolTable) : Nat → Ref → List Ref
  | 0, _ => []
  | depth + 1, r =>
    match tables r with
    | none => []
    | some t =>
      r :: match t.parent with
        | some p => chain tables depth p
        | none => []

def hitIn? (tables : Ref → Option SymbolTable) (extent : Ref → Option Nat) (offset : Nat)
    (r : Ref) : Option Found :=
  (tables r).bind fun t => (t.hit? extent offset).map fun h => ⟨h, r⟩

def spannedBy (tables : Ref → Option SymbolTable) (extent : Ref → Option Nat) (offset : Nat)
    (r : Ref) : Bool :=
  ((tables r).map (·.spans extent offset)).getD false

def down? (tables : Ref → Option SymbolTable) (extent : Ref → Option Nat) (offset : Nat) :
    Nat → Ref → Option Found
  | 0, _ => none
  | depth + 1, r =>
    match tables r with
    | none => none
    | some t =>
      match t.children.findSome? fun c =>
          if spannedBy tables extent offset c then down? tables extent offset depth c else none with
      | some found => some found
      | none => hitIn? tables extent offset r

def lookup? (tables : Ref → Option SymbolTable) (extent : Ref → Option Nat) (depth : Nat)
    (r : Ref) (offset : Nat) : Option Found :=
  match down? tables extent offset depth r with
  | some found => some found
  | none => ((chain tables depth r).drop 1).findSome? (hitIn? tables extent offset)

def upTo {α : Type} (stop : α → Bool) : List α → List α
  | [] => []
  | a :: rest => if stop a then [a] else a :: upTo stop rest

def downReads (tables : Ref → Option SymbolTable) (extent : Ref → Option Nat) (offset : Nat) :
    Nat → Ref → List Ref
  | 0, _ => []
  | depth + 1, r =>
    match tables r with
    | none => []
    | some t =>
      let hits (c : Ref) : Bool :=
        spannedBy tables extent offset c && (down? tables extent offset depth c).isSome
      let visited := upTo hits t.children
      let inChildren := visited.flatMap fun c =>
        ((tables c).map SymbolTable.spanReads).getD [] ++
          if spannedBy tables extent offset c then downReads tables extent offset depth c else []
      if t.children.any hits then inChildren else inChildren ++ t.hitReads offset

def lookupReads (tables : Ref → Option SymbolTable) (extent : Ref → Option Nat) (depth : Nat)
    (r : Ref) (offset : Nat) : List Ref :=
  let below := downReads tables extent offset depth r
  if (down? tables extent offset depth r).isSome then below
  else
    let around := upTo (fun a => (hitIn? tables extent offset a).isSome)
      ((chain tables depth r).drop 1)
    below ++ around.flatMap fun a => ((tables a).map (·.hitReads offset)).getD []

end BinaryAtlas.Nesting
