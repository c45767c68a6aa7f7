import BinaryAtlas.Identity
import BinaryAtlas.Json.Basic

namespace BinaryAtlas

inductive TypeKind where
  | void
  | scalar (size : Nat) (signed floating : Bool)
  | pointer (target : HashId)
  | array (element : HashId) (count : Nat)
  | alias (target : HashId)
  | enumeration (size : Nat)
  | struct (size : Nat)
  | signature
deriving DecidableEq, Inhabited

namespace TypeKind

def maxHops : Nat := 32

/-- The size of a type after following at most `hops` references. It is zero if a reference names
no type, or one too many is met. -/
def sizeWithin (resolve : HashId → Option TypeKind) (pointerSize : Nat) : Nat → TypeKind → Nat
  | _, .void => 0
  | _, .signature => 0
  | _, .scalar size _ _ => size
  | _, .enumeration size => size
  | _, .struct size => size
  | _, .pointer _ => pointerSize
  | 0, .array _ _ => 0
  | 0, .alias _ => 0
  | hops + 1, .array element count =>
    match resolve element with
    | some kind => Word.mulSat (sizeWithin resolve pointerSize hops kind) count
    | none => 0
  | hops + 1, .alias target =>
    match resolve target with
    | some kind => sizeWithin resolve pointerSize hops kind
    | none => 0

def next? : TypeKind → Option HashId
  | .array element _ => some element
  | .alias target => some target
  | _ => none

/-- The hash ids that are looked up to find a size. The last reference allowed is still looked
up, though not followed. -/
def consulted (resolve : HashId → Option TypeKind) : Nat → TypeKind → List HashId
  | 0, kind => kind.next?.toList
  | hops + 1, kind =>
    match kind.next? with
    | none => []
    | some id => id :: ((resolve id).map (consulted resolve hops)).getD []

def toJson : TypeKind → Json
  | .void => .obj [("type", .str "void")]
  | .scalar size signed floating =>
    .obj [("floating", .bool floating), ("signed", .bool signed), ("size", .natural size),
      ("type", .str "scalar")]
  | .pointer target => .obj [("target", .natural target), ("type", .str "pointer")]
  | .array element count =>
    .obj [("count", .natural count), ("element", .natural element), ("type", .str "array")]
  | .alias target => .obj [("target", .natural target), ("type", .str "typedef")]
  | .enumeration size => .obj [("size", .natural size), ("type", .str "enum")]
  | .struct size => .obj [("size", .natural size), ("type", .str "structure")]
  | .signature => .obj [("type", .str "signature")]

def ofTagged? (tag : String) (content : Json) : Option TypeKind :=
  match tag with
  | "void" => (content.fields? []).map fun _ => .void
  | "signature" => (content.fields? []).map fun _ => .signature
  | "scalar" => do
    match ← content.fields? ["size", "signed", "floating"] with
    | [size, signed, floating] => pure (.scalar (← size.word?) (← signed.bool?) (← floating.bool?))
    | _ => none
  | "pointer" => do
    match ← content.fields? ["target"] with
    | [target] => pure (.pointer (← target.word?))
    | _ => none
  | "array" => do
    match ← content.fields? ["element", "count"] with
    | [element, count] => pure (.array (← element.word?) (← count.word?))
    | _ => none
  | "typedef" => do
    match ← content.fields? ["target"] with
    | [target] => pure (.alias (← target.word?))
    | _ => none
  | "enum" => do
    match ← content.fields? ["size"] with
    | [size] => pure (.enumeration (← size.word?))
    | _ => none
  | "structure" => do
    match ← content.fields? ["size"] with
    | [size] => pure (.struct (← size.word?))
    | _ => none
  | _ => none

def ofJson? : Json → Option TypeKind
  | .obj fields =>
    match fields.lookup "type" with
    | some (.str tag) => ofTagged? tag (.obj fields)
    | _ => none
  | .arr (.str tag :: rest) => ofTagged? tag (.arr rest)
  | _ => none

end TypeKind

end BinaryAtlas
