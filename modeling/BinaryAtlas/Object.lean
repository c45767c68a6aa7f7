import BinaryAtlas.DataType
import BinaryAtlas.Image.Basic

namespace BinaryAtlas

inductive ObjectClass where
  | dataType
  | symbol
  | symbolTable
  | image
  | addressSpace
deriving DecidableEq, Inhabited

namespace ObjectClass

def name : ObjectClass → String
  | .dataType => "DataType"
  | .symbol => "Symbol"
  | .symbolTable => "SymbolTable"
  | .image => "Image"
  | .addressSpace => "AddressSpace"

def all : List ObjectClass := [.dataType, .symbol, .symbolTable, .image, .addressSpace]

def ofName? (s : String) : Option ObjectClass := all.find? (·.name == s)

end ObjectClass

inductive Body where
  | dataType (kind : TypeKind)
  | symbol (symbol : Symbol)
  | table (table : SymbolTable)
  | image (image : Image)
  | space (images : List Ref)

namespace Body

def classOf : Body → ObjectClass
  | .dataType _ => .dataType
  | .symbol _ => .symbol
  | .table _ => .symbolTable
  | .image _ => .image
  | .space _ => .addressSpace

def kind? : Body → Option TypeKind
  | .dataType k => some k
  | _ => none

def symbol? : Body → Option Symbol
  | .symbol s => some s
  | _ => none

def table? : Body → Option SymbolTable
  | .table t => some t
  | _ => none

def image? : Body → Option Image
  | .image i => some i
  | _ => none

def images? : Body → Option (List Ref)
  | .space images => some images
  | _ => none

/-- The objects that live at least as long as this one. A table does not own the table around it,
and types do not own the types they refer to. -/
def owned : Body → List Ref
  | .dataType _ => []
  | .symbol s => [s.type]
  | .table t => t.symbols.values ++ t.children
  | .image i => [i.globals]
  | .space images => images

variable {b : Body}

@[simp]
theorem kind?_eq_some_iff {k : TypeKind} : b.kind? = some k ↔ b = .dataType k := by
  cases b <;> simp [kind?]

@[simp]
theorem symbol?_eq_some_iff {s : Symbol} : b.symbol? = some s ↔ b = .symbol s := by
  cases b <;> simp [symbol?]

@[simp]
theorem table?_eq_some_iff {t : SymbolTable} : b.table? = some t ↔ b = .table t := by
  cases b <;> simp [table?]

@[simp]
theorem image?_eq_some_iff {i : Image} : b.image? = some i ↔ b = .image i := by
  cases b <;> simp [image?]

@[simp]
theorem images?_eq_some_iff {images : List Ref} : b.images? = some images ↔ b = .space images := by
  cases b <;> simp [images?]

end Body

structure Object where
  uuid : Uuid
  id : HashId
  name : String
  comment : String := ""
  temporary : Bool := false
  body : Body

namespace Object

def classOf (o : Object) : ObjectClass := o.body.classOf

def create (uuid : Uuid) (name : String) (body : Body) : Object :=
  { uuid, id := HashId.of body.classOf.name uuid, name, body }

def readMeta (o : Object) (record : Json) : Object :=
  { o with
    name := ((record.get? "name").bind Json.str?).getD o.name
    comment := ((record.get? "comment").bind Json.str?).getD o.comment }

def uuidOfRecord (record : Json) : Except Error Uuid :=
  match (record.get? "uuid").bind Json.str? with
  | none => .error (.record (.missingText "uuid"))
  | some s =>
    match Uuid.ofText? s with
    | some id => .ok id
    | none => .error (.record .unreadable)

end Object

end BinaryAtlas
