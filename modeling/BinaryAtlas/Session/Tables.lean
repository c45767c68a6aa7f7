import BinaryAtlas.Session.Notify

namespace BinaryAtlas.Session

def addSymbol (s : Session) (table : Ref) (offset : Nat) (symbol : Ref) : Option Ref × Session :=
  match s.heap.table? table with
  | none => (none, s)
  | some t =>
    (t.symbols.get? offset,
     s.updateBody table (.table { t with symbols := t.symbols.insert offset symbol }))

def removeSymbol (s : Session) (table : Ref) (offset : Nat) : Except Error Ref × Session :=
  let missing : Except Error Ref := .error (.during "remove_symbol" offset (.noSymbol offset))
  match s.heap.table? table with
  | none => (missing, s)
  | some t =>
    let asked := s.surveyed (t.hitReads offset)
    match t.hit? s.extent offset with
    | none => (missing, asked)
    | some h =>
      (.ok h.symbol,
       asked.updateBody table (.table { t with symbols := t.symbols.erase h.entry }))

def setSymbols (s : Session) (table : Ref) (symbols : KeyMap Ref) : Session :=
  match s.heap.table? table with
  | none => s
  | some t => s.updateBody table (.table { t with symbols })

def lookup (s : Session) (table : Ref) (offset : Nat) : Except Error Nesting.Found × Session :=
  let asked := s.surveyed
    (Nesting.lookupReads s.heap.table? s.extent s.heap.size table offset)
  match Nesting.lookup? s.heap.table? s.extent s.heap.size table offset with
  | some found => (.ok found, asked)
  | none => (.error (.noSymbol offset), asked)

def span (s : Session) (table : Ref) : Option (Nat × Nat) × Session :=
  match s.heap.table? table with
  | none => (none, s)
  | some t => (t.span? s.extent, s.surveyed t.spanReads)

def parent? (s : Session) (table : Ref) : Option Ref :=
  ((s.heap.table? table).bind (·.parent)).filter fun p => (s.heap.get? p).isSome

def isWithin (s : Session) (table : Ref) (id : HashId) : Bool :=
  (s.withId? (Nesting.chain s.heap.table? s.heap.size table) id).isSome

def setParent (s : Session) (child : Ref) (parent : Option Ref) : Session :=
  match s.heap.table? child with
  | none => s
  | some t => { s with heap := s.heap.setBody child (.table { t with parent }) }

def addChild (s : Session) (table child : Ref) : Bool × Session :=
  match s.heap.table? table, s.heap.table? child, s.heap.id? child with
  | some t, some _, some id =>
    if s.isWithin table id || (s.parent? child).isSome then (false, s)
    else
      (true, (s.setParent child (some table)).updateBody table
        (.table { t with children := t.children ++ [child] }))
  | _, _, _ => (false, s)

def removeChild (s : Session) (table : Ref) (id : HashId) : Option Ref × Session :=
  match s.heap.table? table with
  | none => (none, s)
  | some t =>
    match s.withId? t.children id with
    | none => (none, s)
    | some child =>
      let heap := s.heap.setBody table (.table { t with children := t.children.erase child })
      let s := { s with heap }.setParent child none
      (some child, s.notify .changed table)

def symbolText (s : Session) (symbol : Ref) : String :=
  let type := ((s.heap.symbol? symbol).bind fun sym => s.heap.name? sym.type).getD ""
  type ++ " " ++ (s.heap.name? symbol).getD ""

def entryLine (s : Session) (offset : Nat) (symbol : Ref) : String :=
  let kind := ((s.heap.symbol? symbol).map (·.kind.name)).getD ""
  let extent := ((s.extent symbol).map Text.marked).getD "-"
  Text.padLeft 12 ' ' (Text.marked offset) ++ "  " ++ Text.padRight 18 kind ++ " "
    ++ Text.padLeft 6 ' ' extent ++ "  " ++ s.symbolText symbol ++ "\n"

def tableLines (s : Session) (indent depth : Nat) (name : String) (t : SymbolTable) : String :=
  let margin := Text.blanks (depth * indent)
  margin ++ "[" ++ name ++ "] (" ++ Text.decimal t.symbols.size ++ " symbols)\n" ++
    String.join (t.symbols.toList.map fun (offset, symbol) =>
      margin ++ Text.blanks indent ++ s.entryLine offset symbol)

def renderAt (s : Session) (indent : Nat) : Nat → Nat → Ref → String
  | levels, depth, r =>
    match s.heap.table? r with
    | none => ""
    | some t =>
      let own := s.tableLines indent depth ((s.heap.name? r).getD "") t
      match levels with
      | 0 =>
        if t.children.isEmpty then own
        else own ++ Text.blanks (depth * indent) ++ Text.blanks indent ++ "...\n"
      | levels + 1 =>
        own ++ String.join (t.children.map fun c => renderAt s indent levels (depth + 1) c)

def shown (s : Session) : Nat → Ref → List Ref
  | levels, r =>
    match s.heap.table? r with
    | none => []
    | some t =>
      match levels with
      | 0 => t.symbols.values
      | levels + 1 => t.symbols.values ++ t.children.flatMap fun c => shown s levels c

def render (s : Session) (indent levels : Nat) (table : Ref) : String × Session :=
  (s.renderAt indent levels 0 table, s.surveyed (s.shown levels table))

end BinaryAtlas.Session
