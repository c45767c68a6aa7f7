import BinaryAtlas.Identity
import BinaryAtlas.Offset

namespace BinaryAtlas

inductive StoreError where
  | outOfBounds (offset len size : Nat)
  | fileTooLarge (bound found : Nat)
  | system
deriving DecidableEq

def StoreError.message? : StoreError → Option String
  | .outOfBounds offset len size =>
    some ("Range " ++ Text.marked offset ++ "+" ++ Text.marked len ++ " exceeds store size "
      ++ Text.marked size)
  | .fileTooLarge bound found =>
    some ("File size of " ++ Text.decimal found ++ " bytes exceeds the maximum allowed size of "
      ++ Text.decimal bound ++ " bytes.")
  | .system => none

inductive SignatureFault where
  | dosMagic (found : Nat)
  | peSignature (found : Bytes) (offset : Nat)
  | optionalMagic (found : Nat)
  | stated (text : String)
deriving DecidableEq

def SignatureFault.message : SignatureFault → String
  | .dosMagic found => "DOS magic " ++ Text.markedPadded 6 found
  | .peSignature found offset =>
    "PE signature [" ++ ", ".intercalate (found.map fun b => Text.hexPadded 2 b.toNat) ++ "] at "
      ++ Text.marked offset
  | .optionalMagic found => "optional header magic " ++ Text.markedPadded 6 found
  | .stated text => text

inductive TableFault where
  | tooMany (declared allowed : Nat)
  | rawPastEnd (name : String) (pointer size fileSize : Nat)
  | sectionOverflow (name : String)
  | imageOverflow (size base : Nat)
  | bytesOverflow (size base : Nat)
  | overlap (first second : String)
  | pastImage (name : String) (stop imageStop : Nat)
  | stated (text : String)
deriving DecidableEq

def TableFault.message : TableFault → String
  | .tooMany declared allowed =>
    Text.decimal declared ++ " sections declared, at most " ++ Text.decimal allowed ++ " allowed"
  | .rawPastEnd name pointer size fileSize =>
    "section '" ++ name ++ "' raw data " ++ Text.marked pointer ++ "+" ++ Text.marked size
      ++ " extends past end of file " ++ Text.marked fileSize
  | .sectionOverflow name => "section '" ++ name ++ "' range overflows the address space"
  | .imageOverflow size base =>
    "image of " ++ Text.marked size ++ " bytes at base " ++ Text.marked base
      ++ " overflows the address space"
  | .bytesOverflow size base =>
    Text.decimal size ++ " bytes at base " ++ Text.marked base ++ " overflow the address space"
  | .overlap first second => "sections '" ++ first ++ "' and '" ++ second ++ "' overlap"
  | .pastImage name stop imageStop =>
    "section '" ++ name ++ "' ends at " ++ Text.marked stop ++ " past image end "
      ++ Text.marked imageStop
  | .stated text => text

inductive Malformed where
  | badSignature (fault : SignatureFault)
  | truncated (expected actual : Nat)
  | inconsistent (fault : TableFault)
  | entryOutside (entry stop : Nat)
deriving DecidableEq

def Malformed.message : Malformed → String
  | .badSignature fault => "bad signature: " ++ fault.message
  | .truncated expected actual =>
    "truncated header: expected " ++ Text.decimal expected ++ " bytes, got " ++ Text.decimal actual
  | .inconsistent fault => "inconsistent section table: " ++ fault.message
  | .entryOutside entry stop =>
    "entry point " ++ Text.marked entry ++ " outside image ending at " ++ Text.marked stop

inductive LookupError where
  | notFound (id : HashId)
  | wrongClass (id : HashId) (found expected : String)
deriving DecidableEq

def LookupError.message : LookupError → String
  | .notFound id => "Object not found: " ++ HashId.text id
  | .wrongClass id found expected =>
    "Object " ++ HashId.text id ++ " is a " ++ found ++ ", expected " ++ expected

inductive RecordFault where
  | missingText (key : String)
  | missingInteger (key : String)
  | missingArray (key : String)
  | childTableId
  | imageId
  | symbolType (cause : LookupError)
  | unreadable
deriving DecidableEq

def RecordFault.message? : RecordFault → Option String
  | .missingText key => some ("missing string field '" ++ key ++ "'")
  | .missingInteger key => some ("missing integer field '" ++ key ++ "'")
  | .missingArray key => some ("missing array field '" ++ key ++ "'")
  | .childTableId => some "child table id"
  | .imageId => some "image id"
  | .symbolType cause => some ("symbol data type: " ++ cause.message)
  | .unreadable => none

inductive Error where
  | store (cause : StoreError)
  | unmapped (value : Nat) (kind : OffsetKind)
  | malformed (cause : Malformed)
  | noSymbol (offset : Nat)
  | lookup (cause : LookupError)
  | unknownAnalyser (name : String)
  | record (fault : RecordFault)
  | during (operation : String) (offset : Nat) (cause : Error)
deriving DecidableEq

namespace Error

def message? : Error → Option String
  | .store cause => cause.message?.map ("Byte store error: " ++ ·)
  | .unmapped value kind =>
    some ("No section maps " ++ kind.text ++ " offset " ++ Text.marked value)
  | .malformed cause => some ("Malformed image: " ++ cause.message)
  | .noSymbol offset => some ("No symbol at offset " ++ Text.marked offset)
  | .lookup cause => some cause.message
  | .unknownAnalyser name => some ("Unknown image analyser: " ++ name)
  | .record fault => fault.message?.map ("Serialization error: " ++ ·)
  | .during operation offset cause =>
    cause.message?.map (operation ++ " at " ++ Text.marked offset ++ " failed: " ++ ·)

def root : Error → Error
  | .during _ _ cause => cause.root
  | e => e

def isOutOfBounds (e : Error) : Bool :=
  match e.root with
  | .store (.outOfBounds _ _ _) => true
  | _ => false

end Error

end BinaryAtlas
