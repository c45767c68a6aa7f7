import BinaryAtlas.Config
import BinaryAtlas.PortableExecutable.Header
import BinaryAtlas.Section
import BinaryAtlas.Text.Utf8

namespace BinaryAtlas.PortableExecutable

structure SectionHeader where
  nameBytes : Bytes
  virtualSize : Nat
  virtualAddress : Nat
  rawSize : Nat
  rawPointer : Nat
  characteristics : Nat
deriving DecidableEq

namespace SectionHeader

def size : Nat := 40

def ofBytes (raw : Bytes) : SectionHeader where
  nameBytes := raw.take 8
  virtualSize := raw.field 8 4
  virtualAddress := raw.field 12 4
  rawSize := raw.field 16 4
  rawPointer := raw.field 20 4
  characteristics := raw.field 36 4

def readAt (data : Bytes) (table i : Nat) : Except Malformed SectionHeader :=
  (slice data (Word.addSat table (i * size)) size).map ofBytes

def readAll (data : Bytes) (table count : Nat) : Except Malformed (List SectionHeader) :=
  (List.range count).mapM (readAt data table)

def name (h : SectionHeader) : String := Text.Utf8.decode (h.nameBytes.takeWhile (· != 0))

def has (h : SectionHeader) (bit : Nat) : Bool := h.characteristics.testBit bit

def containsCode (h : SectionHeader) : Bool := h.has 5

def initializedData (h : SectionHeader) : Bool := h.has 6

def uninitializedData (h : SectionHeader) : Bool := h.has 7

def executable (h : SectionHeader) : Bool := h.has 29

def readable (h : SectionHeader) : Bool := h.has 30

def writable (h : SectionHeader) : Bool := h.has 31

def type (h : SectionHeader) : SectionType :=
  if h.containsCode || h.executable then .code
  else if h.uninitializedData then .uninitialized
  else if h.initializedData then .data
  else .none

def declaredRaw (h : SectionHeader) : Nat :=
  if h.uninitializedData && !h.initializedData then 0 else h.rawSize

def pastEnd (h : SectionHeader) (fileSize : Nat) : Bool :=
  decide (0 < h.declaredRaw) && decide (fileSize < h.rawPointer + h.declaredRaw)

def presentRaw (h : SectionHeader) (fileSize : Nat) : Nat :=
  if h.pastEnd fileSize then fileSize - h.rawPointer else h.declaredRaw

def toSection (h : SectionHeader) (base fileSize : Nat) (config : AnalysisConfig) :
    Except Malformed Section :=
  if h.pastEnd fileSize && !config.clampRawData then
    .error (.inconsistent (.rawPastEnd h.name h.rawPointer h.declaredRaw fileSize))
  else
    match Section.build? h.name h.type (Perms.of h.readable h.writable h.executable) base
        h.virtualAddress h.virtualSize h.rawPointer (h.presentRaw fileSize) with
    | some s => .ok s
    | none => .error (.inconsistent (.sectionOverflow h.name))

end SectionHeader

end BinaryAtlas.PortableExecutable
