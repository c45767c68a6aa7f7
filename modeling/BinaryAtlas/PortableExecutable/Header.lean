import BinaryAtlas.Error

namespace BinaryAtlas.PortableExecutable

def slice (data : Bytes) (start len : Nat) : Except Malformed Bytes :=
  if Word.limit ≤ start + len then .error (.truncated Word.top data.length)
  else if data.length < start + len then .error (.truncated (start + len) data.length)
  else .ok (data.window start len)

def number (data : Bytes) (start width : Nat) : Except Malformed Nat :=
  (slice data start width).map Bytes.ofLittleEndian

def requireLength (data : Bytes) (needed : Nat) : Except Malformed Unit :=
  if data.length < needed then .error (.truncated needed data.length) else .ok ()

structure DosHeader where
  magic : Nat
  peOffset : Nat
deriving DecidableEq

def DosHeader.size : Nat := 64

def DosHeader.signature : Nat := 0x5A4D

def DosHeader.read (data : Bytes) : Except Malformed DosHeader := do
  requireLength data DosHeader.size
  let magic ← number data 0 2
  if magic ≠ DosHeader.signature then throw (.badSignature (.dosMagic magic))
  pure { magic, peOffset := ← number data 60 4 }

inductive Machine where
  | unknown
  | i386
  | x86_64
  | arm
  | arm64
  | armNT
  | other (code : Nat)
deriving DecidableEq

def Machine.ofCode (code : Nat) : Machine :=
  if code = 0x014c then .i386
  else if code = 0x8664 then .x86_64
  else if code = 0x01c0 then .arm
  else if code = 0xaa64 then .arm64
  else if code = 0x01c4 then .armNT
  else if code = 0 then .unknown
  else .other code

def Machine.text : Machine → String
  | .unknown => "Unknown"
  | .i386 => "I386"
  | .x86_64 => "X86_64"
  | .arm => "Arm"
  | .arm64 => "Arm64"
  | .armNT => "ArmNT"
  | .other code => "Other(" ++ Text.decimal code ++ ")"

structure CoffHeader where
  machine : Machine
  sectionCount : Nat
  timestamp : Nat
  optionalSize : Nat
  characteristics : Nat
deriving DecidableEq

def CoffHeader.size : Nat := 20

def CoffHeader.read (data : Bytes) (start : Nat) : Except Malformed CoffHeader := do
  let raw ← slice data start CoffHeader.size
  pure {
    machine := .ofCode (raw.field 0 2)
    sectionCount := raw.field 2 2
    timestamp := raw.field 4 4
    optionalSize := raw.field 16 2
    characteristics := raw.field 18 2 }

structure OptionalHeader where
  magic : Nat
  entry : Nat
  imageBase : Nat
  sectionAlignment : Nat
  fileAlignment : Nat
  imageSize : Nat
  headersSize : Nat
deriving DecidableEq

namespace OptionalHeader

def narrowMagic : Nat := 0x10B

def wideMagic : Nat := 0x20B

def isWide (h : OptionalHeader) : Bool := h.magic == wideMagic

def leastSize? (magic : Nat) : Option Nat :=
  if magic = narrowMagic then some 96 else if magic = wideMagic then some 112 else none

def read (data : Bytes) (start size : Nat) : Except Malformed OptionalHeader := do
  if size < 2 then throw (.truncated 2 size)
  let raw ← slice data start size
  let magic := raw.field 0 2
  match leastSize? magic with
  | none => throw (.badSignature (.optionalMagic magic))
  | some least =>
    if size < least then throw (.truncated least size)
    pure {
      magic
      entry := raw.field 16 4
      imageBase := if magic = wideMagic then raw.field 24 8 else raw.field 28 4
      sectionAlignment := raw.field 32 4
      fileAlignment := raw.field 36 4
      imageSize := raw.field 56 4
      headersSize := raw.field 60 4 }

end OptionalHeader

structure NtHeaders where
  coff : CoffHeader
  optional : OptionalHeader
deriving DecidableEq

namespace NtHeaders

def signature : Bytes := [0x50, 0x45, 0, 0]

def read (data : Bytes) (start : Nat) : Except Malformed NtHeaders := do
  let found ← slice data start 4
  if found ≠ signature then throw (.badSignature (.peSignature found start))
  let coff ← CoffHeader.read data (start + 4)
  let optional ← OptionalHeader.read data (start + 24) coff.optionalSize
  pure { coff, optional }

def tableOffset (h : NtHeaders) (peOffset : Nat) : Nat :=
  Word.addSat (Word.addSat peOffset 24) h.coff.optionalSize

end NtHeaders

structure Headers where
  dos : DosHeader
  nt : NtHeaders
deriving DecidableEq

def Headers.read (data : Bytes) : Except Malformed Headers := do
  let dos ← DosHeader.read data
  pure { dos, nt := ← NtHeaders.read data dos.peOffset }

def Headers.tableOffset (h : Headers) : Nat := h.nt.tableOffset h.dos.peOffset

end BinaryAtlas.PortableExecutable
