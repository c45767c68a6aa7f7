import BinaryAtlas.Config
import BinaryAtlas.Error

namespace BinaryAtlas

def storeRange (offset len size : Nat) : Except StoreError (Nat × Nat) :=
  match Word.add? offset len with
  | some stop => if stop ≤ size then .ok (offset, stop) else .error (.outOfBounds offset len size)
  | none => .error (.outOfBounds offset len size)

structure MemoryStore where
  bytes : Bytes := []
  growable : Bool := false
  maxSize : Nat := StoreConfig.maxMemorySize {}
deriving DecidableEq, Inhabited

namespace MemoryStore

def ofConfig (c : StoreConfig) : MemoryStore :=
  { growable := c.growableMemory, maxSize := c.maxMemorySize }

/-- No store has this many bytes, whatever its largest size. -/
def allocationLimit : Nat := 9223372036854775808

def size (s : MemoryStore) : Nat := s.bytes.length

def read (s : MemoryStore) (offset len : Nat) : Except StoreError Bytes :=
  (storeRange offset len s.size).map fun _ => s.bytes.window offset len

def growsTo (s : MemoryStore) (size : Nat) : Bool :=
  s.growable && decide (size ≤ s.maxSize) && decide (size < allocationLimit)

def write (s : MemoryStore) (offset : Nat) (data : Bytes) : Except StoreError Unit × MemoryStore :=
  match storeRange offset data.length s.size with
  | .ok _ => (.ok (), { s with bytes := s.bytes.splice offset data })
  | .error e =>
    if s.growsTo (offset + data.length) then
      (.ok (), { s with bytes := (s.bytes.extend (offset + data.length)).splice offset data })
    else (.error e, s)

def toJson (s : MemoryStore) : Json :=
  .obj [("growable", .bool s.growable), ("kind", .str "vector"), ("max_size", .natural s.maxSize),
    ("size", .natural s.size)]

end MemoryStore

end BinaryAtlas
