import BinaryAtlas.Store.File

namespace BinaryAtlas

inductive Store where
  | memory (store : MemoryStore)
  | file (store : FileStore)
deriving Inhabited

namespace Store

def bytes : Store → Bytes
  | .memory s => s.bytes
  | .file s => s.bytes

def size (s : Store) : Nat := s.bytes.length

def read : Store → Nat → Nat → Except StoreError Bytes
  | .memory s, offset, len => s.read offset len
  | .file s, offset, len => s.read offset len

def write : Store → Nat → Bytes → Except StoreError Unit × Store
  | .memory s, offset, data => (s.write offset data).map id .memory
  | .file s, offset, data => (s.write offset data).map id .file

def flush : Store → Disk → Except StoreError Unit × Store × Disk
  | .memory s, disk => (.ok (), .memory s, disk)
  | .file s, disk => (s.flush disk).map id (Prod.map .file id)

def toJson : Store → Json
  | .memory s => s.toJson
  | .file s => s.toJson

def path? : Store → Option String
  | .memory _ => none
  | .file s => some s.path

end Store

end BinaryAtlas
