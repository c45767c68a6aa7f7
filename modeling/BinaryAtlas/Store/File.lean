import BinaryAtlas.Store.Disk
import BinaryAtlas.Store.Memory
import BinaryAtlas.Text.Quoted

namespace BinaryAtlas

structure FileStore where
  path : String
  maxSize : Nat
  bytes : Bytes
  owned : Bool
  dirty : Bool
deriving DecidableEq, Inhabited

namespace FileStore

def size (s : FileStore) : Nat := s.bytes.length

def readFile (disk : Disk) (path : String) (bound : Nat) : Except StoreError Bytes :=
  match disk.read? path with
  | none => .error .system
  | some content =>
    if bound < content.length then .error (.fileTooLarge bound content.length) else .ok content

def ofDisk (disk : Disk) (path : String) (config : StoreConfig) : Except StoreError FileStore :=
  (readFile disk path config.maxFileSize).map fun content =>
    { path, maxSize := config.maxFileSize, bytes := content, owned := content.isEmpty,
      dirty := false }

def read (s : FileStore) (offset len : Nat) : Except StoreError Bytes :=
  (storeRange offset len s.size).map fun _ => s.bytes.window offset len

def write (s : FileStore) (offset : Nat) (data : Bytes) : Except StoreError Unit × FileStore :=
  match storeRange offset data.length s.size with
  | .ok _ =>
    (.ok (), { s with bytes := s.bytes.splice offset data, owned := true, dirty := true })
  | .error e => (.error e, s)

def load (s : FileStore) (disk : Disk) : Except StoreError Unit × FileStore :=
  match readFile disk s.path s.maxSize with
  | .ok content =>
    (.ok (), { s with bytes := content, owned := content.isEmpty, dirty := false })
  | .error e => (.error e, s)

def save (s : FileStore) (disk : Disk) : Except StoreError Unit × FileStore × Disk :=
  match disk.openDraft? with
  | none => (.error .system, s, disk)
  | some disk =>
    match disk.fillDraft s.bytes with
    | (false, disk) => (.error .system, s, disk.dropDraft)
    | (true, disk) =>
      if disk.syncsDraft then
        match disk.placeDraft? s.path with
        | some disk => (.ok (), { s with dirty := false }, disk)
        | none => (.error .system, s, disk.dropDraft)
      else (.error .system, s, disk.dropDraft)

def flush (s : FileStore) (disk : Disk) : Except StoreError Unit × FileStore × Disk :=
  if s.dirty then s.save disk else (.ok (), s, disk)

def toJson (s : FileStore) : Json :=
  .obj [("kind", .str "file"), ("path", .str s.path), ("size", .natural s.size)]

def text (s : FileStore) : String :=
  Text.described "FileStore" [
    ("path", Text.quoted s.path),
    ("max_file_size", Text.decimal s.maxSize),
    ("content", (if s.owned then "Owned(" else "Mapped(") ++ Text.decimal s.size ++ " bytes)"),
    ("dirty", if s.dirty then "true" else "false")]

end FileStore

end BinaryAtlas
