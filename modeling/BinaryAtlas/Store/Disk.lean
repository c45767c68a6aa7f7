import BinaryAtlas.Bytes

namespace BinaryAtlas

/-- Where saves break off: a file is made beside the one to replace, it gets the bytes, or the
first of them, it is brought to the disk, and it is put in place of the other. -/
inductive SaveFault where
  | create
  | fill (written : Nat)
  | sync
  | place
deriving DecidableEq, Inhabited

structure Disk where
  present : Bool := true
  files : List (String × Bytes) := []
  drafts : List Bytes := []
  fault : Option SaveFault := none
deriving DecidableEq, Inhabited

namespace Disk

def read? (d : Disk) (path : String) : Option Bytes :=
  if d.present then d.files.lookup path else none

def put (d : Disk) (path : String) (content : Bytes) : Disk :=
  { d with files := (path, content) :: d.files.filter (·.1 != path) }

def openDraft? (d : Disk) : Option Disk :=
  if d.present && d.fault != some .create then some { d with drafts := [] :: d.drafts } else none

def fillDraft (d : Disk) (content : Bytes) : Bool × Disk :=
  match d.fault with
  | some (.fill written) => (false, { d with drafts := content.take written :: d.drafts.tail })
  | _ => (true, { d with drafts := content :: d.drafts.tail })

def syncsDraft (d : Disk) : Bool := d.fault != some .sync

def dropDraft (d : Disk) : Disk := { d with drafts := d.drafts.tail }

def placeDraft? (d : Disk) (path : String) : Option Disk :=
  if d.fault = some .place then none else d.drafts.head?.map (d.dropDraft.put path)

end Disk

end BinaryAtlas
