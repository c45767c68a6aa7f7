import BinaryAtlas.Session.Notify

namespace BinaryAtlas.Session

def addImage (s : Session) (space image : Ref) : Bool × Session :=
  match s.heap.images? space, s.heap.id? image with
  | some images, some id =>
    if (s.withId? images id).isSome then (false, s)
    else (true, s.updateBody space (.space (images ++ [image])))
  | _, _ => (false, s)

def removeImage (s : Session) (space : Ref) (id : HashId) : Option Ref × Session :=
  match s.heap.images? space with
  | none => (none, s)
  | some images =>
    match s.withId? images id with
    | none => (none, s)
    | some image => (some image, s.updateBody space (.space (images.erase image)))

def imageAt? (s : Session) (space : Ref) (offset : Nat) : Option Ref :=
  ((s.heap.images? space).getD []).find? fun r =>
    ((s.heap.image? r).map fun i => decide (i.base ≤ offset) && i.contains offset).getD false

end BinaryAtlas.Session
