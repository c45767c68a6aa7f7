import BinaryAtlas.Object

/-!
The index of objects by hash id. It owns nothing, so entries outlive their objects; dead entries
are forgotten when they are met, and all together when there are many. Which objects are alive,
and of which class, is given from outside.
-/

namespace BinaryAtlas

structure Registry where
  entries : KeyMap Ref := .empty
  sweepAt : Nat := 0
deriving Inhabited

inductive Registration where
  | inserted
  | existing (r : Ref)
deriving DecidableEq

namespace Registry

abbrev Liveness := Ref → Option ObjectClass

def leastSweep : Nat := 64

def get? (live : Liveness) (r : Registry) (id : HashId) : Option Ref :=
  (r.entries.get? id).filter fun ref => (live ref).isSome

def forget (live : Liveness) (r : Registry) (id : HashId) : Registry :=
  match r.entries.get? id with
  | some ref => if (live ref).isSome then r else { r with entries := r.entries.erase id }
  | none => r

def getAs (live : Liveness) (r : Registry) (id : HashId) (c : ObjectClass) :
    Except LookupError Ref :=
  match r.get? live id with
  | none => .error (.notFound id)
  | some ref =>
    match live ref with
    | none => .error (.notFound id)
    | some found =>
      if found = c then .ok ref else .error (.wrongClass id found.name c.name)

def sweep (live : Liveness) (r : Registry) : Registry :=
  { r with entries := r.entries.filter fun _ ref => (live ref).isSome }

def place (live : Liveness) (r : Registry) (id : HashId) (ref : Ref) : Registry :=
  let r :=
    if r.sweepAt ≤ r.entries.size then
      let swept := r.sweep live
      { swept with sweepAt := max (2 * swept.entries.size) leastSweep }
    else r
  { r with entries := r.entries.insert id ref }

def insert (live : Liveness) (r : Registry) (id : HashId) (c : ObjectClass) (ref : Ref) :
    Registration × Registry :=
  match r.getAs live id c with
  | .ok old => (.existing old, r)
  | .error _ => (.inserted, r.place live id ref)

def remove (live : Liveness) (r : Registry) (id : HashId) : Option Ref × Registry :=
  (r.get? live id, { r with entries := r.entries.erase id })

def objects (live : Liveness) (r : Registry) : List Ref :=
  r.entries.values.filter fun ref => (live ref).isSome

def prune (live : Liveness) (r : Registry) : Nat × Registry :=
  let swept := r.sweep live
  (r.entries.size - swept.entries.size, swept)

def text (r : Registry) : String :=
  Text.described "ObjectRegistry" [("entries", Text.decimal r.entries.size)]

end Registry

end BinaryAtlas
