import BinaryAtlas.Object

/-!
Observers and the chain of their subscriptions. A notification goes, in order, to the
subscriptions there are when it starts.
-/

namespace BinaryAtlas

structure Chain (ω : Type) where
  next : Nat := 0
  active : List (Nat × ω) := []

namespace Chain

variable {ω σ : Type}

def subscribe (c : Chain ω) (observer : ω) : Nat × Chain ω :=
  (c.next, { next := c.next + 1, active := c.active ++ [(c.next, observer)] })

def unsubscribe (c : Chain ω) (handle : Nat) : Bool × Chain ω :=
  let rest := c.active.filter (·.1 != handle)
  (rest.length != c.active.length, { c with active := rest })

def size (c : Chain ω) : Nat := c.active.length

def text (c : Chain ω) : String :=
  Text.described "CallbackChain" [("observers", Text.decimal c.size)]

def deliver (chainOf : σ → Chain ω) (react : σ → Nat × ω → σ) (s : σ) : σ :=
  (chainOf s).active.foldl react s

end Chain

/-- What the observers of a session do when they are told of an event. Those that `record` it and
those that stay `silent` are passive. The others end their subscription (`once`) or make a second
one (`spawn`) at their first event, flush a changed image and overwrite its first byte (`patch`), or
take added objects of a class out of the registry (`reap`). What holds of every session holds with
observers of these kinds; those of `Chain.Conduct` may do anything to a chain. -/
inductive Reaction where
  | record
  | silent
  | once
  | spawn
  | patch
  | reap (className : String)
deriving DecidableEq, Inhabited

structure Observer where
  tag : String
  reaction : Reaction := .record
deriving DecidableEq, Inhabited

inductive EventKind where
  | added
  | changed
  | removed
deriving DecidableEq, Inhabited

def EventKind.name : EventKind → String
  | .added => "added"
  | .changed => "changed"
  | .removed => "removed"

inductive Note where
  | event (tag : String) (kind : EventKind) (object : Ref) (id : HashId) (class_ : ObjectClass)
      (name : String)
  | patched (tag : String) (ok : Bool)
  | reaped (tag : String) (ok : Bool)
deriving DecidableEq

end BinaryAtlas
