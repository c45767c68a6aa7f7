import BinaryAtlas.Proofs.Session.Announcement
import BinaryAtlas.Proofs.Session.Moves

namespace BinaryAtlas

namespace Heap

variable {h : Heap} {r p : Ref}

def Patched (h h' : Heap) : Prop :=
  ∀ q o, h.get? q = some o → ∃ o', h'.get? q = some o' ∧ o.Patched o'

end Heap

namespace Session

variable {s asked : Session} {c : Command} {r p : Ref} {o : Object} {handle : String}
  {edit : Ref → Object → Object}

def Names (s : Session) (class_ : ObjectClass) (handle : String) : Prop :=
  ∃ r, s.handle? handle = some r ∧ s.heap.class? r = some class_

/-- When the observers are told every object has been edited, and nothing else is different. -/
structure Told (s told : Session) (edit : Ref → Object → Object) : Prop where
  objects : ∀ p, told.heap.get? p = (s.heap.get? p).map (edit p)
  answers : ∀ id, told.registry.get? told.live id = s.registry.get? s.live id
  rest : told = { s with heap := told.heap, registry := told.registry }

theorem Names.exists_get? {class_ : ObjectClass} (h : s.Names class_ handle) :
    ∃ r o, s.handle? handle = some r ∧ s.heap.get? r = some o ∧ o.body.classOf = class_ := by
  obtain ⟨r, hr, hclass⟩ := h
  obtain ⟨o, ho, hc⟩ := Option.map_eq_some_iff.mp hclass
  exact ⟨r, o, hr, ho, hc⟩

theorem Reads.told {after : Heap} (h : s.Reads asked)
    (hobjects : ∀ p, after.get? p = (s.heap.get? p).map (edit p))
    (hclass : ∀ p o, s.heap.get? p = some o → (edit p o).classOf = o.classOf) :
    s.Told { asked with heap := after } edit := by
  have hlive : Session.live { asked with heap := after } = s.live := by
    funext p
    simp only [Session.live, Heap.class?, hobjects p]
    cases ho : s.heap.get? p with
    | none => rfl
    | some o => exact congrArg some (hclass p o ho)
  constructor
  case objects => exact hobjects
  case answers =>
    intro id
    rw [hlive]
    exact h.answers id
  case rest =>
    rw [h.rest]

end Session

end BinaryAtlas
