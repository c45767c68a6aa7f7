import BinaryAtlas.Object

/-!
The live objects. An object lives as long as something owns it: a handle outside the heap, or
another live object. When its last owner goes it dies, and so in turn does what only it owned;
objects that own each other in a circle keep each other alive.
-/

namespace BinaryAtlas

structure Heap where
  objects : KeyMap Object
  next : Ref
  unused : ∀ r, next ≤ r → objects.get? r = none

namespace Heap

def empty : Heap := ⟨.empty, 0, fun _ _ => rfl⟩

instance : Inhabited Heap := ⟨empty⟩

def get? (h : Heap) (r : Ref) : Option Object := h.objects.get? r

def alloc (h : Heap) (o : Object) : Ref × Heap :=
  (h.next,
   { objects := h.objects.insert h.next o
     next := h.next + 1
     unused := fun r hr => by
      rw [KeyMap.get?_insert, if_neg (Nat.ne_of_gt hr)]
      exact h.unused r (Nat.le_of_succ_le hr) })

def modify (h : Heap) (r : Ref) (f : Object → Object) : Heap :=
  { h with
    objects := h.objects.modify r f
    unused := fun q hq => by
      rw [KeyMap.get?_modify, h.unused q hq]
      exact ite_self none }

def setBody (h : Heap) (r : Ref) (b : Body) : Heap := h.modify r fun o => { o with body := b }

def class? (h : Heap) (r : Ref) : Option ObjectClass := (h.get? r).map (·.classOf)

def name? (h : Heap) (r : Ref) : Option String := (h.get? r).map (·.name)

def id? (h : Heap) (r : Ref) : Option HashId := (h.get? r).map (·.id)

def kind? (h : Heap) (r : Ref) : Option TypeKind := (h.get? r).bind (·.body.kind?)

def symbol? (h : Heap) (r : Ref) : Option Symbol := (h.get? r).bind (·.body.symbol?)

def table? (h : Heap) (r : Ref) : Option SymbolTable := (h.get? r).bind (·.body.table?)

def image? (h : Heap) (r : Ref) : Option Image := (h.get? r).bind (·.body.image?)

def images? (h : Heap) (r : Ref) : Option (List Ref) := (h.get? r).bind (·.body.images?)

def size (h : Heap) : Nat := h.objects.size

def isOwned (h : Heap) (r : Ref) : Bool := h.objects.values.any fun o => o.body.owned.contains r

def sweep (h : Heap) (roots : List Ref) : Heap :=
  { h with
    objects := h.objects.filter fun r _ => roots.contains r || h.isOwned r
    unused := fun r hr => by
      rw [KeyMap.get?_filter, h.unused r hr]
      rfl }

/-- Lets all objects die that only dead ones own, given the references held outside. -/
def release (h : Heap) (roots : List Ref) : Heap :=
  if (h.sweep roots).size < h.size then release (h.sweep roots) roots else h
termination_by h.size

theorem lt_next {h : Heap} {r : Ref} {o : Object} (hr : h.get? r = some o) : r < h.next := by
  apply Nat.lt_of_not_le
  intro hn
  rw [get?, h.unused r hn] at hr
  cases hr

theorem get?_alloc (h : Heap) (o : Object) (r : Ref) :
    (h.alloc o).2.get? r = if r = h.next then some o else h.get? r :=
  KeyMap.get?_insert h.objects h.next r o

theorem get?_modify (h : Heap) (r : Ref) (f : Object → Object) (q : Ref) :
    (h.modify r f).get? q = if q = r then (h.get? q).map f else h.get? q :=
  KeyMap.get?_modify h.objects r f q

theorem get?_sweep (h : Heap) (roots : List Ref) (r : Ref) :
    (h.sweep roots).get? r = (h.get? r).filter fun _ => roots.contains r || h.isOwned r :=
  KeyMap.get?_filter h.objects _ r

theorem isOwned_of_get? {h : Heap} {p c : Ref} {o : Object} (hp : h.get? p = some o)
    (hc : c ∈ o.body.owned) : h.isOwned c = true := by
  rw [isOwned, List.any_eq_true]
  exact ⟨o, KeyMap.mem_values_of_get? hp, by simpa using hc⟩

theorem next_release (h : Heap) (roots : List Ref) : (h.release roots).next = h.next := by
  fun_induction release h roots with
  | case1 h _ ih => exact ih
  | case2 h _ => rfl

theorem get?_of_release {h : Heap} {roots : List Ref} {r : Ref} {o : Object}
    (hr : (h.release roots).get? r = some o) : h.get? r = some o := by
  fun_induction release h roots with
  | case1 h _ ih =>
    have hs := ih hr
    rw [get?_sweep] at hs
    exact (Option.filter_eq_some_iff.mp hs).1
  | case2 h _ => exact hr

theorem get?_release_of_owned {h : Heap} {roots : List Ref} {p c : Ref} {o : Object}
    (hp : (h.release roots).get? p = some o) (hc : c ∈ o.body.owned) :
    (h.release roots).get? c = h.get? c := by
  fun_induction release h roots with
  | case1 h _ ih =>
    have hs : (h.sweep roots).get? p = some o := get?_of_release hp
    rw [get?_sweep] at hs
    have howned := isOwned_of_get? (Option.filter_eq_some_iff.mp hs).1 hc
    rw [ih hp, get?_sweep, howned]
    cases h.get? c <;> simp [Option.filter]
  | case2 h _ => rfl

theorem get?_release_of_root {h : Heap} {roots : List Ref} {r : Ref} (hr : r ∈ roots) :
    (h.release roots).get? r = h.get? r := by
  fun_induction release h roots with
  | case1 h _ ih =>
    rw [ih, get?_sweep]
    cases h.get? r <;> simp [Option.filter, hr]
  | case2 h _ => rfl

end Heap

end BinaryAtlas
