import BinaryAtlas.Proofs.Session.Notify
import BinaryAtlas.Session.Create

namespace BinaryAtlas.Session

variable {β : Type} {view : Object → β} {fresh : β → Prop}

theorem find_keeps (s : Session) (id : HashId) :
    s.heap.Keeps view fresh (s.find id).2.heap :=
  .refl _

theorem identify_heap (s : Session) (id : Option Uuid) : (s.identify id).2.heap = s.heap := by
  cases id <;> rfl

section

variable (hview : StoreBlind view)

include hview

theorem enter_keeps (s : Session) {o : Object} (ho : fresh (view o)) :
    s.heap.Keeps view fresh (s.enter o).2.heap := by
  unfold enter
  split
  · exact .refl _
  · rename_i registry _
    exact .trans (.alloc ho) (notify_keeps hview
      { s with registry, heap := (s.heap.alloc o).2 } .added s.heap.next)

theorem create_keeps (s : Session) (id : Option Uuid) (name : String) {body : Body}
    (hbody : ∀ uuid, fresh (view (Object.create uuid name body))) :
    s.heap.Keeps view fresh (s.create id name body).2.heap := by
  have hs := enter_keeps hview (s.identify id).2 (hbody (s.identify id).1)
  rw [identify_heap] at hs
  exact hs

theorem reregister_keeps (s : Session) (r : Ref) :
    s.heap.Keeps view fresh (s.reregister r).2.heap := by
  unfold reregister
  split
  · exact .refl _
  · split
    · exact .refl _
    · rename_i registry _
      exact notify_keeps hview { s with registry } .added r

theorem discard_keeps (s : Session) (id : HashId) :
    s.heap.Keeps view fresh (s.discard id).2.heap := by
  unfold discard
  split
  · rename_i hfind
    exact keeps_of_eq hfind (find_keeps s id)
  · rename_i s₁ hfind
    have hs₁ : s.heap.Keeps view fresh s₁.heap := keeps_of_eq hfind (find_keeps s id)
    split
    · split
      · rename_i hremove
        exact hs₁.trans (keeps_of_eq hremove (unregister_keeps hview s₁ id))
      · rename_i hremove
        exact hs₁.trans (keeps_of_eq hremove (unregister_keeps hview s₁ id))
    · exact hs₁

theorem unregisterObject_keeps (s : Session) (r : Ref) :
    s.heap.Keeps view fresh (s.unregisterObject r).heap := by
  unfold unregisterObject
  split
  · exact unregister_keeps hview s _
  · exact .refl _

theorem makeImage_keeps (s : Session) (id : Option Uuid) (name : String) (globals : Ref)
    (source : Source) (choice : AnalyserChoice)
    (hbody : ∀ uuid i, fresh (view (Object.create uuid name (.image i)))) :
    s.heap.Keeps view fresh (s.makeImage id name globals source choice).2.heap := by
  unfold makeImage
  split
  · exact .refl _
  · split
    · exact .refl _
    · exact create_keeps hview s id name fun uuid => hbody uuid _

end

end BinaryAtlas.Session
