import BinaryAtlas.Proofs.Nesting.Heap
import BinaryAtlas.Proofs.Session.Frame

namespace BinaryAtlas

namespace Session

abbrev Quiet (s s' : Session) : Prop := s.heap.Keeps (fun o => o.body.nesting?) Unnested s'.heap

theorem unnested_of_table? {b : Body} (hb : b.table? = none) : Unnested b.nesting? := by
  simp [Unnested, Body.nesting?, hb]

theorem unnested_table : Unnested (Body.table {}).nesting? := by
  intro x hx
  cases hx
  rfl

theorem nesting?_of_classOf {b : Body} (hb : b.classOf ≠ .symbolTable) : b.nesting? = none := by
  cases b with
  | table t => exact absurd rfl hb
  | _ => rfl

theorem aloof_nesting : Aloof (fun o => o.body.nesting?) Unnested where
  labels _ _ _ _ := rfl
  leaf o b hb htable _ := by
    rw [nesting?_of_classOf htable, nesting?_of_classOf (hb ▸ htable)]
  entries o t symbols hb := by
    rw [hb]
    rfl
  lone o ho := by
    cases hb : o.body with
    | table t =>
      rw [hb] at ho
      rintro x ⟨⟩
      exact Prod.ext ho.1 ho.2
    | _ => exact unnested_of_table? rfl

theorem notify_quiet (s : Session) (kind : EventKind) (r : Ref) : s.Quiet (s.notify kind r) :=
  aloof_nesting.notify s kind r

theorem readMeta_quiet (s : Session) (r : Ref) (record : Json) : s.Quiet (s.readMeta r record) :=
  aloof_nesting.readMeta s r record

theorem addSymbol_quiet (s : Session) (table : Ref) (offset : Nat) (symbol : Ref) :
    s.Quiet (s.addSymbol table offset symbol).2 :=
  aloof_nesting.addSymbol s table offset symbol

section

variable {s : Session} {r : Ref} {images : List Ref} (himages : s.heap.images? r = some images)

include himages

theorem setImages_quiet (images' : List Ref) : s.Quiet (s.setBody r (.space images')) := by
  obtain ⟨o, ho, hb⟩ := Option.bind_eq_some_iff.mp himages
  rw [Body.images?_eq_some_iff] at hb
  refine .modify fun o' ho' => ?_
  cases ho.symm.trans ho'
  rw [hb]
  rfl

theorem updateImages_quiet (images' : List Ref) : s.Quiet (s.updateBody r (.space images')) :=
  (setImages_quiet himages images').trans (notify_quiet _ .changed r)

end

theorem addImage_quiet (s : Session) (space image : Ref) : s.Quiet (s.addImage space image).2 := by
  unfold addImage
  split
  · rename_i images id himages _
    split
    · exact .refl _
    · exact updateImages_quiet himages _
  · exact .refl _

theorem removeImage_quiet (s : Session) (space : Ref) (id : HashId) :
    s.Quiet (s.removeImage space id).2 := by
  unfold removeImage
  split
  · exact .refl _
  · rename_i images himages
    split
    · exact .refl _
    · exact updateImages_quiet himages _

theorem restoreSpace_quiet {s : Session} {r : Ref} {o : Object} {images : List Ref}
    (ho : s.heap.get? r = some o) (hb : o.body = .space images) (record : Json) :
    s.Quiet (s.restoreSpace r record).2 := by
  unfold restoreSpace
  split
  · exact .refl _
  · rename_i items _
    have hreads := readEach_reads (readId_reads .image .imageId) s items
    split
    · rename_i s₁ hfail
      rw [hfail] at hreads
      rw [Quiet, hreads.heap]
      exact .refl _
    · rename_i found s₁ hdone
      rw [hdone] at hreads
      rw [← hreads.heap] at ho
      have himages : (s₁.readMeta r record).heap.images? r = some images := by
        rw [Heap.images?, get?_readMeta ho, if_pos rfl]
        simp [Object.readMeta, hb, Body.images?]
      rw [Quiet, ← hreads.heap]
      exact (readMeta_quiet s₁ r record).trans (setImages_quiet himages found)

end Session

def Command.renests : Command → Bool
  | .addChild _ _ => true
  | .removeChild _ _ => true
  | _ => false

namespace Session

def restoresTable (s : Session) : Command → Bool
  | .restore object _ => ((s.handle? object).bind s.heap.table?).isSome
  | _ => false

theorem perform_quiet (s : Session) (c : Command) (hc : c.renests = false)
    (hr : s.restoresTable c = false) : s.Quiet (s.perform c).2 := by
  apply aloof_nesting.perform
  case harranges =>
    intro harranges
    cases c with
    | addImage space image =>
      exact withHandle_keeps fun r _ => withHandle_keeps fun i _ => addImage_quiet s r i
    | removeImage space image => exact withHandle_keeps fun r _ => removeImage_quiet s r image
    | addChild => cases hc
    | removeChild => cases hc
    | _ => cases harranges
  case hrestores =>
    rintro object record r rfl hhandle
    apply aloof_nesting.restore
    case htable =>
      intro o t ho hb
      simp [restoresTable, hhandle, Heap.table?, ho, hb, Body.table?] at hr
    case hspace =>
      intro o images ho hb
      exact restoreSpace_quiet ho hb record

end Session

end BinaryAtlas
