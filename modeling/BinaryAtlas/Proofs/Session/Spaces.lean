import BinaryAtlas.Proofs.Session.Refusal
import BinaryAtlas.Proofs.Session.Registration

namespace BinaryAtlas

def Json.imageIds (record : Json) : List HashId :=
  (((record.get? "images").bind Json.arr?).getD []).filterMap Json.word?

def Object.listing (o : Object) : HashId × List Ref := (o.id, o.body.images?.getD [])

def Unlisted (v : HashId × List Ref) : Prop := v.2 = []

namespace Heap

variable {h h' : Heap} {r q : Ref}

def images (h : Heap) (r : Ref) : List Ref := (h.images? r).getD []

def listed (h : Heap) (r : Ref) : List (Option HashId) := (h.images r).map h.id?

def Whole (h : Heap) : Prop := ∀ r, ∀ q ∈ h.images r, (h.get? q).isSome = true

theorem images_eq_listing (h : Heap) (r : Ref) :
    h.images r = ((h.get? r).map fun o => o.listing.2).getD [] := by
  rw [images, images?]
  cases h.get? r <;> rfl

theorem listed_of_images? {images : List Ref} (hr : h.images? r = some images) :
    h.listed r = images.map h.id? := by
  rw [listed, Heap.images, hr]
  rfl

theorem images_setSpace (hr : (h.get? r).isSome = true) (images : List Ref) (q : Ref) :
    (h.setBody r (.space images)).images q = if q = r then images else h.images q := by
  obtain ⟨o, ho⟩ := Option.isSome_iff_exists.mp hr
  rw [Heap.images, images?, get?_setBody ho]
  split <;> rfl

theorem id?_setBody (h : Heap) (r : Ref) (b : Body) (q : Ref) : (h.setBody r b).id? q = h.id? q := by
  rw [id?, id?, setBody, get?_modify]
  split
  · rw [Option.map_map]
    rfl
  · rfl

theorem listed_setSpace (hr : (h.get? r).isSome = true) (images : List Ref) (q : Ref) :
    (h.setBody r (.space images)).listed q = if q = r then images.map h.id? else h.listed q := by
  rw [listed, images_setSpace hr, funext (id?_setBody h r _)]
  split <;> rfl

theorem Whole.setSpace (hw : h.Whole) (hr : (h.get? r).isSome = true) {images : List Ref}
    (himages : ∀ q ∈ images, (h.get? q).isSome = true) : (h.setBody r (.space images)).Whole := by
  intro p q hq
  have hlive : (h.get? q).isSome = true := by
    rw [images_setSpace hr] at hq
    split at hq
    · exact himages q hq
    · exact hw p q hq
  rw [setBody, get?_modify]
  split
  · rw [Option.isSome_map, hlive]
  · exact hlive

theorem listed_release (h : Heap) (roots : List Ref) (r : Ref) :
    (h.release roots).listed r =
      if ((h.release roots).get? r).isSome = true then h.listed r else [] := by
  cases ho : (h.release roots).get? r with
  | none => rw [listed, images_eq_listing, ho]; rfl
  | some o =>
    have himages : (h.release roots).images r = h.images r := by
      rw [images_eq_listing, images_eq_listing, ho, get?_of_release ho]
    rw [if_pos Option.isSome_some, listed, listed, himages]
    refine List.map_congr_left fun q hq => ?_
    have howned : q ∈ o.body.owned := by
      rw [← himages, images_eq_listing, ho] at hq
      cases hb : o.body with
      | space images => simpa [Object.listing, hb, Body.images?, Body.owned] using hq
      | _ => simp [Object.listing, hb, Body.images?] at hq
    rw [id?, id?, get?_release_of_owned ho howned]

section

variable (hk : h.Keeps Object.listing Unlisted h')

include hk

theorem images_of_keeps (r : Ref) : h'.images r = h.images r := by
  rw [images_eq_listing, images_eq_listing]
  by_cases hr : r < h.next
  · have hview := congrArg (Option.map Prod.snd) (hk.old r hr)
    rw [Option.map_map, Option.map_map] at hview
    exact congrArg (·.getD []) hview
  · have hnone : h.get? r = none := h.unused r (Nat.not_lt.mp hr)
    rw [hnone]
    cases ho : h'.get? r with
    | none => rfl
    | some o => exact hk.new r o (Nat.not_lt.mp hr) ho

theorem id?_of_keeps (hq : (h.get? q).isSome = true) : h'.id? q = h.id? q := by
  obtain ⟨o, ho⟩ := Option.isSome_iff_exists.mp hq
  obtain ⟨o', ho', hview⟩ := hk.exists_get? ho
  rw [id?, id?, ho, ho']
  exact congrArg (fun v => some v.1) hview

theorem listed_of_keeps (hw : h.Whole) (r : Ref) : h'.listed r = h.listed r := by
  rw [listed, listed, images_of_keeps hk]
  exact List.map_congr_left fun q hq => id?_of_keeps hk (hw r q hq)

theorem keeps_setTable {t : SymbolTable} (ht : h.table? r = some t) (t' : SymbolTable) :
    h.Keeps Object.listing Unlisted (h'.setBody r (.table t')) := by
  refine hk.trans (.modify fun o' ho' => ?_)
  obtain ⟨o, ho, hb⟩ := table?_eq_some_iff.mp ht
  obtain ⟨o₁, ho₁, hview⟩ := hk.exists_get? ho
  cases ho'.symm.trans ho₁
  have himages : o'.listing.2 = [] := by
    rw [hview, Object.listing, hb]
    rfl
  exact Prod.ext rfl himages.symm

end

theorem keeps_adopted (h : Heap) (q : Ref) (cs : List Ref) :
    h.Keeps Object.listing Unlisted (cs.foldl (adopt q) h) := by
  induction cs generalizing h with
  | nil => exact .refl h
  | cons c rest ih =>
    refine Keeps.trans ?_ (ih (adopt q h c))
    unfold adopt
    split
    · exact keeps_setTable (.refl h) ‹_› _
    · exact .refl h

end Heap

namespace Session

variable {s s' : Session} {r q : Ref} {id : HashId} {record : Json} {c : Command}

theorem images?_of_classOf {b : Body} (hb : b.classOf ≠ .addressSpace) : b.images? = none := by
  cases b with
  | space images => exact absurd rfl hb
  | _ => rfl

theorem aloof_listing : Aloof Object.listing Unlisted where
  labels _ _ _ _ := rfl
  leaf o b hb _ hspace := by
    rw [Object.listing, Object.listing, images?_of_classOf hspace, images?_of_classOf (hb ▸ hspace)]
  entries o t symbols hb := by
    rw [Object.listing, Object.listing, hb]
    rfl
  lone o ho := by
    rw [Unlisted, Object.listing]
    cases hb : o.body with
    | space images =>
      rw [hb] at ho
      exact ho
    | _ => rfl

theorem setParent_keeps (s : Session) (child : Ref) (parent : Option Ref) :
    s.heap.Keeps Object.listing Unlisted (s.setParent child parent).heap := by
  unfold setParent
  split
  · exact .refl _
  · exact Heap.keeps_setTable (.refl _) ‹_› _

theorem addChild_keeps (s : Session) (table child : Ref) :
    s.heap.Keeps Object.listing Unlisted (s.addChild table child).2.heap := by
  unfold addChild
  split
  · rename_i t _ _ ht _ _
    split
    · exact .refl _
    · have hk := Heap.keeps_setTable (setParent_keeps s child (some table)) ht
        { t with children := t.children ++ [child] }
      exact hk.trans (aloof_listing.notify (setBody _ table _) .changed table)
  · exact .refl _

theorem removeChild_keeps (s : Session) (table : Ref) (id : HashId) :
    s.heap.Keeps Object.listing Unlisted (s.removeChild table id).2.heap := by
  unfold removeChild
  split
  · exact .refl _
  · rename_i t ht
    split
    · exact .refl _
    · rename_i child _
      have hset := Heap.keeps_setTable (.refl s.heap) ht
        { t with children := t.children.erase child }
      have hparent := hset.trans (setParent_keeps (s.setBody table _) child none)
      exact hparent.trans (aloof_listing.notify _ .changed table)

theorem restoreTable_keeps (hr : (s.heap.table? r).isSome = true) (id : HashId) (record : Json) :
    s.heap.Keeps Object.listing Unlisted (s.restoreTable r id record).2.heap := by
  rcases restoreTable_cases s r id record with
    ⟨e, s₁, hrun, hreads, _⟩ | ⟨symbols, cs, q, s₁, s₂, hrun, hreads, _, _, _, hs₂⟩
  · rw [hrun, hreads.heap]
    exact .refl _
  · rw [hrun, ← hreads.heap]
    rw [← hreads.heap] at hr
    have hrehomed : s₁.heap.Keeps Object.listing Unlisted (s₁.rehomed r q cs record).heap :=
      (Heap.keeps_adopted s₁.heap q cs).trans
        (aloof_listing.readMeta { s₁ with heap := cs.foldl (Heap.adopt q) s₁.heap } r record)
    obtain ⟨t, ht⟩ := Option.isSome_iff_exists.mp
      ((isSome_table?_rehomed s₁ r q cs record r).trans hr)
    rw [hs₂ t ht]
    have hset := Heap.keeps_setTable (.refl _) ht
      { t with symbols := .ofList symbols, children := cs }
    exact (hrehomed.trans hset).trans
      (aloof_listing.notify ((s₁.rehomed r q cs record).setBody r _) .changed r)

def Takes (s : Session) (c : Command) (r : Ref) (record : Json) : Prop :=
  ∃ object, c = .restore object record ∧ s.handle? object = some r ∧
    (s.heap.images? r).isSome = true ∧ (s.restore r record).1 = .ok ()

def Lists (s : Session) (c : Command) (r : Ref) (id : HashId) : Prop :=
  (∃ record, s.Takes c r record ∧ id ∈ record.imageIds) ∨
    ∃ space image i, c = .addImage space image ∧ s.handle? space = some r ∧
      s.handle? image = some i ∧ s.heap.id? i = some id ∧ (s.addImage r i).1 = true

def Repeats (s : Session) (c : Command) : Prop :=
  ∃ r record, s.Takes c r record ∧ ¬ record.imageIds.Nodup

inductive Relists (s : Session) (c : Command) (r : Ref) : List (Option HashId) → Prop
  | kept : Relists s c r (s.heap.listed r)
  | gone : Relists s c r []
  | added {id : HashId} (lists : s.Lists c r id) (new : some id ∉ s.heap.listed r) :
      Relists s c r (s.heap.listed r ++ [some id])
  | removed (id : HashId) : Relists s c r ((s.heap.listed r).erase (some id))
  | restored {record : Json} (takes : s.Takes c r record) :
      Relists s c r (record.imageIds.map some)

theorem Intact.whole {fit : ObjectClass → ObjectClass → Prop} (h : s.Intact fit) :
    s.heap.Whole := by
  intro p q hq
  cases himages : s.heap.images? p with
  | none =>
    rw [Heap.images, himages] at hq
    cases hq
  | some images =>
    rw [Heap.images, himages] at hq
    exact (h.parts p (.space images) (Heap.body?_of_images? himages) (.image, q)
      (List.mem_map_of_mem hq)).isSome

theorem isSome_of_images? {images : List Ref} (hr : s.heap.images? r = some images) :
    (s.heap.get? r).isSome = true := by
  obtain ⟨o, ho, _⟩ := Option.bind_eq_some_iff.mp hr
  rw [ho]
  rfl

theorem listed_updateSpace (hw : s.heap.Whole) (hr : (s.heap.get? r).isSome = true)
    {images : List Ref} (himages : ∀ q ∈ images, (s.heap.get? q).isSome = true) (q : Ref) :
    (s.updateBody r (.space images)).heap.listed q =
      if q = r then images.map s.heap.id? else s.heap.listed q := by
  have hk : (s.setBody r (.space images)).heap.Keeps Object.listing Unlisted
      (s.updateBody r (.space images)).heap :=
    aloof_listing.notify (s.setBody r (.space images)) .changed r
  rw [Heap.listed_of_keeps hk (hw.setSpace hr himages)]
  exact Heap.listed_setSpace hr images q

theorem addImage_cases (s : Session) (p i : Ref) :
    s.addImage p i = (false, s) ∨
      ∃ images id, s.heap.images? p = some images ∧ s.heap.id? i = some id ∧
        ¬ (s.withId? images id).isSome = true ∧
        s.addImage p i = (true, s.updateBody p (.space (images ++ [i]))) := by
  unfold addImage
  split
  · rename_i images id himages hid
    split
    · exact .inl rfl
    · exact .inr ⟨images, id, himages, hid, ‹_›, rfl⟩
  · exact .inl rfl

theorem relists_addImage {space image : String} {p i : Ref} (hw : s.heap.Whole)
    (hp : s.handle? space = some p) (hi : s.handle? image = some i) (r : Ref) :
    s.Relists (.addImage space image) r ((s.addImage p i).2.heap.listed r) := by
  rcases addImage_cases s p i with hadd | ⟨images, id, himages, hid, hfree, hadd⟩
  · rw [hadd]
    exact .kept
  · have hlists : s.Lists (.addImage space image) p id :=
      .inr ⟨space, image, i, rfl, hp, hi, hid, by rw [hadd]⟩
    have hlive : ∀ q ∈ images ++ [i], (s.heap.get? q).isSome = true := by
      intro q hq
      rcases List.mem_append.mp hq with hq | hq
      · exact hw p q (by rwa [Heap.images, himages])
      · obtain ⟨o, ho, _⟩ := Option.map_eq_some_iff.mp hid
        rw [List.mem_singleton.mp hq, ho]
        rfl
    rw [hadd, listed_updateSpace hw (isSome_of_images? himages) hlive]
    split
    · rename_i hr
      subst hr
      have hlisted := Heap.listed_of_images? himages
      have hnew : some id ∉ s.heap.listed r := by simpa [hlisted, withId?] using hfree
      rw [List.map_append, ← hlisted, List.map_singleton, hid]
      exact .added hlists hnew
    · exact .kept

theorem map_erase_of_find? {α β : Type} [BEq α] [LawfulBEq α] [BEq β] [LawfulBEq β] {f : α → β}
    {l : List α} {a : α} {b : β} (h : l.find? (fun x => f x == b) = some a) :
    (l.erase a).map f = (l.map f).erase b := by
  induction l with
  | nil => cases h
  | cons x rest ih =>
    have ha : f a = b := by simpa using List.find?_some h
    rw [List.find?_cons] at h
    split at h
    · rename_i hx
      cases h
      simp [ha]
    · rename_i hx
      have hxb : f x ≠ b := by simpa using hx
      have hxa : x ≠ a := fun he => hxb (he ▸ ha)
      simp [hxa, hxb, ih h]

theorem removeImage_cases (s : Session) (p : Ref) (id : HashId) :
    s.removeImage p id = (none, s) ∨
      ∃ images i, s.heap.images? p = some images ∧ s.withId? images id = some i ∧
        s.removeImage p id = (some i, s.updateBody p (.space (images.erase i))) := by
  unfold removeImage
  split
  · exact .inl rfl
  · rename_i images himages
    split
    · exact .inl rfl
    · exact .inr ⟨images, _, himages, ‹_›, rfl⟩

theorem listed_removeImage (hw : s.heap.Whole) {image : Ref}
    (h : (s.removeImage r id).1 = some image) (q : Ref) :
    (s.removeImage r id).2.heap.listed q =
      if q = r then (s.heap.listed r).erase (some id) else s.heap.listed q := by
  rcases removeImage_cases s r id with hremove | ⟨images, i, himages, hi, hremove⟩
  · rw [hremove] at h
    cases h
  · have hlive : ∀ q ∈ images.erase i, (s.heap.get? q).isSome = true := fun q hq =>
      hw r q (by rw [Heap.images, himages]; exact List.mem_of_mem_erase hq)
    rw [hremove, listed_updateSpace hw (isSome_of_images? himages) hlive,
      map_erase_of_find? (f := s.heap.id?) hi, Heap.listed_of_images? himages]

theorem relists_removeImage (hw : s.heap.Whole) (c : Command) (p : Ref) (id : HashId) (r : Ref) :
    s.Relists c r ((s.removeImage p id).2.heap.listed r) := by
  cases h : (s.removeImage p id).1 with
  | none =>
    rcases removeImage_cases s p id with hremove | ⟨_, i, _, _, hremove⟩
    · rw [hremove]
      exact .kept
    · rw [hremove] at h
      cases h
  | some image =>
    rw [listed_removeImage hw h]
    split
    · rename_i hr
      rw [hr]
      exact .removed id
    · exact .kept

theorem id?_of_named? (hf : s.Filing) {c : ObjectClass} {j : Json} (h : s.named? c j = some q) :
    ∃ id, j.word? = some id ∧ s.heap.id? q = some id := by
  obtain ⟨id, hid, hfetch⟩ := named?_eq_some_iff.mp h
  have hentry := (Registry.getAs_eq_ok_iff.mp hfetch).1
  rw [← Registry.get?_eq_index] at hentry
  obtain ⟨o, ho, rfl⟩ := hf.get? hentry
  exact ⟨o.id, hid, by rw [Heap.id?, ho]; rfl⟩

theorem map_id?_of_items? (hf : s.Filing) {images : List Ref}
    (h : items? (s.named? .image) record "images" = some images) :
    images.map s.heap.id? = record.imageIds.map some := by
  obtain ⟨items, hitems, hmap⟩ := Option.bind_eq_some_iff.mp h
  rw [Json.imageIds, hitems, Option.getD_some]
  clear hitems h
  induction items generalizing images with
  | nil =>
    cases hmap
    rfl
  | cons j rest ih =>
    rw [List.mapM_cons] at hmap
    obtain ⟨i, hi, hmap⟩ := Option.bind_eq_some_iff.mp hmap
    obtain ⟨more, hmore, hmap⟩ := Option.bind_eq_some_iff.mp hmap
    cases hmap
    obtain ⟨id, hid, hiid⟩ := id?_of_named? hf hi
    rw [List.map_cons, List.filterMap_cons_some hid, List.map_cons, hiid, ih hmore]

theorem restoreSpace_handles (s : Session) (r : Ref) (record : Json) :
    (s.restoreSpace r record).2.handles = s.handles := by
  rcases restoreSpace_cases s r record with ⟨e, s₁, hrun, hreads, _⟩ | ⟨images, s₁, hrun, hreads, _⟩
  · rw [hrun, hreads.handles]
  · rw [hrun]
    exact hreads.handles

theorem listed_restoreSpace (hw : s.heap.Whole) (hf : s.Filing)
    (hr : (s.heap.get? r).isSome = true) (h : (s.restoreSpace r record).1 = .ok ()) (q : Ref) :
    (s.restoreSpace r record).2.heap.listed q =
      if q = r then record.imageIds.map some else s.heap.listed q := by
  rcases restoreSpace_cases s r record with
    ⟨e, s₁, hrun, _⟩ | ⟨images, s₁, hrun, hreads, himages⟩
  · rw [hrun] at h
    cases h
  · have hk := aloof_listing.readMeta s₁ r record
    have hlive : ∀ i ∈ images, (s₁.heap.get? i).isSome = true := fun i hi => by
      rw [hreads.heap]
      exact (stands_of_items? (fun _ => rfl) himages i hi).isSome
    rw [← hreads.heap] at hw hr
    have hids : images.map (s₁.readMeta r record).heap.id? = record.imageIds.map some := by
      rw [← map_id?_of_items? hf himages, ← hreads.heap]
      exact List.map_congr_left fun i hi => Heap.id?_of_keeps hk (hlive i hi)
    rw [hrun]
    show ((s₁.readMeta r record).heap.setBody r (.space images)).listed q = _
    rw [Heap.listed_setSpace (isSome_of_keeps hk hr), hids, Heap.listed_of_keeps hk hw, hreads.heap]

theorem restore_of_images? {images : List Ref} (hr : s.heap.images? r = some images)
    (record : Json) : s.restore r record = s.restoreSpace r record := by
  obtain ⟨o, ho, hb⟩ := Option.bind_eq_some_iff.mp hr
  rw [Body.images?_eq_some_iff] at hb
  simp only [restore, ho, hb]

theorem relists_of_keeps (hw : s.heap.Whole) (hk : s.heap.Keeps Object.listing Unlisted s'.heap)
    (c : Command) (r : Ref) : s.Relists c r (s'.heap.listed r) := by
  rw [Heap.listed_of_keeps hk hw]
  exact .kept

theorem relists_restore {object : String} {p : Ref} (hw : s.heap.Whole) (hf : s.Filing)
    (hp : s.handle? object = some p) (record : Json) (r : Ref) :
    s.Relists (.restore object record) r ((s.restore p record).2.heap.listed r) := by
  cases himages : s.heap.images? p with
  | none =>
    apply relists_of_keeps hw
    apply aloof_listing.restore
    case htable =>
      intro o t ho hb
      exact restoreTable_keeps (by simp [Heap.table?, ho, hb, Body.table?]) o.id record
    case hspace =>
      intro o images ho hb
      simp [Heap.images?, ho, hb, Body.images?] at himages
  | some images =>
    have hrestore := restore_of_images? himages record
    cases hdone : (s.restoreSpace p record).1 with
    | error e =>
      rcases restoreSpace_cases s p record with ⟨e, s₁, hrun, hreads, _⟩ | ⟨_, s₁, hrun, _⟩
      · rw [hrestore, hrun, hreads.heap]
        exact .kept
      · rw [hrun] at hdone
        cases hdone
    | ok done =>
      rw [hrestore, listed_restoreSpace hw hf (isSome_of_images? himages) hdone]
      split
      · rename_i hr
        subst hr
        exact .restored ⟨object, rfl, hp, by rw [himages]; rfl, hrestore ▸ hdone⟩
      · exact .kept

theorem withHandle_relists {handle : String} {next : Ref → Outcome}
    (hnext : ∀ p, s.handle? handle = some p → s.Relists c r ((next p).2.heap.listed r)) :
    s.Relists c r ((s.withHandle handle next).2.heap.listed r) :=
  withHandle_elim (P := fun s' => s.Relists c r (s'.heap.listed r)) .kept hnext

theorem relists_perform (hw : s.heap.Whole) (hf : s.Filing) (c : Command) (r : Ref) :
    s.Relists c r ((s.perform c).2.heap.listed r) := by
  cases c with
  | addImage space image =>
    exact withHandle_relists fun p hp => withHandle_relists fun i hi => relists_addImage hw hp hi r
  | removeImage space id =>
    exact withHandle_relists fun p _ => relists_removeImage hw _ p id r
  | restore object record =>
    refine withHandle_relists fun p hp => ?_
    rw [answerUnit_snd]
    exact relists_restore hw hf hp record r
  | addChild table child =>
    exact relists_of_keeps hw
      (withHandle_keeps fun t _ => withHandle_keeps fun u _ => addChild_keeps s t u) _ r
  | removeChild table child =>
    exact relists_of_keeps hw (withHandle_keeps fun t _ => removeChild_keeps s t child) _ r
  | _ =>
    apply relists_of_keeps hw
    apply aloof_listing.perform
    case harranges => nofun
    case hrestores => rintro _ _ _ ⟨⟩

theorem listed_settle (s : Session) (r : Ref) : s.settle.heap.listed r =
    if (s.settle.heap.get? r).isSome = true then s.heap.listed r else [] :=
  Heap.listed_release s.heap _ r

theorem relists_run (hs : s.Reachable) (c : Command) (r : Ref) :
    s.Relists c r ((s.run c).2.heap.listed r) := by
  have hperform := relists_perform hs.intact.whole hs.filing c r
  show s.Relists c r ((s.perform c).2.settle.heap.listed r)
  rw [listed_settle]
  split
  · exact hperform
  · exact .gone

theorem listed_of_takes (hs : s.Reachable) (h : s.Takes c r record) :
    (s.run c).2.heap.listed r = record.imageIds.map some := by
  obtain ⟨object, rfl, hr, hspace, hdone⟩ := h
  obtain ⟨images, himages⟩ := Option.isSome_iff_exists.mp hspace
  have hlive := isSome_of_images? himages
  have hperform : (s.perform (.restore object record)).2 = (s.restoreSpace r record).2 := by
    simp only [perform, withHandle, hr]
    rw [answerUnit_snd, restore_of_images? himages]
  rw [restore_of_images? himages] at hdone
  have hroot : r ∈ (s.restoreSpace r record).2.handles.map (·.2) := by
    rw [restoreSpace_handles]
    exact mem_roots_of_handle? hr
  have hsurvives : ((s.restoreSpace r record).2.settle.heap.get? r).isSome = true := by
    have hmoves : s.Moves Eq (s.restoreSpace r record).2 :=
      moves_restoreSpace (fun _ => rfl) (Heap.body?_of_images? himages) record
    rw [settle, Heap.get?_release_of_root hroot]
    exact isSome_of_keeps hmoves.keeps hlive
  show (s.perform (.restore object record)).2.settle.heap.listed r = _
  rw [hperform, listed_settle, if_pos hsurvives,
    listed_restoreSpace hs.intact.whole hs.filing hlive hdone, if_pos rfl]

def Distinct (s : Session) : Prop := ∀ r, (s.heap.listed r).Nodup

theorem distinct_initial (config : Config) (supply : Nat → Uuid) :
    (initial config supply).Distinct := fun _ => .nil

section

variable {l : List (Option HashId)} (h : s.Relists c r l)

include h

theorem Relists.nodup (hd : (s.heap.listed r).Nodup) (hc : ¬ s.Repeats c) : l.Nodup := by
  cases h with
  | kept => exact hd
  | gone => exact .nil
  | added _ new =>
    rw [← List.concat_eq_append]
    exact hd.concat new
  | removed id => exact hd.erase _
  | restored takes =>
    have hnodup := not_not.mp fun h => hc ⟨r, _, takes, h⟩
    exact hnodup.map (Option.some_injective _)

theorem Relists.not_mem (hr : some id ∉ s.heap.listed r) (hc : ¬ s.Lists c r id) :
    some id ∉ l := by
  cases h with
  | kept => exact hr
  | gone => exact List.not_mem_nil
  | added lists _ =>
    intro hmem
    rcases List.mem_append.mp hmem with hold | hnew
    · exact hr hold
    · cases List.mem_singleton.mp hnew
      exact hc lists
  | removed _ => exact fun hmem => hr (List.mem_of_mem_erase hmem)
  | restored takes =>
    intro hmem
    obtain ⟨id', hid, heq⟩ := List.mem_map.mp hmem
    cases heq
    exact hc (.inl ⟨_, takes, hid⟩)

end

theorem distinct_run_iff (hs : s.Reachable) (hd : s.Distinct) :
    (s.run c).2.Distinct ↔ ¬ s.Repeats c := by
  constructor
  · rintro hdistinct ⟨r, record, takes, hrepeated⟩
    have hnodup := hdistinct r
    rw [listed_of_takes hs takes] at hnodup
    exact hrepeated hnodup.of_map
  · intro hc r
    exact (relists_run hs c r).nodup (hd r) hc

theorem not_mem_listed_removed (hs : s.Reachable) (hd : s.Distinct) {space : String} {image : Ref}
    (hr : s.handle? space = some r) (h : (s.removeImage r id).1 = some image) :
    some id ∉ (s.run (.removeImage space id)).2.heap.listed r := by
  have hperform : (s.perform (.removeImage space id)).2 = (s.removeImage r id).2 := by
    simp only [perform, withHandle, hr]
    rfl
  show some id ∉ (s.perform (.removeImage space id)).2.settle.heap.listed r
  rw [hperform, listed_settle, listed_removeImage hs.intact.whole h, if_pos rfl]
  split
  · exact (hd r).not_mem_erase
  · exact List.not_mem_nil

theorem id?_ne_of_imageAt? (hr : some id ∉ s.heap.listed r) {offset : Nat}
    (h : s.imageAt? r offset = some q) : s.heap.id? q ≠ some id := by
  intro hid
  have hmem : q ∈ s.heap.images r := List.mem_of_find?_eq_some h
  exact hr (hid ▸ List.mem_map_of_mem hmem)

def after (s : Session) (commands : List Command) : Session :=
  commands.foldl (fun s c => (s.run c).2) s

theorem Reachable.after {commands : List Command} (hs : s.Reachable)
    (hfits : ∀ c ∈ commands, c.Fits) (n : Nat) : (s.after (commands.take n)).Reachable :=
  hs.runs fun c hc => hfits c (List.mem_of_mem_take hc)

theorem after_take_succ {commands : List Command} {n : Nat} (hc : commands[n]? = some c) :
    s.after (commands.take (n + 1)) = ((s.after (commands.take n)).run c).2 := by
  rw [List.take_add_one, hc]
  exact List.foldl_append

theorem after_take_induction {P : Session → Prop} {commands : List Command} (start : P s)
    (step : ∀ n c, commands[n]? = some c → P (s.after (commands.take n)) →
      P ((s.after (commands.take n)).run c).2) (n : Nat) : P (s.after (commands.take n)) := by
  induction n with
  | zero => exact start
  | succ n ih =>
    cases hc : commands[n]? with
    | none =>
      rw [List.take_add_one, hc, Option.toList_none, List.append_nil]
      exact ih
    | some c =>
      rw [after_take_succ hc]
      exact step n c hc ih

/-- All along a run no space lists an image twice, exactly if no record that is taken on the way
names one twice. An image that is taken out then stays out until a command puts it in again. -/
theorem spaces_distinct_iff (s : Session) (hs : s.Reachable) (hd : s.Distinct)
    (commands : List Command) (hfits : ∀ c ∈ commands, c.Fits) :
    ((∀ n, (s.after (commands.take n)).Distinct) ↔
      ∀ n c, commands[n]? = some c → ¬ (s.after (commands.take n)).Repeats c) ∧
    ∀ space r id image, s.handle? space = some r → (s.removeImage r id).1 = some image →
      let t := (s.run (.removeImage space id)).2
      (∀ n c, commands[n]? = some c → ¬ (t.after (commands.take n)).Lists c r id) →
        some id ∉ (t.after commands).heap.listed r ∧
          ∀ offset q, (t.after commands).imageAt? r offset = some q →
            (t.after commands).heap.id? q ≠ some id := by
  refine ⟨⟨fun hall n c hc => ?_, fun hnone => ?_⟩, fun space r id image hr himage => ?_⟩
  · rw [← distinct_run_iff (hs.after hfits n) (hall n), ← after_take_succ hc]
    exact hall (n + 1)
  · exact after_take_induction hd fun n c hc hn =>
      (distinct_run_iff (hs.after hfits n) hn).mpr (hnone n c hc)
  · intro t hnone
    have ht : t.Reachable := hs.run (.removeImage space id) trivial
    have hnot := after_take_induction (P := fun s => some id ∉ s.heap.listed r)
      (not_mem_listed_removed hs hd hr himage)
      (fun n c hc hn => (relists_run (ht.after hfits n) c r).not_mem hn (hnone n c hc))
      commands.length
    rw [List.take_length] at hnot
    exact ⟨hnot, fun offset q => id?_ne_of_imageAt? hnot⟩

def imagesRecord (ids : List HashId) : Json := .obj [("images", .arr (ids.map .natural))]

def oneImageCommands : List Command :=
  [ .makeTable "globals" (some ⟨1⟩) "globals",
    .makeImage "plain" (some ⟨2⟩) "plain" "globals" (.memory { bytes := [1, 2] })
      (.given (.flat 0)),
    .analyse "plain", .makeSpace "process" (some ⟨3⟩) "process", .addImage "process" "plain"]

def oneImageSpace : Session := (initial {} Uuid.mk).after oneImageCommands

theorem oneImageSpace_emptied :
    let id := HashId.of "Image" ⟨2⟩
    let commands : List Command := [.drop "plain", .restore "process" (imagesRecord [])]
    oneImageSpace.heap.listed 2 = [some id] ∧ oneImageSpace.imageAt? 2 1 = some 1 ∧
      (oneImageSpace.removeImage 2 id).1 = some 1 ∧
      (∀ n, (oneImageSpace.after (commands.take n)).Distinct) ∧
      some id ∉ ((oneImageSpace.run (.removeImage "process" id)).2.after commands).heap.listed 2 := by
  intro id commands
  have hfits : ∀ c ∈ oneImageCommands, c.Fits := by
    simp [oneImageCommands, Command.Fits, Analyser.fits_flat]
  have hstate : oneImageSpace.heap.listed 2 = [some id] ∧ oneImageSpace.imageAt? 2 1 = some 1 ∧
      oneImageSpace.handle? "process" = some 2 ∧ (oneImageSpace.removeImage 2 id).1 = some 1 := by
    decide +kernel
  have hs : oneImageSpace.Reachable := (Reachable.initial {} Uuid.mk).runs hfits
  have hd : oneImageSpace.Distinct := by
    refine (spaces_distinct_iff (initial {} Uuid.mk) (.initial {} Uuid.mk)
      (distinct_initial {} Uuid.mk) oneImageCommands hfits).1.mpr ?_ 5
    rintro n c hc ⟨r, record, ⟨object, rfl, _⟩, _⟩
    simpa [oneImageCommands] using List.mem_of_getElem? hc
  have hfits' : ∀ c ∈ commands, c.Fits := by simp [commands, Command.Fits]
  obtain ⟨hiff, hremoved⟩ := spaces_distinct_iff oneImageSpace hs hd commands hfits'
  have hnamed : ∀ (n : Nat) object record, commands[n]? = some (Command.restore object record) →
      record.imageIds = [] := by
    intro n object record hc
    have hmem : object = "process" ∧ record = imagesRecord [] := by
      simpa [commands] using List.mem_of_getElem? hc
    rw [hmem.2]
    rfl
  refine ⟨hstate.1, hstate.2.1, hstate.2.2.2, hiff.mpr ?_, ?_⟩
  · rintro n c hc ⟨r, record, ⟨object, rfl, _⟩, hrepeated⟩
    rw [hnamed n object record hc] at hrepeated
    exact hrepeated .nil
  · refine (hremoved "process" 2 id 1 hstate.2.2.1 hstate.2.2.2 ?_).1
    rintro n c hc (⟨record, ⟨object, rfl, _⟩, hmem⟩ | ⟨space, image, i, rfl, _⟩)
    · rw [hnamed n object record hc] at hmem
      cases hmem
    · simpa [commands] using List.mem_of_getElem? hc

theorem oneImageSpace_doubled :
    let id := HashId.of "Image" ⟨2⟩
    let doubled := (oneImageSpace.run (.restore "process" (imagesRecord [id, id]))).2
    (oneImageSpace.run (.restore "process" (imagesRecord [id, id]))).1 = .ok .done ∧
      doubled.heap.listed 2 = [some id, some id] ∧ (doubled.removeImage 2 id).1 = some 1 ∧
      (doubled.removeImage 2 id).2.heap.listed 2 = [some id] ∧
      (doubled.removeImage 2 id).2.imageAt? 2 1 = some 1 := by
  decide +kernel

end Session

end BinaryAtlas
