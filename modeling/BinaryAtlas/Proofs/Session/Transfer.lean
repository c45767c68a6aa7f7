import BinaryAtlas.Proofs.Session.Announcement
import BinaryAtlas.Proofs.Session.OwnRecord
import BinaryAtlas.Proofs.Session.RestoredLayout

namespace BinaryAtlas

theorem Object.Patched.image {o o' : Object} {i : Image} (h : o.Patched o')
    (hi : o.body = .image i) :
    ∃ j, o'.body = .image j ∧ j.layout = i.layout ∧ o'.name = o.name ∧ o'.comment = o.comment := by
  rcases h with rfl | ⟨k, store, hk, rfl⟩
  · exact ⟨i, hi, rfl, rfl, rfl⟩
  · cases hk.symm.trans hi
    exact ⟨_, rfl, rfl, rfl, rfl⟩

namespace Session

variable {s t t' : Session} {y : Ref} {o p : Object} {a b : Image}

section

variable (hfits : ∀ l, a.layout = some l → l.Fits) (ha : o.body = .image a)

include hfits ha

theorem ofRecord?_recordOf : Layout.ofRecord? (s.recordOf o) = a.layout := by
  rw [Layout.ofRecord?, get?_layout_recordOf s ha]
  cases hl : a.layout with
  | none => rfl
  | some l => exact Layout.ofJson?_toJson (hfits l hl)

theorem restore_recordOf (hp : t.heap.get? y = some p) (hb : p.body = .image b) :
    ∃ t', t.restore y (s.recordOf o) = (.ok (), t') := by
  simp only [restore, hp, hb, restoreImage, get?_layout_recordOf s ha]
  cases hl : a.layout with
  | none => exact ⟨_, rfl⟩
  | some l =>
    have hread : (Option.map Layout.toJson (some l)).filter (!·.isNull) = some l.toJson := rfl
    rw [hread]
    dsimp only
    rw [Layout.ofJson?_toJson (hfits l hl)]
    exact ⟨_, rfl⟩

theorem restore_recordOf_takes (hp : t.heap.get? y = some p) (hb : p.body = .image b)
    (h : t.restore y (s.recordOf o) = (.ok (), t')) :
    ∃ q k, t'.heap.get? y = some q ∧ q.body = .image k ∧ q.name = o.name ∧ q.comment = o.comment ∧
      k.layout = (a.layout.map fun l => (b.restoreLayout l).layout).getD b.layout := by
  obtain ⟨s₁, hstaged, ht'⟩ := restore_staged hp h
  rw [hb, Body.announces, if_pos rfl] at ht'
  subst ht'
  have hrestored : (t.restored y p (s.recordOf o)).body =
      .image ((a.layout.map b.restoreLayout).getD b) := by
    have hread := ofRecord?_recordOf (s := s) hfits ha
    rw [Layout.ofRecord?] at hread
    simp only [restored, restoredBody, hb, hread]
    cases a.layout <;> rfl
  obtain ⟨q, hq, hpatched⟩ := reactive_patched.notify s₁ .changed y y _ hstaged.get?
  obtain ⟨k, hk, hlayout, hname, hcomment⟩ := hpatched.image hrestored
  refine ⟨q, k, hq, hk, hname, hcomment, hlayout.trans ?_⟩
  cases a.layout <;> rfl

end

/-- The layout of an image comes with its record to every image with the same bytes, whatever that
was before. If there is none, the other image ends up without one only if it had none. -/
theorem transfer_layout_iff (s : Session) (hs : s.Reachable) (x : Ref) (o : Object) (a : Image)
    (ho : s.heap.get? x = some o) (ha : o.body = .image a) (t : Session) (y : Ref) (p : Object)
    (b : Image) (hp : t.heap.get? y = some p) (hb : p.body = .image b)
    (hbytes : a.store.bytes = b.store.bytes)
    (hderived : ∀ l, a.layout = some l → l.contentHash = Digest.contentHash a.store.bytes) :
    ∃ t' q k, t.restore y (s.record x) = (.ok (), t') ∧ t'.heap.get? y = some q ∧
      q.body = .image k ∧ q.name = o.name ∧ q.comment = o.comment ∧
      (k.layout = a.layout ↔ a.layout ≠ none ∨ b.layout = none) ∧
      (a.layout = none → k.layout = b.layout) := by
  have hrecord : s.record x = s.recordOf o := by
    rw [record, ho]
    rfl
  have hfits : ∀ l, a.layout = some l → l.Fits := by
    have hi : s.heap.image? x = some a := by simp [Heap.image?, ho, ha, Body.image?]
    exact (hs.fits.image hi).2
  rw [hrecord]
  obtain ⟨t', hrun⟩ := restore_recordOf (s := s) hfits ha hp hb
  obtain ⟨q, k, hq, hk, hname, hcomment, hlayout⟩ := restore_recordOf_takes hfits ha hp hb hrun
  refine ⟨t', q, k, hrun, hq, hk, hname, hcomment, ?_⟩
  cases hl : a.layout with
  | none =>
    rw [hl] at hlayout
    have hkept : k.layout = b.layout := hlayout
    simp [hkept]
  | some l =>
    have htaken : (b.restoreLayout l).layout = some l := by
      rw [Image.restoreLayout, if_pos (by rw [hderived l hl, hbytes])]
    rw [hl, Option.map_some, Option.getD_some, htaken] at hlayout
    simp [hlayout]

def threeImages : Session :=
  [ .makeTable "globals" (some ⟨1⟩) "globals",
    .makeImage "blank" (some ⟨2⟩) "blank" "globals" (.memory { bytes := [1, 2] })
      (.given (.flat 0)),
    .makeImage "low" (some ⟨3⟩) "low" "globals" (.memory { bytes := [1, 2] })
      (.given (.flat 0x1000)),
    .makeImage "high" (some ⟨4⟩) "high" "globals" (.memory { bytes := [1, 2] })
      (.given (.flat 0x4000)),
    .analyse "low", .analyse "high"].foldl (fun s command => (s.run command).2) (initial {} Uuid.mk)

theorem reachable_threeImages : threeImages.Reachable :=
  (Reachable.initial {} Uuid.mk).runs (by simp [Command.Fits, Analyser.fits_flat])

theorem threeImages_moved :
    ∃ t' q k, threeImages.restore 2 (threeImages.record 3) = (.ok (), t') ∧ t'.heap.get? 2 = some q ∧
      q.body = .image k ∧ q.name = "high" ∧ k.layout.map (·.base) = some 0x4000 := by
  have hviews : (threeImages.heap.get? 3).map (fun o => (o.name, o.body.image?.map fun a =>
        (a.store.bytes, a.layout.map fun l => (l.base, l.contentHash)))) =
        some ("high", some ([1, 2], some (0x4000, Digest.contentHash [1, 2]))) ∧
      (threeImages.heap.get? 2).map (fun p => p.body.image?.map (·.store.bytes)) =
        some (some [1, 2]) := by
    decide +kernel
  obtain ⟨o, ho, hview⟩ := Option.map_eq_some_iff.mp hviews.1
  obtain ⟨hname, hview⟩ := Prod.mk.inj hview
  obtain ⟨a, ha, hview⟩ := Option.map_eq_some_iff.mp hview
  obtain ⟨habytes, hview⟩ := Prod.mk.inj hview
  obtain ⟨l, hl, hview⟩ := Option.map_eq_some_iff.mp hview
  obtain ⟨hbase, hhash⟩ := Prod.mk.inj hview
  obtain ⟨p, hp, hview⟩ := Option.map_eq_some_iff.mp hviews.2
  obtain ⟨b, hb, hbbytes⟩ := Option.map_eq_some_iff.mp hview
  obtain ⟨t', q, k, hrun, hq, hk, hqname, _, hiff, _⟩ := transfer_layout_iff threeImages
    reachable_threeImages 3 o a ho (Body.image?_eq_some_iff.mp ha) threeImages 2 p b hp
    (Body.image?_eq_some_iff.mp hb) (habytes.trans hbbytes.symm)
    (fun m hm => by cases hl.symm.trans hm; rw [hhash, habytes])
  have hlayout : k.layout = some l := (hiff.mpr (.inl (by simp [hl]))).trans hl
  exact ⟨t', q, k, hrun, hq, hk, hqname.trans hname, by rw [hlayout, Option.map_some, hbase]⟩

theorem threeImages_kept :
    (threeImages.heap.image? 1).map (fun a => (a.store.bytes, a.layout)) = some ([1, 2], none) ∧
    (threeImages.heap.image? 2).map (·.store.bytes) = some [1, 2] ∧
    (threeImages.restore 2 (threeImages.record 1)).1 = .ok () ∧
    ((threeImages.restore 2 (threeImages.record 1)).2.heap.get? 2).map (·.name) = some "blank" ∧
    ((threeImages.restore 2 (threeImages.record 1)).2.heap.image? 2).map
      (fun k => k.layout.map (·.base)) = some (some 0x1000) := by
  decide +kernel

end Session

end BinaryAtlas
