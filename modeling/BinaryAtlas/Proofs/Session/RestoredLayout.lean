import BinaryAtlas.Proofs.Forms
import BinaryAtlas.Proofs.Overflow
import BinaryAtlas.Proofs.Session.Layout
import BinaryAtlas.Proofs.Session.Restored

namespace BinaryAtlas

open Section

namespace Layout

structure Sound (l : Layout) : Prop where
  apart : l.sections.Pairwise Apart
  inside : ∀ s ∈ l.sections, s.stop ≤ l.stop
  entered : l.entry < l.stop
  exact : ∀ s ∈ l.sections, s.Exact

def Proper (l : Layout) : Prop :=
  l.sections.Pairwise (fun s t => min s.stop t.stop ≤ max s.start t.start) ∧
  (∀ s ∈ l.sections, s.stop ≤ l.stop ∧ s.rawStop < Word.limit ∧
    s.start + s.rawLength ≤ Word.limit) ∧
  l.entry < l.stop

instance (l : Layout) : Decidable l.Proper := inferInstanceAs (Decidable (_ ∧ _ ∧ _))

theorem sound_iff {l : Layout} (h : l.Fits) : l.Sound ↔ l.Proper := by
  constructor
  · intro hsound
    refine ⟨hsound.apart.imp (apart_iff _ _).mp, fun s hs => ?_, hsound.entered⟩
    exact ⟨hsound.inside s hs, (exact_iff (h.sections s hs).start).mp (hsound.exact s hs)⟩
  · rintro ⟨hapart, hsections, hentry⟩
    refine ⟨hapart.imp (apart_iff _ _).mpr, fun s hs => (hsections s hs).1, hentry, fun s hs => ?_⟩
    exact (exact_iff (h.sections s hs).start).mpr (hsections s hs).2

theorem sound_ofAnalysis {a : Analysis} (hbuilt : ∀ s ∈ a.sections, s.Built)
    (hvalid : a.validate = .ok ()) (content : Bytes) : (ofAnalysis a content).Sound := by
  have hc := (a.validate_eq_ok_iff fun s hs => (hbuilt s hs).start_le_stop).mp hvalid
  exact ⟨hc.apart, hc.inside, hc.entered, fun s hs => (hbuilt s hs).exact⟩

end Layout

theorem Image.LaidOut.sound {i : Image} {l : Layout} (h : i.LaidOut) (hl : i.layout = some l) :
    l.Sound := by
  obtain ⟨earlier, analysed, hbuilt, hok, hsame⟩ := h
  obtain ⟨a, ha, hvalid, rfl⟩ := (analyse_eq_ok_iff earlier analysed).mp hok
  cases hl.symm.trans hsame
  exact Layout.sound_ofAnalysis (hbuilt a ha) hvalid _

def Layout.ofRecord? (record : Json) : Option Layout :=
  (record.get? "layout").bind Layout.ofJson?

namespace Session

variable {s s' : Session} {r : Ref} {i : Image} {record : Json}

theorem restore_layout (hi : s.heap.image? r = some i) (h : s.restore r record = (.ok (), s')) :
    ∃ j, s'.heap.image? r = some j ∧
      j.layout = ((Layout.ofRecord? record).map fun l => (i.restoreLayout l).layout).getD i.layout := by
  obtain ⟨o, ho, hb⟩ := Option.bind_eq_some_iff.mp hi
  have hbody : o.body = .image i := Body.image?_eq_some_iff.mp hb
  obtain ⟨s₁, hstaged, hs'⟩ := restore_staged ho h
  rw [hbody, Body.announces, if_pos rfl] at hs'
  subst hs'
  have himage : s₁.heap.image? r =
      some (((Layout.ofRecord? record).map i.restoreLayout).getD i) := by
    rw [Heap.image?, hstaged.get?, Option.bind_some]
    simp only [restored, restoredBody, hbody, Body.image?, Layout.ofRecord?]
    cases (record.get? "layout").bind Layout.ofJson? <;> rfl
  obtain ⟨j, hj, _, hlayout⟩ :=
    Still.image? (notify_keeps storeBlind_surface s₁ .changed r) himage
  refine ⟨j, hj, hlayout.trans ?_⟩
  cases Layout.ofRecord? record <;> rfl

def layoutRecord (l : Layout) : Json := .obj [("layout", l.toJson)]

theorem ofRecord?_layoutRecord {l : Layout} (h : l.Fits) :
    Layout.ofRecord? (layoutRecord l) = some l := Layout.ofJson?_toJson h

theorem restore_layoutRecord {l : Layout} (hi : s.heap.image? r = some i) (h : l.Fits) :
    ∃ s', s.restore r (layoutRecord l) = (.ok (), s') := by
  obtain ⟨o, ho, hb⟩ := Option.bind_eq_some_iff.mp hi
  rw [Body.image?_eq_some_iff] at hb
  have hget : ((layoutRecord l).get? "layout").filter (!·.isNull) = some l.toJson := rfl
  simp only [restore, ho, hb, restoreImage, hget, Layout.ofJson?_toJson h]
  exact ⟨_, rfl⟩

theorem restored_layout_sound_iff (s : Session) (r : Ref) (i : Image)
    (hi : s.heap.image? r = some i) (record : Json) (s' : Session)
    (h : s.restore r record = (.ok (), s')) :
    ∃ j, s'.heap.image? r = some j ∧
      (Layout.ofRecord? record = none → j.layout = i.layout) ∧
      ∀ l, Layout.ofRecord? record = some l →
        (l.contentHash ≠ Digest.contentHash i.store.bytes → j.layout = i.layout) ∧
        (l.contentHash = Digest.contentHash i.store.bytes → j.layout = some l) ∧
        (l.Sound ↔ l.Proper) ∧ ∀ k : Image, k.LaidOut → k.layout = some l → l.Sound := by
  obtain ⟨j, hj, hlayout⟩ := restore_layout hi h
  refine ⟨j, hj, fun hnone => by simpa [hnone] using hlayout, fun l hl => ?_⟩
  obtain ⟨json, _, hread⟩ := Option.bind_eq_some_iff.mp hl
  rw [hl, Option.map_some, Option.getD_some, Image.restoreLayout] at hlayout
  refine ⟨fun hother => ?_, fun hsame => ?_, Layout.sound_iff (Layout.fits_of_ofJson? hread),
    fun k hk hkl => hk.sound hkl⟩
  · rwa [if_neg hother.symm] at hlayout
  · rwa [if_pos hsame.symm] at hlayout

def analysedImage : Session where
  heap := (Heap.empty.alloc
    { uuid := ⟨0⟩, id := 7, name := "image", body := .image Image.sharedLaidOut }).2
  registry := { entries := .ofList [(7, 0)] }
  chain := { next := 1, active := [(0, { tag := "o", reaction := .patch })] }
  supply := Uuid.mk

theorem analysedImage_sound :
    ∃ l s' j, Image.sharedLaidOut.layout = some l ∧
      analysedImage.restore 0 (layoutRecord l) = (.ok (), s') ∧ s'.heap.image? 0 = some j ∧
      j.layout = some l ∧ l.Sound := by
  have hfits : (Layout.ofAnalysis Image.sharedAnalysis [1, 2, 3, 4]).Fits := by
    refine ⟨by decide, by decide, by decide, ?_⟩
    simp only [Layout.ofAnalysis, Image.sharedAnalysis, List.forall_mem_cons]
    exact ⟨by constructor <;> decide, by constructor <;> decide, nofun⟩
  obtain ⟨s', hrun⟩ := restore_layoutRecord (s := analysedImage) (r := 0) rfl hfits
  obtain ⟨j, hj, _, hrecorded⟩ :=
    restored_layout_sound_iff analysedImage 0 Image.sharedLaidOut rfl _ s' hrun
  obtain ⟨_, hinstalled, _, hsound⟩ := hrecorded _ (ofRecord?_layoutRecord hfits)
  exact ⟨_, s', j, rfl, hrun, hj, hinstalled rfl,
    hsound _ Image.sharedLaidOut_laidOut rfl⟩

def overflowing : Section := { Image.sharedFirst with name := "b", rawPointer := Word.top }

def unsound : Layout where
  base := 0
  entry := 20
  stop := 20
  sections := [Image.sharedFirst, overflowing]
  contentHash := Digest.contentHash Image.sharedBytes.store.bytes

theorem analysedImage_unsound :
    (∃ s' j, analysedImage.restore 0 (layoutRecord unsound) = (.ok (), s') ∧ s'.heap.image? 0 = some j ∧
      j.layout = some unsound ∧ j.sections = [Image.sharedFirst, overflowing]) ∧
    Image.sharedFirst.contains 16 = true ∧ overflowing.contains 16 = true ∧
    unsound.stop < overflowing.stop ∧ unsound.stop ≤ unsound.entry ∧ overflowing.rawRange? = none := by
  have hfits : unsound.Fits := by
    refine ⟨by decide, by decide, by decide, ?_⟩
    simp only [unsound, List.forall_mem_cons]
    exact ⟨by constructor <;> decide, by constructor <;> decide, nofun⟩
  obtain ⟨s', hrun⟩ := restore_layoutRecord (s := analysedImage) (r := 0) rfl hfits
  obtain ⟨j, hj, hlayout⟩ := restore_layout rfl hrun
  have hunsound : j.layout = some unsound := by
    rw [hlayout, ofRecord?_layoutRecord hfits, Option.map_some, Option.getD_some,
      Image.restoreLayout]
    exact congrArg Image.layout (if_pos rfl)
  refine ⟨⟨s', j, hrun, hj, hunsound, ?_⟩, by decide, by decide, by decide, by decide, by decide⟩
  rw [Image.sections, hunsound]
  rfl

end Session

end BinaryAtlas
