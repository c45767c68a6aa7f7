import BinaryAtlas.Proofs.Except
import BinaryAtlas.Store.Basic

namespace BinaryAtlas

theorem storeRange_eq_ok_iff {offset len size : Nat} (range : Nat × Nat) :
    storeRange offset len size = .ok range ↔
      offset + len < Word.limit ∧ offset + len ≤ size ∧ range = (offset, offset + len) := by
  unfold storeRange
  split
  · rename_i stop hstop
    obtain ⟨rfl, hword⟩ := Word.add?_eq_some_iff.mp hstop
    split
    · rename_i hle
      simp [hword, hle, eq_comm]
    · rename_i hle
      simp [hle]
  · rename_i hnone
    have hlimit := Word.add?_eq_none_iff.mp hnone
    simp only [reduceCtorEq, false_iff, not_and]
    omega

namespace Disk

def Ready (d : Disk) : Prop := d.present = true ∧ d.fault = none

instance (d : Disk) : Decidable d.Ready := inferInstanceAs (Decidable (_ ∧ _))

theorem read?_put {d : Disk} (hpresent : d.present = true) (path : String) (content : Bytes) :
    (d.put path content).read? path = some content := by
  simp [read?, put, hpresent]

end Disk

namespace FileStore

variable {s : FileStore} {disk : Disk}

theorem save_of_ready (h : disk.Ready) :
    s.save disk = (.ok (), { s with dirty := false }, disk.put s.path s.bytes) := by
  simp [save, Disk.openDraft?, Disk.fillDraft, Disk.syncsDraft, Disk.placeDraft?, Disk.dropDraft,
    Disk.put, h.1, h.2]

theorem save_of_not_ready (h : ¬ disk.Ready) : s.save disk = (.error .system, s, disk) := by
  obtain ⟨present, files, drafts, fault⟩ := disk
  cases present with
  | false => rfl
  | true =>
    cases fault with
    | none => exact absurd ⟨rfl, rfl⟩ h
    | some fault => cases fault <;> rfl

end FileStore

namespace Store

variable {s s' : Store} {offset len : Nat} {data : Bytes} {disk disk' : Disk}

theorem read_eq_ok (hword : offset + len < Word.limit) (hin : offset + len ≤ s.size) :
    s.read offset len = .ok (s.bytes.window offset len) := by
  have hrange := (storeRange_eq_ok_iff (offset, offset + len)).mpr ⟨hword, hin, rfl⟩
  cases s with
  | memory m => exact congrArg (Except.map fun _ => m.bytes.window offset len) hrange
  | file f => exact congrArg (Except.map fun _ => f.bytes.window offset len) hrange

theorem size_le_write (s : Store) (offset : Nat) (data : Bytes) :
    s.size ≤ (s.write offset data).2.size := by
  have hsplice : ∀ bytes : Bytes, offset + data.length ≤ bytes.length →
      bytes.length ≤ (bytes.splice offset data).length := by
    intro bytes hin
    exact Nat.le_of_eq (Bytes.length_splice hin).symm
  cases s with
  | memory m =>
    show m.bytes.length ≤ (m.write offset data).2.bytes.length
    unfold MemoryStore.write
    split
    · rename_i range hrange
      exact hsplice m.bytes ((storeRange_eq_ok_iff range).mp hrange).2.1
    · split
      · have hlen := m.bytes.length_extend (offset + data.length)
        have hkeep := hsplice (m.bytes.extend (offset + data.length)) (by omega)
        exact Nat.le_trans (by omega) hkeep
      · exact Nat.le_refl _
  | file f =>
    show f.bytes.length ≤ (f.write offset data).2.bytes.length
    unfold FileStore.write
    split
    · rename_i range hrange
      exact hsplice f.bytes ((storeRange_eq_ok_iff range).mp hrange).2.1
    · exact Nat.le_refl _

theorem write_refused {e : StoreError} (h : s.write offset data = (.error e, s')) : s' = s := by
  cases s with
  | memory m =>
    obtain ⟨hanswer, rfl⟩ := Prod.mk.inj h
    have hanswer : (m.write offset data).1 = .error e := hanswer
    show Store.memory (m.write offset data).2 = .memory m
    unfold MemoryStore.write at hanswer ⊢
    split at hanswer
    · cases hanswer
    · split at hanswer
      · cases hanswer
      · rename_i hgrows
        rw [if_neg hgrows]
  | file f =>
    obtain ⟨hanswer, rfl⟩ := Prod.mk.inj h
    have hanswer : (f.write offset data).1 = .error e := hanswer
    show Store.file (f.write offset data).2 = .file f
    unfold FileStore.write at hanswer ⊢
    split at hanswer
    · cases hanswer
    · rfl

theorem bytes_flush (s : Store) (disk : Disk) : (s.flush disk).2.1.bytes = s.bytes := by
  cases s with
  | memory m => rfl
  | file f =>
    show (f.flush disk).2.1.bytes = f.bytes
    unfold FileStore.flush
    split
    · by_cases hready : disk.Ready
      · rw [FileStore.save_of_ready hready]
      · rw [FileStore.save_of_not_ready hready]
    · rfl

end Store

end BinaryAtlas
