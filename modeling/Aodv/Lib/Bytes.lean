import Mathlib.Data.List.Range
import Mathlib.Tactic.IntervalCases

namespace Aodv.Lib.Bytes

abbrev U8 := BitVec 8
abbrev U16 := BitVec 16
abbrev U32 := BitVec 32

/-- Memory from some base address on: offset to byte. -/
abbrev Buf := Nat → U8

def zeroed : Buf := fun _ => 0

def store (b : Buf) (off : Nat) (v : U8) : Buf := fun i => if i = off then v else b i

def copy (dst src : Buf) (len : Nat) : Buf := fun i => if i < len then src i else dst i

def take (b : Buf) (len : Nat) : List U8 := (List.range len).map b

/-- A received buffer: the datagram's bytes, then whatever stood there before. -/
def overlay (bytes : List U8) (stale : Buf) : Buf := fun i => bytes.getD i (stale i)

def loadLE (b : Buf) (off : Nat) : U32 := b (off + 3) ++ b (off + 2) ++ b (off + 1) ++ b off

def loadBE (b : Buf) (off : Nat) : U32 := b off ++ b (off + 1) ++ b (off + 2) ++ b (off + 3)

def byteAt (v : U32) (k : Nat) : U8 := v.extractLsb' (8 * k) 8

def storeLE (b : Buf) (off : Nat) (v : U32) : Buf :=
  fun i => if off ≤ i ∧ i < off + 4 then byteAt v (i - off) else b i

def storeBE (b : Buf) (off : Nat) (v : U32) : Buf :=
  fun i => if off ≤ i ∧ i < off + 4 then byteAt v (3 - (i - off)) else b i

def loadLE16 (b : Buf) (off : Nat) : U16 := b (off + 1) ++ b off

def loadBE16 (b : Buf) (off : Nat) : U16 := b off ++ b (off + 1)

def storeLE16 (b : Buf) (off : Nat) (v : U16) : Buf :=
  store (store b off (v.extractLsb' 0 8)) (off + 1) (v.extractLsb' 8 8)

def storeBE16 (b : Buf) (off : Nat) (v : U16) : Buf :=
  store (store b off (v.extractLsb' 8 8)) (off + 1) (v.extractLsb' 0 8)

theorem bytes_append (v : U32) : byteAt v 3 ++ byteAt v 2 ++ byteAt v 1 ++ byteAt v 0 = v := by
  apply BitVec.eq_of_getLsbD_eq
  intro i hi
  simp only [byteAt, BitVec.getLsbD_append, BitVec.getLsbD_extractLsb']
  interval_cases i <;> simp

@[simp] theorem loadLE_storeLE (b : Buf) (off : Nat) (v : U32) :
    loadLE (storeLE b off v) off = v := by
  simpa [loadLE, storeLE] using bytes_append v

@[simp] theorem loadBE_storeBE (b : Buf) (off : Nat) (v : U32) :
    loadBE (storeBE b off v) off = v := by
  simpa [loadBE, storeBE] using bytes_append v

theorem storeLE_loadLE (b c : Buf) {off i : Nat} (h : off ≤ i) (h' : i < off + 4) :
    storeLE b off (loadLE c off) i = c i := by
  rw [storeLE, if_pos ⟨h, h'⟩]
  obtain ⟨k, rfl⟩ := Nat.exists_eq_add_of_le h
  rw [Nat.add_sub_cancel_left]
  have hk : k < 4 := by omega
  apply BitVec.eq_of_getLsbD_eq
  intro j hj
  simp only [loadLE, byteAt, BitVec.getLsbD_append, BitVec.getLsbD_extractLsb']
  interval_cases k <;> interval_cases j <;> simp

theorem storeLE_apply_of_disjoint (b : Buf) (off : Nat) (v : U32) (i : Nat)
    (h : i < off ∨ off + 4 ≤ i) : storeLE b off v i = b i := by
  simp only [storeLE]
  rw [if_neg (by omega)]

theorem storeBE_apply_of_disjoint (b : Buf) (off : Nat) (v : U32) (i : Nat)
    (h : i < off ∨ off + 4 ≤ i) : storeBE b off v i = b i := by
  simp only [storeBE]
  rw [if_neg (by omega)]

theorem store_apply_of_ne (b : Buf) (off : Nat) (v : U8) (i : Nat) (h : i ≠ off) :
    store b off v i = b i := by
  simp [store, h]

@[simp] theorem store_apply_self (b : Buf) (off : Nat) (v : U8) : store b off v off = v := by
  simp [store]

theorem storeBE16_apply_of_ne (b : Buf) (off : Nat) (v : U16) (i : Nat) (h : i ≠ off)
    (h' : i ≠ off + 1) : storeBE16 b off v i = b i := by
  rw [storeBE16, store_apply_of_ne _ _ _ _ h', store_apply_of_ne _ _ _ _ h]

theorem storeLE16_apply_of_ne (b : Buf) (off : Nat) (v : U16) (i : Nat) (h : i ≠ off)
    (h' : i ≠ off + 1) : storeLE16 b off v i = b i := by
  rw [storeLE16, store_apply_of_ne _ _ _ _ h', store_apply_of_ne _ _ _ _ h]

theorem bytes16_append (v : U16) : v.extractLsb' 8 8 ++ v.extractLsb' 0 8 = v := by
  apply BitVec.eq_of_getLsbD_eq
  intro i hi
  simp only [BitVec.getLsbD_append, BitVec.getLsbD_extractLsb']
  interval_cases i <;> simp

@[simp] theorem loadBE16_storeBE16 (b : Buf) (off : Nat) (v : U16) :
    loadBE16 (storeBE16 b off v) off = v := by
  simpa [loadBE16, storeBE16, store] using bytes16_append v

@[simp] theorem loadLE16_storeLE16 (b : Buf) (off : Nat) (v : U16) :
    loadLE16 (storeLE16 b off v) off = v := by
  simpa [loadLE16, storeLE16, store] using bytes16_append v

theorem storeBE16_loadBE16 (b c : Buf) {off i : Nat} (h : i = off ∨ i = off + 1) :
    storeBE16 b off (loadBE16 c off) i = c i := by
  have hlow : (loadBE16 c off).extractLsb' 0 8 = c (off + 1) := by
    apply BitVec.eq_of_getLsbD_eq
    intro j hj
    have hj' : 0 + j < 8 := by omega
    rw [BitVec.getLsbD_extractLsb', loadBE16, BitVec.getLsbD_append, if_pos hj', Nat.zero_add]
    simp [hj]
  have hhigh : (loadBE16 c off).extractLsb' 8 8 = c off := by
    apply BitVec.eq_of_getLsbD_eq
    intro j hj
    have hj' : ¬ 8 + j < 8 := by omega
    rw [BitVec.getLsbD_extractLsb', loadBE16, BitVec.getLsbD_append, if_neg hj',
      Nat.add_sub_cancel_left]
    simp [hj]
  rw [storeBE16, hlow, hhigh]
  rcases h with rfl | rfl
  · simp [store]
  · simp [store]

theorem loadLE_congr {b c : Buf} {off : Nat} (h : ∀ i, off ≤ i → i < off + 4 → b i = c i) :
    loadLE b off = loadLE c off := by
  simp only [loadLE]
  rw [h off (by omega) (by omega), h (off + 1) (by omega) (by omega),
    h (off + 2) (by omega) (by omega), h (off + 3) (by omega) (by omega)]

theorem loadBE_congr {b c : Buf} {off : Nat} (h : ∀ i, off ≤ i → i < off + 4 → b i = c i) :
    loadBE b off = loadBE c off := by
  simp only [loadBE]
  rw [h off (by omega) (by omega), h (off + 1) (by omega) (by omega),
    h (off + 2) (by omega) (by omega), h (off + 3) (by omega) (by omega)]

theorem loadBE16_congr {b c : Buf} {off : Nat} (h : b off = c off)
    (h' : b (off + 1) = c (off + 1)) : loadBE16 b off = loadBE16 c off := by
  rw [loadBE16, loadBE16, h, h']

theorem loadLE16_congr {b c : Buf} {off : Nat} (h : b off = c off)
    (h' : b (off + 1) = c (off + 1)) : loadLE16 b off = loadLE16 c off := by
  rw [loadLE16, loadLE16, h, h']

@[simp] theorem take_length (b : Buf) (len : Nat) : (take b len).length = len := by
  simp [take]

theorem overlay_take (b stale : Buf) (len i : Nat) (h : i < len) :
    overlay (take b len) stale i = b i := by
  simp [overlay, take, h]

theorem take_congr {b c : Buf} {len : Nat} (h : ∀ i, i < len → b i = c i) :
    take b len = take c len := by
  simp only [take, List.map_inj_left, List.mem_range]
  exact h

end Aodv.Lib.Bytes
