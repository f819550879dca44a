import Aodv.Parameters
import Mathlib.Data.List.Induction

namespace Aodv

open Lib.Bytes

def rreqSize : Nat := 24
def rrepSize : Nat := 20
def rrepAckSize : Nat := 2
def rerrUdestSize : Nat := 8

def bit (b : Bool) (k : Nat) : U8 := if b then 1#8 <<< k else 0

/-- Bit fields are allocated from the least significant bit on. -/
def rreqFlagByte (m : RREQ) : U8 := bit m.j 0 ||| bit m.r 1 ||| bit m.g 2 ||| bit m.d 3 ||| bit m.u 4

def rreqBuf (m : RREQ) : Buf :=
  let b := store (store (store zeroed 0 aodvRreq) 1 (rreqFlagByte m)) 3 m.hopcnt
  let b := storeBE (storeLE (storeBE b 4 m.rreqId) 8 m.destAddr) 12 m.destSeqno
  storeBE (storeLE b 16 m.origAddr) 20 m.origSeqno

def rreqOf (b : Buf) : RREQ where
  j := (b 1).getLsbD 0
  r := (b 1).getLsbD 1
  g := (b 1).getLsbD 2
  d := (b 1).getLsbD 3
  u := (b 1).getLsbD 4
  hopcnt := b 3
  rreqId := loadBE b 4
  destAddr := loadLE b 8
  destSeqno := loadBE b 12
  origAddr := loadLE b 16
  origSeqno := loadBE b 20

def rrepBuf (m : RREP) : Buf :=
  let b := store (store zeroed 0 aodvRrep) 1 (bit m.r 0 ||| bit m.a 1)
  let b := store (store b 2 ((m.prefixSz.setWidth 8) <<< 3)) 3 m.hopcnt
  storeBE (storeLE (storeBE (storeLE b 4 m.destAddr) 8 m.destSeqno) 12 m.origAddr) 16 m.lifetime

def rrepOf (b : Buf) : RREP where
  r := (b 1).getLsbD 0
  a := (b 1).getLsbD 1
  prefixSz := (b 2).extractLsb' 3 5
  hopcnt := b 3
  destAddr := loadLE b 4
  destSeqno := loadBE b 8
  origAddr := loadLE b 12
  lifetime := loadBE b 16

def rrepAckBuf : Buf := store zeroed 0 aodvRrepAck

/-- RERR_CALC_SIZE: the count is promoted to int before 1 is taken off. -/
def rerrCalcSize (destCount : U8) : Int := 12 + ((destCount.toNat : Int) - 1) * 8

def rerrHeader (n : Bool) : Buf := store (store zeroed 0 aodvRerr) 1 (bit n 0)

def udestAt (b : Buf) (off : Nat) : Addr × U32 := (loadLE b off, loadBE b (off + 4))

def storeUdest (b : Buf) (off : Nat) (u : Addr × U32) : Buf :=
  storeBE (storeLE b off u.1) (off + 4) u.2

/-- RERR_UDEST_FIRST and then RERR_UDEST_NEXT k times. -/
def udestOffset (k : Nat) : Nat := 4 + k * 8

def storeUdests (b : Buf) (udests : List (Addr × U32)) : Buf :=
  udests.zipIdx.foldl (fun b u => storeUdest b (udestOffset u.2) u.1) b

def rerrBuf (m : RERR) : Buf :=
  storeUdests (store (rerrHeader m.n) 3 (BitVec.ofNat 8 m.udests.length)) m.udests

def wireSize : Msg → Nat
  | .rreq _ => rreqSize
  | .rrep _ => rrepSize
  | .rrepAck => rrepAckSize
  | .rerr m => 12 + 8 * (m.udests.length - 1)
  | .queued bytes => bytes.length

def wireBytes : Msg → List U8
  | .rreq m => take (rreqBuf m) rreqSize
  | .rrep m => take (rrepBuf m) rrepSize
  | .rrepAck => take rrepAckBuf rrepAckSize
  | .rerr m => take (rerrBuf m) (12 + 8 * (m.udests.length - 1))
  | .queued bytes => bytes

theorem storeUdest_below (b : Buf) {off i : Nat} (u : Addr × U32) (h : i < off) :
    storeUdest b off u i = b i := by
  rw [storeUdest, storeBE_apply_of_disjoint _ _ _ _ (by omega),
    storeLE_apply_of_disjoint _ _ _ _ (by omega)]

theorem storeUdest_congr {b c : Buf} (off : Nat) (u : Addr × U32) {i : Nat} (h : b i = c i) :
    storeUdest b off u i = storeUdest c off u i := by
  simp only [storeUdest, storeBE, storeLE, h]

theorem storeUdest_inside (b c : Buf) {off i : Nat} (u : Addr × U32) (h : off ≤ i)
    (h' : i < off + 8) : storeUdest b off u i = storeUdest c off u i := by
  simp only [storeUdest, storeBE, storeLE]
  by_cases hi : off + 4 ≤ i
  · have hseqno : off + 4 ≤ i ∧ i < off + 4 + 4 := ⟨hi, by omega⟩
    rw [if_pos hseqno, if_pos hseqno]
  · have hseqno : ¬ (off + 4 ≤ i ∧ i < off + 4 + 4) := fun hc => hi hc.1
    have haddr : off ≤ i ∧ i < off + 4 := ⟨h, by omega⟩
    rw [if_neg hseqno, if_neg hseqno, if_pos haddr, if_pos haddr]

theorem storeUdests_snoc (b : Buf) (l : List (Addr × U32)) (u : Addr × U32) :
    storeUdests b (l ++ [u]) = storeUdest (storeUdests b l) (udestOffset l.length) u := by
  simp [storeUdests, List.zipIdx_append]

theorem storeUdests_congr {b c : Buf} (l : List (Addr × U32)) {i : Nat} (h : b i = c i) :
    storeUdests b l i = storeUdests c l i := by
  induction l using List.reverseRecOn with
  | nil => exact h
  | append_singleton l u ih =>
      rw [storeUdests_snoc, storeUdests_snoc]
      exact storeUdest_congr _ u ih

theorem storeUdests_header (b : Buf) (l : List (Addr × U32)) {i : Nat} (h : i < 4) :
    storeUdests b l i = b i := by
  induction l using List.reverseRecOn with
  | nil => rfl
  | append_singleton l u ih =>
      rw [storeUdests_snoc, storeUdest_below _ u (by simp only [udestOffset]; omega), ih]

theorem rerrCalcSize_ofNat {n : Nat} (h : n ≤ 127) :
    rerrCalcSize (BitVec.ofNat 8 n) = 4 + 8 * (n : Int) := by
  have hn : (BitVec.ofNat 8 n).toNat = n := by
    rw [BitVec.toNat_ofNat]
    exact Nat.mod_eq_of_lt (by omega)
  rw [rerrCalcSize, hn]
  omega

end Aodv
