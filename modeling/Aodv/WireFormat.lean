import Aodv.RerrWire

namespace Aodv.WireFormat

open Lib.Bytes ReceivedBytes RerrWire

def readMsg (buf : Buf) : Option Msg :=
  if buf 0 = aodvRreq then some (.rreq (rreqOf buf))
  else if buf 0 = aodvRrep then some (.rrep (rrepOf buf))
  else if buf 0 = aodvRerr then some (.rerr ⟨(buf 1).getLsbD 0, listed buf⟩)
  else if buf 0 = aodvRrepAck then some .rrepAck
  else none

/-- A message of the four types, with a list that its count can count. -/
def Sendable : Msg → Prop
  | .rerr m => m.udests ≠ [] ∧ m.udests.length ≤ 127
  | .queued _ => False
  | _ => True

def passes (buf : Buf) (len : Nat) : Msg → Prop
  | .rreq _ => rreqSize ≤ len
  | .rrep _ => rrepSize ≤ len
  | .rerr _ => rerrCalcSize (buf 3) ≤ len
  | _ => True

section Fields

variable {buf c : Buf}

theorem loadLE_storeBE_ne (b : Buf) {off k : Nat} (v : U32) (h : off + 4 ≤ k ∨ k + 4 ≤ off) :
    loadLE (storeBE b k v) off = loadLE b off :=
  loadLE_congr fun i hi hi' => storeBE_apply_of_disjoint b k v i (by omega)

theorem loadBE_storeBE_ne (b : Buf) {off k : Nat} (v : U32) (h : off + 4 ≤ k ∨ k + 4 ≤ off) :
    loadBE (storeBE b k v) off = loadBE b off :=
  loadBE_congr fun i hi hi' => storeBE_apply_of_disjoint b k v i (by omega)

theorem loadBE_storeLE_ne (b : Buf) {off k : Nat} (v : U32) (h : off + 4 ≤ k ∨ k + 4 ≤ off) :
    loadBE (storeLE b k v) off = loadBE b off :=
  loadBE_congr fun i hi hi' => storeLE_apply_of_disjoint b k v i (by omega)

theorem rreqBuf_head (m : RREQ) {i : Nat} (hi : i < 4) :
    rreqBuf m i = store (store (store zeroed 0 aodvRreq) 1 (rreqFlagByte m)) 3 m.hopcnt i := by
  rw [rreqBuf]
  rw [storeBE_apply_of_disjoint _ _ _ _ (by omega), storeLE_apply_of_disjoint _ _ _ _ (by omega),
    storeBE_apply_of_disjoint _ _ _ _ (by omega), storeLE_apply_of_disjoint _ _ _ _ (by omega),
    storeBE_apply_of_disjoint _ _ _ _ (by omega)]

theorem rrepBuf_head (m : RREP) {i : Nat} (hi : i < 4) :
    rrepBuf m i = store (store (store (store zeroed 0 aodvRrep) 1 (bit m.r 0 ||| bit m.a 1)) 2
      ((m.prefixSz.setWidth 8) <<< 3)) 3 m.hopcnt i := by
  rw [rrepBuf]
  rw [storeBE_apply_of_disjoint _ _ _ _ (by omega), storeLE_apply_of_disjoint _ _ _ _ (by omega),
    storeBE_apply_of_disjoint _ _ _ _ (by omega), storeLE_apply_of_disjoint _ _ _ _ (by omega)]

theorem flagByte_bits (m : RREQ) : (rreqFlagByte m).getLsbD 0 = m.j ∧
    (rreqFlagByte m).getLsbD 1 = m.r ∧ (rreqFlagByte m).getLsbD 2 = m.g ∧
    (rreqFlagByte m).getLsbD 3 = m.d ∧ (rreqFlagByte m).getLsbD 4 = m.u := by
  simp only [rreqFlagByte]
  generalize m.j = j, m.r = r, m.g = g, m.d = d, m.u = u
  revert j r g d u
  decide

theorem prefix_bits (v : BitVec 5) : ((v.setWidth 8) <<< 3).extractLsb' 3 5 = v := by
  revert v
  decide

theorem rreqOf_rreqBuf (m : RREQ) : rreqOf (rreqBuf m) = m := by
  obtain ⟨hj, hr, hg, hd, hu⟩ := flagByte_bits m
  have hflags : rreqBuf m 1 = rreqFlagByte m := rreqBuf_head m (by decide)
  have hhop : rreqBuf m 3 = m.hopcnt := rreqBuf_head m (by decide)
  have hid : loadBE (rreqBuf m) 4 = m.rreqId := by
    rw [rreqBuf, loadBE_storeBE_ne _ _ (by decide), loadBE_storeLE_ne _ _ (by decide),
      loadBE_storeBE_ne _ _ (by decide), loadBE_storeLE_ne _ _ (by decide), loadBE_storeBE]
  have hdest : loadLE (rreqBuf m) 8 = m.destAddr := by
    have hlast (b : Buf) : loadLE (storeLE b 16 m.origAddr) 8 = loadLE b 8 :=
      loadLE_congr fun i hi hi' => storeLE_apply_of_disjoint b 16 _ i (by omega)
    rw [rreqBuf, loadLE_storeBE_ne _ _ (by decide), hlast, loadLE_storeBE_ne _ _ (by decide),
      loadLE_storeLE]
  have hdestSeqno : loadBE (rreqBuf m) 12 = m.destSeqno := by
    rw [rreqBuf, loadBE_storeBE_ne _ _ (by decide), loadBE_storeLE_ne _ _ (by decide),
      loadBE_storeBE]
  have horig : loadLE (rreqBuf m) 16 = m.origAddr := by
    rw [rreqBuf, loadLE_storeBE_ne _ _ (by decide), loadLE_storeLE]
  have horigSeqno : loadBE (rreqBuf m) 20 = m.origSeqno := by
    rw [rreqBuf, loadBE_storeBE]
  rw [rreqOf, hflags, hj, hr, hg, hd, hu, hhop, hid, hdest, hdestSeqno, horig, horigSeqno]

theorem rrepOf_rrepBuf (m : RREP) : rrepOf (rrepBuf m) = m := by
  have hflags : rrepBuf m 1 = bit m.r 0 ||| bit m.a 1 := rrepBuf_head m (by decide)
  have hbits : (bit m.r 0 ||| bit m.a 1).getLsbD 0 = m.r ∧
      (bit m.r 0 ||| bit m.a 1).getLsbD 1 = m.a := by
    generalize m.r = r, m.a = a
    revert r a
    decide
  have hprefix : (rrepBuf m 2).extractLsb' 3 5 = m.prefixSz := by
    have hbyte : rrepBuf m 2 = (m.prefixSz.setWidth 8) <<< 3 := rrepBuf_head m (by decide)
    rw [hbyte, prefix_bits]
  have hhop : rrepBuf m 3 = m.hopcnt := rrepBuf_head m (by decide)
  have hdest : loadLE (rrepBuf m) 4 = m.destAddr := by
    have hlast (b : Buf) : loadLE (storeLE b 12 m.origAddr) 4 = loadLE b 4 :=
      loadLE_congr fun i hi hi' => storeLE_apply_of_disjoint b 12 _ i (by omega)
    rw [rrepBuf, loadLE_storeBE_ne _ _ (by decide), hlast, loadLE_storeBE_ne _ _ (by decide),
      loadLE_storeLE]
  have hseqno : loadBE (rrepBuf m) 8 = m.destSeqno := by
    rw [rrepBuf, loadBE_storeBE_ne _ _ (by decide), loadBE_storeLE_ne _ _ (by decide),
      loadBE_storeBE]
  have horig : loadLE (rrepBuf m) 12 = m.origAddr := by
    rw [rrepBuf, loadLE_storeBE_ne _ _ (by decide), loadLE_storeLE]
  have hlife : loadBE (rrepBuf m) 16 = m.lifetime := by
    rw [rrepBuf, loadBE_storeBE]
  rw [rrepOf, hflags, hbits.1, hbits.2, hprefix, hhop, hdest, hseqno, horig, hlife]

end Fields

section Reading

variable {e : Env} {s : Daemon} {msg : Msg} {dest : Addr} {len : Int} {bytes : List U8} {buf : Buf}

theorem agree_take {b : Buf} {n : Nat} (h : Received (take b n) buf) : Agree n buf b := by
  intro i hi
  have hlt : i < (take b n).length := by rwa [take_length]
  rw [h.byte hlt]
  simp [take]

theorem wireSize_le (hm : Sendable msg) : wireSize msg ≤ receBufSize := by
  cases msg with
  | rreq m => exact fits_rreq m
  | rrep m => exact fits_rrep m
  | rrepAck => exact fits_rrepAck
  | rerr m =>
      have hbuf : receBufSize = 1024 := rfl
      have hsize : wireSize (.rerr m) = 12 + 8 * (m.udests.length - 1) := rfl
      have hlist := hm.2
      omega
  | queued => exact hm.elim

theorem wireBytes_length (msg : Msg) : (wireBytes msg).length = wireSize msg := by
  cases msg with
  | rreq | rrep | rrepAck | rerr => exact take_length _ _
  | queued bytes => rfl

theorem read_rreq (m : RREQ) (h : Received (wireBytes (.rreq m)) buf) :
    readMsg buf = some (.rreq m) := by
  have hagree : Agree rreqSize buf (rreqBuf m) := agree_take h
  have ht : buf 0 = aodvRreq := by
    rw [hagree 0 (by decide), rreqBuf_head m (by decide)]
    rfl
  rw [readMsg, if_pos ht, rreqOf_congr hagree (Nat.le_refl _), rreqOf_rreqBuf]

theorem read_rrep (m : RREP) (h : Received (wireBytes (.rrep m)) buf) :
    readMsg buf = some (.rrep m) := by
  have hagree : Agree rrepSize buf (rrepBuf m) := agree_take h
  have ht : buf 0 = aodvRrep := by
    rw [hagree 0 (by decide), rrepBuf_head m (by decide)]
    rfl
  have hne : ¬ buf 0 = aodvRreq := by
    rw [ht]
    decide
  rw [readMsg, if_neg hne, if_pos ht, rrepOf_congr hagree (Nat.le_refl _), rrepOf_rrepBuf]

theorem read_rrepAck (h : Received (wireBytes .rrepAck) buf) : readMsg buf = some .rrepAck := by
  have hagree : Agree rrepAckSize buf rrepAckBuf := agree_take h
  have ht : buf 0 = aodvRrepAck := hagree 0 (by decide)
  rw [readMsg, ht]
  rfl

theorem read_rerr {m : RERR} (hne : m.udests ≠ []) (hlen : m.udests.length ≤ 127)
    (h : Received (wireBytes (.rerr m)) buf) :
    readMsg buf = some (.rerr m) ∧ rerrCalcSize (buf 3) = wireSize (.rerr m) := by
  have hagree : Agree (12 + 8 * (m.udests.length - 1)) buf (rerrBuf m) := agree_take h
  have hpos : 0 < m.udests.length := List.length_pos_iff.2 hne
  have ht : buf 0 = aodvRerr := by
    rw [hagree 0 (by omega), rerrBuf, storeUdests_header _ _ (by decide),
      store_apply_of_ne _ _ _ _ (by decide)]
    rfl
  have hcount : buf 3 = BitVec.ofNat 8 m.udests.length := by
    rw [hagree 3 (by omega), rerrBuf, storeUdests_header _ _ (by decide), store_apply_self]
  have hsize : rerrCalcSize (buf 3) = wireSize (.rerr m) := by
    rw [hcount, rerrCalcSize_ofNat hlen]
    change _ = ((12 + 8 * (m.udests.length - 1) : Nat) : Int)
    omega
  have hpass : ¬ ((12 + 8 * (m.udests.length - 1) : Nat) : Int) < rerrCalcSize (buf 3) := by
    rw [hsize]
    exact Int.lt_irrefl _
  have hlisted : listed buf = m.udests := by
    rw [listed_congr hagree hpass (hagree 3 (by omega)), listed_rerrBuf hlen]
  have hn : (buf 1).getLsbD 0 = m.n := by
    rw [hagree 1 (by omega), nodelete_rerrBuf]
  refine ⟨?_, hsize⟩
  rw [readMsg, ht, hlisted, hn]
  rfl

/-- What a message is on the wire, its handler reads as that message and accepts. -/
theorem read_wire (hm : Sendable msg) (h : Received (wireBytes msg) buf) :
    readMsg buf = some msg ∧ passes buf (wireBytes msg).length msg := by
  rw [wireBytes_length]
  cases msg with
  | rreq m => exact ⟨read_rreq m h, Nat.le_refl _⟩
  | rrep m => exact ⟨read_rrep m h, Nat.le_refl _⟩
  | rrepAck => exact ⟨read_rrepAck h, trivial⟩
  | rerr m =>
      obtain ⟨hread, hsize⟩ := read_rerr hm.1 hm.2 h
      exact ⟨hread, Int.le_of_eq hsize⟩
  | queued => exact hm.elim

/-- A message in the send buffer as the create functions leave it there, and the length
that its sender hands to aodv_socket_send. -/
inductive Composed : Daemon → Msg → Int → Prop
  | rreq (s : Daemon) (flags : U8) (dest : Addr) (destSeqno : U32) (orig : Addr) :
      Composed (rreqCreate s flags dest destSeqno orig).1
        (.rreq (rreqCreate s flags dest destSeqno orig).2) rreqSize
  | rrep (s : Daemon) (flagR flagA : Bool) (prefixSz : BitVec 5) (hopcnt : U8) (dest : Addr)
      (seqno : U32) (orig : Addr) (life : U32) :
      Composed (rrepCreate s flagR flagA prefixSz hopcnt dest seqno orig life).1
        (.rrep (rrepCreate s flagR flagA prefixSz hopcnt dest seqno orig life).2) rrepSize
  | rrepAck (s : Daemon) : Composed (rrepAckCreate s) .rrepAck nextHopWait
  | rerr (s : Daemon) (nodelete : Bool) (dest : Addr) (seqno : U32) :
      Composed (rerrCreate s nodelete dest seqno).1 (.rerr (rerrCreate s nodelete dest seqno).2)
        (rerrCalcSize ((rerrCreate s nodelete dest seqno).1.sendBuf 3))
  | udest {s : Daemon} {m : RERR} {len : Int} (h : Composed s (.rerr m) len)
      (hroom : m.udests.length < 127) (dest : Addr) (seqno : U32) :
      Composed (rerrAddUdest s m dest seqno).1 (.rerr (rerrAddUdest s m dest seqno).2)
        (rerrCalcSize ((rerrAddUdest s m dest seqno).1.sendBuf 3))

theorem composed_rerr {m : RERR} (h : Composed s (.rerr m) len) :
    Written s m ∧ m.udests.length ≤ 127 ∧ len = rerrCalcSize (s.sendBuf 3) := by
  generalize hmsg : Msg.rerr m = msg at h
  induction h generalizing m with
  | rreq | rrep | rrepAck => cases hmsg
  | rerr s nodelete dest seqno =>
      cases hmsg
      exact ⟨written_create s nodelete dest seqno, Nat.le_of_ble_eq_true rfl, rfl⟩
  | @udest s m len h hroom dest seqno ih =>
      cases hmsg
      refine ⟨written_add (ih rfl).1 dest seqno, ?_, rfl⟩
      change (m.udests ++ [(dest, seqno)]).length ≤ 127
      rw [List.length_append]
      exact hroom

theorem composed_sent (hc : Composed s msg len) {t : Daemon} (hbuf : t.sendBuf = s.sendBuf)
    (hsent : (sendOutcome e t dest len.toNat).sent = some bytes) :
    Sendable msg ∧ (bytes = wireBytes msg ∨ msg = .rrepAck ∧ bytes = take rrepAckBuf 50) := by
  obtain ⟨rfl, -⟩ := sendOutcome_sent e t dest len.toNat bytes hsent
  rw [hbuf]
  cases hc with
  | rreq | rrep => exact ⟨trivial, .inl rfl⟩
  | rrepAck => exact ⟨trivial, .inr ⟨rfl, rfl⟩⟩
  | rerr s nodelete dest seqno =>
      obtain ⟨hw, hle, -⟩ := composed_rerr (.rerr s nodelete dest seqno)
      obtain ⟨hbytes, hlen⟩ := hw.carries hle
      refine ⟨⟨hw.nonempty, hle⟩, .inl ?_⟩
      rw [hlen]
      exact hbytes
  | udest h hroom dest seqno =>
      obtain ⟨hw, hle, -⟩ := composed_rerr (.udest h hroom dest seqno)
      obtain ⟨hbytes, hlen⟩ := hw.carries hle
      refine ⟨⟨hw.nonempty, hle⟩, .inl ?_⟩
      rw [hlen]
      exact hbytes

theorem read_sent (hm : Sendable msg)
    (hbytes : bytes = wireBytes msg ∨ msg = .rrepAck ∧ bytes = take rrepAckBuf 50) :
    bytes.length ≤ receBufSize ∧
      ∀ buf, Received bytes buf → readMsg buf = some msg ∧ passes buf bytes.length msg := by
  obtain rfl | ⟨rfl, rfl⟩ := hbytes
  · refine ⟨?_, fun buf h => read_wire hm h⟩
    rw [wireBytes_length]
    exact wireSize_le hm
  · refine ⟨by decide, fun buf h => ⟨?_, trivial⟩⟩
    have hagree : Agree 50 buf rrepAckBuf := agree_take h
    have ht : buf 0 = aodvRrepAck := hagree 0 (by decide)
    rw [readMsg, ht]
    rfl

/-- A composed message that is sent before anything else is put into the send buffer is
read by everyone who gets the datagram, whatever was in the buffer before; by its length
and its type it is that message for every handler, and no other message leaves the daemon
as these bytes. -/
theorem sent_message_read (e : Env) (dest : Addr) (hc : Composed s msg len) {t : Daemon}
    (hbuf : t.sendBuf = s.sendBuf) (hsent : (sendOutcome e t dest len.toNat).sent = some bytes) :
    bytes.length ≤ receBufSize ∧
      (∀ buf, Received bytes buf → readMsg buf = some msg ∧ passes buf bytes.length msg) ∧
      ∀ s' t' msg' len' dest', Composed s' msg' len' → t'.sendBuf = s'.sendBuf →
        (sendOutcome e t' dest' len'.toNat).sent = some bytes → msg' = msg := by
  obtain ⟨hm, hbytes⟩ := composed_sent hc hbuf hsent
  obtain ⟨hfits, hread⟩ := read_sent hm hbytes
  refine ⟨hfits, hread, fun s' t' msg' len' dest' hc' hbuf' hsent' => ?_⟩
  obtain ⟨hm', hbytes'⟩ := composed_sent hc' hbuf' hsent'
  have hbuffer := received_overlay bytes zeroed
  have hmsg := ((read_sent hm' hbytes').2 _ hbuffer).1
  rw [(hread _ hbuffer).1] at hmsg
  exact (Option.some.inj hmsg).symm

end Reading

def reporting : Daemon × RERR :=
  let (s, m) := rerrCreate (init plain 0x0100000a 0xff00000a 2) true 0x0900000a 7
  rerrAddUdest s m 0x0800000a 4

theorem sent_message_read_reporting :
    (sendOutcome plain reporting.1 aodvBroadcast 20).sent = some (take reporting.1.sendBuf 20) ∧
      ∀ buf, Received (take reporting.1.sendBuf 20) buf →
        readMsg buf = some (.rerr ⟨true, [(0x0900000a, 7), (0x0800000a, 4)]⟩) := by
  have hsent : (sendOutcome plain reporting.1 aodvBroadcast 20).sent =
      some (take reporting.1.sendBuf 20) := by decide +kernel
  have hc : Composed reporting.1 (.rerr reporting.2) 20 :=
    .udest (.rerr (init plain 0x0100000a 0xff00000a 2) true 0x0900000a 7) (by decide) 0x0800000a 4
  obtain ⟨-, hread, -⟩ := sent_message_read plain aodvBroadcast hc rfl hsent
  exact ⟨hsent, fun buf h => (hread buf h).1⟩

end Aodv.WireFormat
