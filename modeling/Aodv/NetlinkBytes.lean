import Aodv.Combined
import Aodv.RouteRequest

namespace Aodv.Kernel

open Lib.Bytes PacketOwner
open RouteRequest (nlmsgLength)

variable {a : Arch}

def nlmsg (len : U32) (type flags : U16) (data : Buf) : Buf := fun i =>
  if i < nlmsghdrSize then storeLE16 (storeLE16 (storeLE zeroed 0 len) 4 type) 6 flags i
  else data (i - nlmsghdrSize)

def kaodvmTimeout : U16 := 103
def kaodvmRouteReq : U16 := 104
def kaodvmRepair : U16 := 105
def kaodvmRouteUpdate : U16 := 107
def kaodvmSendRerr : U16 := 108
def kaodvmDebug : U16 := 110
def nlmsgError : U16 := 2

def typeCode : KaodvmType → U16
  | .addroute => kaodvmAddroute.setWidth 16
  | .delroute => kaodvmDelroute.setWidth 16
  | .timeout => kaodvmTimeout
  | .routeReq => kaodvmRouteReq
  | .repair => kaodvmRepair
  | .norouteFound => kaodvmNorouteFound.setWidth 16
  | .routeUpdate => kaodvmRouteUpdate
  | .sendRerr => kaodvmSendRerr
  | .config => kaodvmConfig.setWidth 16
  | .debug => kaodvmDebug

def kaodvNetlinkBuildMsg (type : U16) (data : Buf) (len : Nat) : List U8 :=
  take (nlmsg (nlmsgLength (BitVec.ofNat 32 len)) type 0 data) (nlmsghdrSize + len)

def rtMsgImage (m : RtMsg) : Buf :=
  let b := storeLE (storeLE (store zeroed 0 m.type) 4 m.src) 8 m.dest
  storeLE b 20 (BitVec.ofInt 32 m.ifindex)

def posted (a : Arch) (m : RtMsg) : List U8 :=
  kaodvNetlinkBuildMsg (typeCode m.nlmsgType) (rtMsgImage m) (kaodvRtMsgSize a)

def buflen : Nat := 256

def received (datagram : List U8) (stale : Buf) : Buf := overlay (datagram.take buflen) stale

/-- The switch of nl_kaodv_callback. Errors, acknowledgements and texts are only logged. -/
def kernelMsgOf (buf : Buf) : KernelMsg :=
  let type := loadLE16 buf 4
  let src := loadLE buf (nlmsghdrSize + 4)
  let dest := loadLE buf (nlmsghdrSize + 8)
  if type = kaodvmTimeout then .timeout dest
  else if type = kaodvmRouteReq then .routeReq dest
  else if type = kaodvmRepair then .repair src dest
  else if type = kaodvmRouteUpdate then .routeUpdate src dest
  else if type = kaodvmSendRerr then .sendRerr src dest
  else .other

def rtMsgRequest (a : Arch) (type : U8) (data : Buf) (seqno pid : U32) : List U8 :=
  take (RouteRequest.nlSend (nlmsg (nlmsgLength (BitVec.ofNat 32 (kaodvRtMsgSize a)))
    (type.setWidth 16) nlmFRequest data) seqno pid) (nlmsghdrSize + kaodvRtMsgSize a)

def requestBytes (a : Arch) (seqno pid : U32) : NlMsg → List U8
  | .addRoute dest nhop time encap repair ifindex => rtMsgRequest a kaodvmAddroute
      (rtMsgBytes dest nhop (rtMsgFlags encap repair) ifindex time) seqno pid
  | .delRoute dest nhop =>
      rtMsgRequest a kaodvmDelroute (rtMsgBytes dest nhop 0 0 0) seqno pid
  | .noRouteFound dest =>
      rtMsgRequest a kaodvmNorouteFound (rtMsgBytes dest 0 0 0 0) seqno pid

/-- nl_send_conf_msg gives the length of the other structure, so that bytes of
the stack leave behind the timeout. -/
def confBytes (a : Arch) (seqno pid : U32) (stack : Buf) : List U8 :=
  rtMsgRequest a kaodvmConfig (fun i =>
    if i < kaodvConfMsgSize then storeLE zeroed 0 (BitVec.ofInt 32 activeRouteTimeout) i
    else stack i) seqno pid

section Reading

variable {b c : Buf} {len : U32} {type flags : U16} {data : Buf} {i : Nat}

theorem nlmsg_header (h : i < nlmsghdrSize) : nlmsg len type flags data i =
    storeLE16 (storeLE16 (storeLE zeroed 0 len) 4 type) 6 flags i := if_pos h

theorem nlmsg_data (len : U32) (type flags : U16) (data : Buf) (i : Nat) :
    nlmsg len type flags data (nlmsghdrSize + i) = data i := by
  rw [nlmsg, if_neg (by omega), Nat.add_sub_cancel_left]

theorem nlmsg_len (len : U32) (type flags : U16) (data : Buf) :
    loadLE (nlmsg len type flags data) 0 = len := by
  refine Eq.trans (loadLE_congr fun i _ hi => ?_) (loadLE_storeLE zeroed 0 len)
  rw [nlmsg_header (Nat.lt_trans hi (by decide)),
    storeLE16_apply_of_ne _ _ _ _ (by omega) (by omega),
    storeLE16_apply_of_ne _ _ _ _ (by omega) (by omega)]

theorem nlmsg_type (len : U32) (type flags : U16) (data : Buf) :
    loadLE16 (nlmsg len type flags data) 4 = type := by
  refine Eq.trans (loadLE16_congr ?_ ?_) (loadLE16_storeLE16 (storeLE zeroed 0 len) 4 type)
  · exact storeLE16_apply_of_ne _ 6 flags 4 (by decide) (by decide)
  · exact storeLE16_apply_of_ne _ 6 flags 5 (by decide) (by decide)

theorem nlmsg_flags (len : U32) (type flags : U16) (data : Buf) :
    loadLE16 (nlmsg len type flags data) 6 = flags :=
  (loadLE16_congr (nlmsg_header (by decide)) (nlmsg_header (by decide))).trans
    (loadLE16_storeLE16 _ 6 flags)

theorem nlmsg_word (len : U32) (type flags : U16) (data : Buf) (off : Nat) :
    loadLE (nlmsg len type flags data) (nlmsghdrSize + off) = loadLE data off := by
  simp only [loadLE, Nat.add_assoc, nlmsg_data]

theorem kernelMsgOf_congr (h : ∀ i, i < nlmsghdrSize + 12 → b i = c i) :
    kernelMsgOf b = kernelMsgOf c := by
  have htype : loadLE16 b 4 = loadLE16 c 4 := loadLE16_congr (h 4 (by decide)) (h 5 (by decide))
  have hword (off : Nat) (hoff : off + 4 ≤ nlmsghdrSize + 12) : loadLE b off = loadLE c off :=
    loadLE_congr fun i _ hi => h i (Nat.lt_of_lt_of_le hi hoff)
  rw [kernelMsgOf, kernelMsgOf, htype, hword _ (by decide), hword _ (by decide)]

theorem src_rtMsgImage (m : RtMsg) : loadLE (rtMsgImage m) 4 = m.src := by
  refine Eq.trans (loadLE_congr fun i hlo hhi => ?_)
    (loadLE_storeLE (store zeroed 0 m.type) 4 m.src)
  rw [rtMsgImage, storeLE_apply_of_disjoint _ _ _ _ (by omega),
    storeLE_apply_of_disjoint _ _ _ _ (by omega)]

theorem dest_rtMsgImage (m : RtMsg) : loadLE (rtMsgImage m) 8 = m.dest := by
  refine Eq.trans (loadLE_congr fun i hlo hhi => ?_)
    (loadLE_storeLE (storeLE (store zeroed 0 m.type) 4 m.src) 8 m.dest)
  rw [rtMsgImage, storeLE_apply_of_disjoint _ _ _ _ (by omega)]

theorem rtMsgSize_bounds (a : Arch) : 28 ≤ kaodvRtMsgSize a ∧ kaodvRtMsgSize a ≤ 32 := by
  cases a <;> decide

theorem posted_length (a : Arch) (m : RtMsg) :
    (posted a m).length = nlmsghdrSize + kaodvRtMsgSize a := take_length _ _

theorem received_posted (a : Arch) (m : RtMsg) (stale : Buf) :
    kernelMsgOf (received (posted a m) stale) = Kernel.heard m := by
  obtain ⟨hlo, hhi⟩ := rtMsgSize_bounds a
  have hsize : nlmsghdrSize = 16 := rfl
  have hwhole : (posted a m).take buflen = posted a m := by
    apply List.take_of_length_le
    rw [posted_length, buflen]
    omega
  have hread : kernelMsgOf (received (posted a m) stale) = kernelMsgOf
      (nlmsg (nlmsgLength (BitVec.ofNat 32 (kaodvRtMsgSize a))) (typeCode m.nlmsgType) 0
        (rtMsgImage m)) := by
    apply kernelMsgOf_congr
    intro i hi
    rw [received, hwhole, posted, kaodvNetlinkBuildMsg]
    exact overlay_take _ _ _ _ (by omega)
  rw [hread, kernelMsgOf, nlmsg_type, nlmsg_word, nlmsg_word, src_rtMsgImage, dest_rtMsgImage,
    Kernel.heard]
  cases m.nlmsgType <;> rfl

theorem kernelMsgOf_error (h : loadLE16 b 4 = nlmsgError) : kernelMsgOf b = .other := by
  rw [kernelMsgOf, h]
  rfl

end Reading

section Requests

variable {e : KEnv a} {k : Kaodv a} {msg msg' data slack : Buf} {type : U8} {seqno pid : U32}

theorem rtMsgOf_congr (h : ∀ i, i < kaodvRtMsgSize a → msg i = msg' i) :
    rtMsgOf a msg = rtMsgOf a msg' := by
  obtain ⟨hlo, -⟩ := rtMsgSize_bounds a
  have hword (off : Nat) (hoff : off + 4 ≤ kaodvRtMsgSize a) : loadLE msg off = loadLE msg' off :=
    loadLE_congr fun i _ hi => h i (Nat.lt_of_lt_of_le hi hoff)
  have htime : loadULong a msg 24 = loadULong a msg' 24 := by
    cases a with
    | long32 => exact hword 24 (by decide)
    | long64 =>
        rw [loadULong, loadULong, hword 24 (by decide), hword 28 (by decide)]
  rw [rtMsgOf, rtMsgOf, h 0 (by omega), h 16 (by omega), hword 4 (by omega), hword 8 (by omega),
    hword 12 (by omega), hword 20 (by omega), htime]

theorem peer_congr (e : KEnv a) (k : Kaodv a) (type : U8)
    (h : ∀ i, i < kaodvRtMsgSize a → msg i = msg' i) :
    kaodvNetlinkReceivePeer e k type msg (kaodvRtMsgSize a) =
      kaodvNetlinkReceivePeer e k type msg' (kaodvRtMsgSize a) := by
  obtain ⟨hlo, -⟩ := rtMsgSize_bounds a
  have htimeout : loadLE msg 0 = loadLE msg' 0 := loadLE_congr fun i _ hi => h i (by omega)
  simp only [kaodvNetlinkReceivePeer, rtMsgOf_congr h, htimeout]

theorem nlSend_header (b : Buf) (seqno pid : U32) :
    loadLE (RouteRequest.nlSend b seqno pid) 0 = loadLE b 0 ∧
      loadLE16 (RouteRequest.nlSend b seqno pid) 4 = loadLE16 b 4 ∧
      loadLE16 (RouteRequest.nlSend b seqno pid) 6 = loadLE16 b 6 ||| nlmFAck ∧
      loadLE (RouteRequest.nlSend b seqno pid) 12 = pid ∧
      ∀ i, nlmsghdrSize ≤ i → RouteRequest.nlSend b seqno pid i = b i := by
  have hout (i : Nat) (h6 : i ≠ 6 ∧ i ≠ 7) : RouteRequest.nlSend b seqno pid i =
      storeLE (storeLE b 8 seqno) 12 pid i := storeLE16_apply_of_ne _ _ _ _ h6.1 h6.2
  have hrest (i : Nat) (h6 : i ≠ 6 ∧ i ≠ 7) (hi : i < 8 ∨ 16 ≤ i) :
      RouteRequest.nlSend b seqno pid i = b i := by
    rw [hout i h6, storeLE_apply_of_disjoint _ _ _ _ (by omega),
      storeLE_apply_of_disjoint _ _ _ _ (by omega)]
  refine ⟨loadLE_congr fun i _ hi => hrest i (by omega) (by omega),
    loadLE16_congr (hrest 4 (by omega) (by omega)) (hrest 5 (by omega) (by omega)), ?_, ?_,
    fun i hi => hrest i ?_ ?_⟩
  · have hkeep : loadLE16 (storeLE (storeLE b 8 seqno) 12 pid) 6 = loadLE16 b 6 := by
      apply loadLE16_congr
      · rw [storeLE_apply_of_disjoint _ _ _ _ (by omega),
          storeLE_apply_of_disjoint _ _ _ _ (by omega)]
      · rw [storeLE_apply_of_disjoint _ _ _ _ (by omega),
          storeLE_apply_of_disjoint _ _ _ _ (by omega)]
    rw [RouteRequest.nlSend, loadLE16_storeLE16, hkeep]
    rfl
  · refine Eq.trans (loadLE_congr fun i hlo _ => hout i (by omega)) (loadLE_storeLE _ 12 pid)
  · rw [nlmsghdrSize] at hi
    omega
  · rw [nlmsghdrSize] at hi
    omega

/-- A request that asks for an acknowledgement gets one, or an error. Its sender
is the peer from then on. -/
theorem rcv_accepted {len : U32} {b : Buf} (hlen : (nlmsghdrSize : Int) ≤ len.toInt)
    (hwhole : loadLE b 0 = len) (hflags : loadLE16 b 6 = nlmFRequest ||| nlmFAck)
    (hfrom : loadLE b 12 = pid) (hpid : 0 < pid.toInt)
    (hpeer : k.peerPid = 0 ∨ k.peerPid = pid.toInt) :
    let r := kaodvNetlinkReceivePeer e { k with peerPid := pid.toInt }
      ((loadLE16 b 4).setWidth 8) (fun i => b (nlmsghdrSize + i))
      (len - BitVec.ofNat 32 nlmsghdrSize).toNat
    kaodvNetlinkRcvSkb e k len b = (r.1, some (if r.2 < 0 then r.2 else 0)) := by
  have hsize : ¬ ltSizeof len.toInt nlmsghdrSize := fun h => Int.not_lt.2 hlen h.2
  have hpass : ¬ (pid.toInt ≤ 0 ∨ (nlmFRequest ||| nlmFAck) &&& nlmFRequest = 0 ∨
      (nlmFRequest ||| nlmFAck) &&& nlmFMulti ≠ 0) := by
    rintro (h | h | h)
    · exact Int.not_le.2 hpid h
    · exact absurd h (by decide)
    · exact h (by decide)
  have hours : ¬ (k.peerPid ≠ 0 ∧ k.peerPid ≠ pid.toInt) := by
    rintro ⟨h, h'⟩
    rcases hpeer with hp | hp
    · exact h hp
    · exact h' hp
  have hset : (if k.peerPid = 0 then { k with peerPid := pid.toInt } else k) =
      { k with peerPid := pid.toInt } := by
    rcases hpeer with hp | hp
    · rw [if_pos hp]
    · split
      · rfl
      · rw [← hp]
  simp only [kaodvNetlinkRcvSkb, hwhole, hflags, hfrom]
  rw [if_neg hsize, if_neg (fun h => h.elim hsize (Int.lt_irrefl _)), if_neg hpass,
    if_neg (by decide), if_neg hours, hset]
  generalize kaodvNetlinkReceivePeer e { k with peerPid := pid.toInt } _ _ _ = r
  split
  · rfl
  · rw [if_pos (by decide)]

theorem rcv_rtMsgRequest (e : KEnv a) (type : U8) (data slack : Buf) (seqno : U32)
    (hpid : 0 < pid.toInt) (hpeer : k.peerPid = 0 ∨ k.peerPid = pid.toInt) :
    let r := kaodvNetlinkReceivePeer e { k with peerPid := pid.toInt } type data (kaodvRtMsgSize a)
    kaodvNetlinkRcvSkb e k (BitVec.ofNat 32 (rtMsgRequest a type data seqno pid).length)
      (overlay (rtMsgRequest a type data seqno pid) slack) =
        (r.1, some (if r.2 < 0 then r.2 else 0)) := by
  obtain ⟨hwhole, htype, hflags, hfrom, hbehind⟩ := nlSend_header
    (nlmsg (nlmsgLength (BitVec.ofNat 32 (kaodvRtMsgSize a))) (type.setWidth 16) nlmFRequest data)
    seqno pid
  rw [nlmsg_len] at hwhole
  rw [nlmsg_type] at htype
  rw [nlmsg_flags] at hflags
  have hover (i : Nat) (hi : i < nlmsghdrSize + kaodvRtMsgSize a) :
      overlay (rtMsgRequest a type data seqno pid) slack i = _ := overlay_take _ slack _ i hi
  have hhead (i : Nat) (hi : i < nlmsghdrSize) := hover i (Nat.lt_add_right _ hi)
  have hlength : BitVec.ofNat 32 (rtMsgRequest a type data seqno pid).length =
      nlmsgLength (BitVec.ofNat 32 (kaodvRtMsgSize a)) := by
    rw [rtMsgRequest, take_length]
    cases a <;> rfl
  have hbytes (i : Nat) (hi : i < kaodvRtMsgSize a) :
      overlay (rtMsgRequest a type data seqno pid) slack (nlmsghdrSize + i) = data i := by
    rw [hover _ (Nat.add_lt_add_left hi _), hbehind _ (Nat.le_add_right _ _), nlmsg_data]
  have hlen : nlmsghdrSize ≤ (nlmsgLength (BitVec.ofNat 32 (kaodvRtMsgSize a))).toInt := by
    cases a <;> decide
  have hrcv := rcv_accepted (e := e) (k := k)
    (b := overlay (rtMsgRequest a type data seqno pid) slack) hlen
    ((loadLE_congr fun i _ hi => hhead i (Nat.lt_trans hi (by decide))).trans hwhole)
    ((loadLE16_congr (hhead 6 (by decide)) (hhead 7 (by decide))).trans hflags)
    ((loadLE_congr fun i _ hi => hhead i hi).trans hfrom) hpid hpeer
  have hkind :
      (loadLE16 (overlay (rtMsgRequest a type data seqno pid) slack) 4).setWidth 8 = type := by
    rw [loadLE16_congr (hhead 4 (by decide)) (hhead 5 (by decide)), htype]
    simp
  have hrest : (nlmsgLength (BitVec.ofNat 32 (kaodvRtMsgSize a)) -
      BitVec.ofNat 32 nlmsghdrSize).toNat = kaodvRtMsgSize a := by cases a <;> rfl
  rw [hkind, hrest, peer_congr e _ type hbytes] at hrcv
  rw [hlength]
  exact hrcv

theorem rcv_request (e : KEnv a) (m : NlMsg) (seqno : U32) (slack : Buf) (hpid : 0 < pid.toInt)
    (hpeer : k.peerPid = 0 ∨ k.peerPid = pid.toInt) :
    ∃ status, kaodvNetlinkRcvSkb e k (BitVec.ofNat 32 (requestBytes a seqno pid m).length)
      (overlay (requestBytes a seqno pid m) slack) =
        (turn e { k with peerPid := pid.toInt } (nlSend a m), some status) := by
  cases m with
  | addRoute | delRoute | noRouteFound => exact ⟨_, rcv_rtMsgRequest e _ _ _ _ hpid hpeer⟩

theorem rcv_conf (e : KEnv a) (seqno : U32) (stack slack : Buf) (hpid : 0 < pid.toInt)
    (hpeer : k.peerPid = 0 ∨ k.peerPid = pid.toInt) :
    kaodvNetlinkRcvSkb e k (BitVec.ofNat 32 (confBytes a seqno pid stack).length)
      (overlay (confBytes a seqno pid stack) slack) =
        ({ k with peerPid := pid.toInt, activeRouteTimeout := activeRouteTimeout }, some 0) := by
  have hrcv := rcv_rtMsgRequest (k := k) e kaodvmConfig (fun i =>
    if i < kaodvConfMsgSize then storeLE zeroed 0 (BitVec.ofInt 32 activeRouteTimeout) i
    else stack i) slack seqno hpid hpeer
  have htimeout : loadLE (fun i =>
      if i < kaodvConfMsgSize then storeLE zeroed 0 (BitVec.ofInt 32 activeRouteTimeout) i
      else stack i) 0 = BitVec.ofInt 32 activeRouteTimeout :=
    (loadLE_congr fun i _ hi => if_pos hi).trans (loadLE_storeLE zeroed 0 _)
  obtain ⟨hlo, -⟩ := rtMsgSize_bounds a
  have hlong : ¬ kaodvRtMsgSize a < kaodvConfMsgSize := by
    rw [kaodvConfMsgSize]
    omega
  rw [confBytes, hrcv, kaodvNetlinkReceivePeer, if_neg (by decide), if_neg (by decide),
    if_neg (by decide), if_pos rfl, if_neg hlong, htimeout]
  rfl

end Requests

end Aodv.Kernel
