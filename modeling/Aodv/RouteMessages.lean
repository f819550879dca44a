import Aodv.PacketOwner

namespace Aodv.Kernel

open Lib.Bytes PacketOwner

def rtMsgFlags (encap repair : Bool) : U8 := (if encap then 1 else 0) ||| (if repair then 2 else 0)

/-- A struct kaodv_rt_msg as the daemon fills it in. The field time comes last,
and what lies above its 32 bits is zero. -/
def rtMsgBytes (dest nhop : Addr) (flags : U8) (ifindex : Int) (time : U32) : Buf :=
  let b := storeLE (storeLE zeroed 8 dest) 12 nhop
  let b := storeLE (store b 16 flags) 20 (BitVec.ofInt 32 ifindex)
  storeLE b 24 time

/-- What one nl_send to the kernel module hands to it. -/
def nlSend (a : Arch) : NlMsg → Turn
  | .addRoute dest nhop time encap repair ifindex =>
      .netlink kaodvmAddroute (rtMsgBytes dest nhop (rtMsgFlags encap repair) ifindex time)
        (kaodvRtMsgSize a)
  | .delRoute dest nhop => .netlink kaodvmDelroute (rtMsgBytes dest nhop 0 0 0) (kaodvRtMsgSize a)
  | .noRouteFound dest => .netlink kaodvmNorouteFound (rtMsgBytes dest 0 0 0 0) (kaodvRtMsgSize a)

def destOf : NlMsg → Addr
  | .addRoute dest .. | .delRoute dest _ | .noRouteFound dest => dest

section

variable (a : Arch) (dest nhop : Addr) (flags : U8) (ifindex : Int) (time : U32)

theorem dest_rtMsgBytes : (rtMsgOf a (rtMsgBytes dest nhop flags ifindex time)).dest = dest := by
  rw [rtMsgOf]
  dsimp only
  refine Eq.trans ?_ (loadLE_storeLE zeroed 8 dest)
  apply loadLE_congr
  intro i hlo hhi
  rw [rtMsgBytes, storeLE_apply_of_disjoint _ _ _ _ (by omega),
    storeLE_apply_of_disjoint _ _ _ _ (by omega), store_apply_of_ne _ _ _ _ (by omega),
    storeLE_apply_of_disjoint _ _ _ _ (by omega)]

theorem nhop_rtMsgBytes : (rtMsgOf a (rtMsgBytes dest nhop flags ifindex time)).nhop = nhop := by
  rw [rtMsgOf]
  dsimp only
  refine Eq.trans ?_ (loadLE_storeLE (storeLE zeroed 8 dest) 12 nhop)
  apply loadLE_congr
  intro i hlo hhi
  rw [rtMsgBytes, storeLE_apply_of_disjoint _ _ _ _ (by omega),
    storeLE_apply_of_disjoint _ _ _ _ (by omega), store_apply_of_ne _ _ _ _ (by omega)]

theorem flags_rtMsgBytes : (rtMsgOf a (rtMsgBytes dest nhop flags ifindex time)).flags = flags := by
  rw [rtMsgOf]
  dsimp only
  rw [rtMsgBytes, storeLE_apply_of_disjoint _ _ _ _ (by omega),
    storeLE_apply_of_disjoint _ _ _ _ (by omega), store_apply_self]

end

theorem repair_rtMsgFlags (encap : Bool) :
    (rtMsgFlags encap false).setWidth 16 &&& kaodvRtRepair = 0 := by
  cases encap <;> decide

variable {a : Arch} {e : KEnv a} {k : Kaodv a}

theorem turn_addRoute (e : KEnv a) (k : Kaodv a) (dest nhop : Addr) (time : U32)
    (encap repair : Bool) (ifindex : Int) :
    turn e k (nlSend a (.addRoute dest nhop time encap repair ifindex)) =
      (receiveAddroute e k (rtMsgOf a (rtMsgBytes dest nhop (rtMsgFlags encap repair) ifindex
        time))).1 := by
  rw [nlSend, turn, kaodvNetlinkReceivePeer, if_pos rfl, if_neg (Nat.lt_irrefl _)]

theorem turn_delRoute (e : KEnv a) (k : Kaodv a) (dest nhop : Addr) :
    turn e k (nlSend a (.delRoute dest nhop)) =
      receiveDelroute e k (rtMsgOf a (rtMsgBytes dest nhop 0 0 0)) := by
  rw [nlSend, turn, kaodvNetlinkReceivePeer, if_neg (by decide), if_pos rfl,
    if_neg (Nat.lt_irrefl _)]

theorem turn_noRouteFound (e : KEnv a) (k : Kaodv a) (dest : Addr) :
    turn e k (nlSend a (.noRouteFound dest)) =
      (kaodvQueueSetVerdict e k kaodvQueueDrop dest).1 := by
  rw [nlSend, turn, kaodvNetlinkReceivePeer, if_neg (by decide), if_neg (by decide), if_pos rfl,
    if_neg (Nat.lt_irrefl _)]
  dsimp only
  rw [dest_rtMsgBytes]

end Aodv.Kernel
