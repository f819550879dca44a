import Aodv.KaodvQueue

namespace Aodv

open Lib.Bytes

variable {a : Arch}

def kaodvmAddroute : U8 := 101
def kaodvmDelroute : U8 := 102
def kaodvmNorouteFound : U8 := 106
def kaodvmConfig : U8 := 109

def einval : Int := 22
def ecomm : Int := 70
def ebusy : Int := 16

/-- A message that finds no memory is lost. -/
def netlinkBroadcast (e : KEnv a) (k : Kaodv a) (m : RtMsg) : Kaodv a :=
  if e.nlmsgNew k.tick then { k.tock with nlsock := k.nlsock ++ [m] } else k.tock

def kaodvNetlinkSendRtMsg (e : KEnv a) (k : Kaodv a) (type : KaodvmType) (src dest : Addr) :
    Kaodv a :=
  netlinkBroadcast e k ⟨type, 0, src, dest, 0⟩

def kaodvNetlinkSendRtUpdateMsg (e : KEnv a) (k : Kaodv a) (type : U8) (src dest : Addr)
    (ifindex : Int) : Kaodv a :=
  netlinkBroadcast e k ⟨.routeUpdate, type, src, dest, ifindex⟩

def kaodvNetlinkSendRerrMsg (e : KEnv a) (k : Kaodv a) (type : U8) (src dest : Addr)
    (ifindex : Int) : Kaodv a :=
  netlinkBroadcast e k ⟨.sendRerr, type, src, dest, ifindex⟩

structure KaodvRtMsg (a : Arch) where
  type : U8
  src : Addr
  dest : Addr
  nhop : Addr
  flags : U8
  ifindex : U32
  time : ULong a
deriving DecidableEq

def kaodvRtMsgSize : Arch → Nat
  | .long32 => 28
  | .long64 => 32

def loadULong : (a : Arch) → Buf → Nat → ULong a
  | .long32, b, off => loadLE b off
  | .long64, b, off => loadLE b (off + 4) ++ loadLE b off

def rtMsgOf (a : Arch) (msg : Buf) : KaodvRtMsg a where
  type := msg 0
  src := loadLE msg 4
  dest := loadLE msg 8
  nhop := loadLE msg 12
  flags := msg 16
  ifindex := loadLE msg 20
  time := loadULong a msg 24

def kaodvConfMsgSize : Nat := 4

/-- An ADDROUTE updates the entry that is there or adds one, and whatever came of
it the queued packets for the destination go. -/
def receiveAddroute (e : KEnv a) (k : Kaodv a) (m : KaodvRtMsg a) : Kaodv a × Int :=
  let (k, ret) :=
    match kaodvExplGet k.expl m.dest with
    | some _ => k.explUpdate e m.dest m.nhop m.time (m.flags.setWidth 16) m.ifindex.toInt
    | none => k.explAdd e m.dest m.nhop m.time (m.flags.setWidth 16) m.ifindex.toInt
  ((kaodvQueueSetVerdict e k kaodvQueueSend m.dest).1, ret)

def receiveDelroute (e : KEnv a) (k : Kaodv a) (m : KaodvRtMsg a) : Kaodv a :=
  let k := { k with expl := (kaodvExplDel k.expl m.dest).1 }
  (kaodvQueueSetVerdict e k kaodvQueueDrop m.dest).1

def kaodvNetlinkReceivePeer (e : KEnv a) (k : Kaodv a) (type : U8) (msg : Buf) (len : Nat) :
    Kaodv a × Int :=
  if type = kaodvmAddroute then
    if len < kaodvRtMsgSize a then (k, -einval) else receiveAddroute e k (rtMsgOf a msg)
  else if type = kaodvmDelroute then
    if len < kaodvRtMsgSize a then (k, -einval) else (receiveDelroute e k (rtMsgOf a msg), 0)
  else if type = kaodvmNorouteFound then
    if len < kaodvRtMsgSize a then (k, -einval)
    else ((kaodvQueueSetVerdict e k kaodvQueueDrop (rtMsgOf a msg).dest).1, 0)
  else if type = kaodvmConfig then
    if len < kaodvConfMsgSize then (k, -einval)
    else ({ k with activeRouteTimeout := (loadLE msg 0).toInt }, 0)
  else (k, -einval)

def nlmFRequest : U16 := 1
def nlmFMulti : U16 := 2
def nlmFAck : U16 := 4
def msgTrunc : U16 := 0x20

def nlmsghdrSize : Nat := 16

/-- An int is less than a sizeof: the comparison is unsigned. -/
def ltSizeof (x : Int) (size : Nat) : Prop := 0 ≤ x ∧ x < size

instance (x : Int) (size : Nat) : Decidable (ltSizeof x size) :=
  inferInstanceAs (Decidable (_ ∧ _))

/-- The type is handed on as an unsigned char, and with it all the bytes behind the
header. The second result is the error of the netlink_ack, if there is one. -/
def kaodvNetlinkRcvSkb (e : KEnv a) (k : Kaodv a) (len : U32) (data : Buf) :
    Kaodv a × Option Int :=
  let skblen := len.toInt
  let nlmsglen := (loadLE data 0).toInt
  if ltSizeof skblen nlmsghdrSize then (k, none)
  else if ltSizeof nlmsglen nlmsghdrSize ∨ skblen < nlmsglen then (k, none)
  else
    let pid := (loadLE data 12).toInt
    let flags := loadLE16 data 6
    if pid ≤ 0 ∨ flags &&& nlmFRequest = 0 ∨ flags &&& nlmFMulti ≠ 0 then (k, some (-einval))
    else if flags &&& msgTrunc ≠ 0 then (k, some (-ecomm))
    else
      let type := loadLE16 data 4
      if k.peerPid ≠ 0 ∧ k.peerPid ≠ pid then (k, some (-ebusy))
      else
        let k := if k.peerPid = 0 then { k with peerPid := pid } else k
        let (k, status) := kaodvNetlinkReceivePeer e k (type.setWidth 8)
          (fun i => data (nlmsghdrSize + i)) (len - BitVec.ofNat 32 nlmsghdrSize).toNat
        if status < 0 then (k, some status)
        else (k, if flags &&& nlmFAck ≠ 0 then some 0 else none)

end Aodv
