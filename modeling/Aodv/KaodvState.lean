import Aodv.KaodvExpl

namespace Aodv

open Lib.Bytes

/-- A socket buffer: the object, whether it has a network header, and its bytes
from the IP header on. -/
structure Skb where
  ptr : Ptr
  hasIph : Bool
  len : Nat
  data : Buf

namespace Skb

variable (skb : Skb)

def headerLen : Nat := (skb.data 0 &&& 0x0f).toNat * 4

def tos : U8 := skb.data 1
def protocol : U8 := skb.data 9
def saddr : Addr := loadLE skb.data 12
def daddr : Addr := loadLE skb.data 16

def source : U16 := loadBE16 skb.data skb.headerLen
def dest : U16 := loadBE16 skb.data (skb.headerLen + 2)

end Skb

/-- A continuation of the network stack, by its address. -/
abbrev Okfn := Nat

structure RtInfo where
  tos : U8
  daddr : Addr
  saddr : Addr
deriving DecidableEq

structure QueueEntry where
  skb : Skb
  okfn : Okfn
  rtInfo : RtInfo

structure IfInfo where
  ifAddr : Addr
  bcAddr : Addr
  ifindex : Int
deriving DecidableEq

inductive KaodvmType
  | addroute | delroute | timeout | routeReq | repair | norouteFound | routeUpdate | sendRerr
  | config | debug
deriving DecidableEq

structure RtMsg where
  nlmsgType : KaodvmType
  type : U8
  src : Addr
  dest : Addr
  ifindex : Int
deriving DecidableEq

inductive SkbEvent
  | kfreeSkb (skb : Skb)
  | okfn (f : Okfn) (skb : Skb)
  | encapsulated (skb nskb : Skb)
  | icmpSend (skb : Skb)

/-- The kernel the module runs in: its clock, the interfaces, which allocations
succeed, and the helpers that write an IP header. -/
structure KEnv (a : Arch) where
  hz : ULong a
  jiffies : Nat → ULong a
  ifihead : List IfInfo
  kmalloc : Nat → Bool
  nlmsgNew : Nat → Bool
  skbCopyExpand : Nat → Bool
  ident : Nat → U16
  ipSendCheck : Buf → Buf

/-- The module's state. The messages in nlsock wait for the daemon to read
them, the oldest first. -/
structure Kaodv (a : Arch) where
  expl : Expl a
  queueList : List QueueEntry
  queueTotal : U32
  activeRouteTimeout : Int
  peerPid : Int
  nlsock : List RtMsg
  brk : Ptr
  tick : Nat
  trace : List SkbEvent

namespace Kaodv

variable {a : Arch} (k : Kaodv a)

def observe (o : SkbEvent) : Kaodv a := { k with trace := o :: k.trace }

/-- One answer of the kernel has been used up. -/
def tock : Kaodv a := { k with tick := k.tick + 1 }

def explAdd (e : KEnv a) (daddr nhop : Addr) (time : ULong a) (flags : U16) (ifindex : Int) :
    Kaodv a × Int :=
  let (x, status) := kaodvExplAdd e.hz (e.jiffies k.tick) (e.kmalloc k.tick) k.expl daddr nhop time
    flags ifindex
  ({ k.tock with expl := x }, status)

def explUpdate (e : KEnv a) (daddr nhop : Addr) (time : ULong a) (flags : U16) (ifindex : Int) :
    Kaodv a × Int :=
  let (x, status) := kaodvExplUpdate e.hz (e.jiffies k.tick) k.expl daddr nhop time flags ifindex
  ({ k.tock with expl := x }, status)

end Kaodv

def kaodvInit {a : Arch} : Kaodv a := ⟨kaodvExplInit, [], 0, 3000, 0, [], 0, 0, []⟩

end Aodv
