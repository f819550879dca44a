import Aodv.Lib.Bytes
import Mathlib.Logic.Function.Basic
import Mathlib.Data.List.FinRange

namespace Aodv

open Lib.Bytes

/-- The raw 32 bits of a struct in_addr, loaded as the little-endian target does. -/
abbrev Addr := U32

/-- The address malloc returned for an object. -/
abbrev Ptr := Nat

structure Timeval where
  tvSec : Int
  tvUsec : Int
deriving DecidableEq

inductive Handler
  | rreqRecordTimeout | rreqBlacklistTimeout | routeDiscoveryTimeout | localRepairTimeout
  | routeExpireTimeout | routeDeleteTimeout | helloTimeout | rrepAckTimeout
  | waitOnRebootTimeout | helloSend | printRtTable
deriving DecidableEq

inductive Data
  | null
  | obj (p : Ptr)
  | waitOnReboot
deriving DecidableEq

/-- Every struct timer of the daemon, named by the object it is embedded in. -/
inductive TimerId
  | rtTimer (p : Ptr) | ackTimer (p : Ptr) | helloTimer (p : Ptr)
  | seekTimer (p : Ptr) | recTimer (p : Ptr) | blTimer (p : Ptr)
  | worbTimer | ownHelloTimer | rtLogTimer
deriving DecidableEq

structure Timer where
  used : Bool
  timeout : Timeval
  handler : Option Handler
  data : Data
deriving DecidableEq

def Timer.zero : Timer := ⟨false, ⟨0, 0⟩, none, .null⟩

/-- The main queue, the expired batch timer_timeout is draining, and the
timers themselves. A timer in neither list has NULL links. -/
structure TimerQueue where
  tq : List TimerId
  exptq : List TimerId
  timer : TimerId → Timer

inductive RtState
  | invalid
  | valid
deriving DecidableEq

structure RtFlags where
  unidir : Bool
  repair : Bool
  inetDest : Bool
deriving DecidableEq

def RtFlags.zero : RtFlags := ⟨false, false, false⟩

structure RtEntry where
  destAddr : Addr
  destSeqno : U32
  nextHop : Addr
  hopcnt : U8
  flags : RtFlags
  state : RtState
  lastHelloTime : Timeval
  helloCnt : U8
  hash : U32
  nprecursor : U32
  precursors : List Addr
deriving DecidableEq

def RtEntry.zero : RtEntry :=
  ⟨0, 0, 0, 0, .zero, .invalid, ⟨0, 0⟩, 0, 0, 0, []⟩

/-- The buckets link objects of the heap rtMem; a freed object is only unlinked. -/
structure RoutingTable where
  numEntries : U32
  numActive : U32
  tbl : Fin 64 → List Ptr
  rtMem : Ptr → RtEntry

structure SeekEntry where
  destAddr : Addr
  destSeqno : U32
  flags : U8
  rreqCnt : Int
  ttl : Int
deriving DecidableEq

def SeekEntry.zero : SeekEntry := ⟨0, 0, 0, 0, 0⟩

structure RreqRecord where
  ptr : Ptr
  origAddr : Addr
  rreqId : U32
deriving DecidableEq

structure RreqBlacklist where
  ptr : Ptr
  destAddr : Addr
deriving DecidableEq

structure HostInfo where
  seqno : U32
  rreqId : U32
  lastForwardTime : Timeval
  lastBroadcastTime : Timeval
  enabled : Bool
  ifindex : Int
  ipaddr : Addr
  broadcast : Addr
deriving DecidableEq

structure RREQ where
  j : Bool
  r : Bool
  g : Bool
  d : Bool
  u : Bool
  hopcnt : U8
  rreqId : U32
  destAddr : Addr
  destSeqno : U32
  origAddr : Addr
  origSeqno : U32
deriving DecidableEq

structure RREP where
  r : Bool
  a : Bool
  prefixSz : BitVec 5
  hopcnt : U8
  destAddr : Addr
  destSeqno : U32
  origAddr : Addr
  lifetime : U32
deriving DecidableEq

structure RERR where
  n : Bool
  udests : List (Addr × U32)
deriving DecidableEq

/-- What a caller of aodv_socket_send put into its message. A queued message
is a received one, with the changes its forwarder made. -/
inductive Msg
  | rreq (m : RREQ)
  | rrep (m : RREP)
  | rrepAck
  | rerr (m : RERR)
  | queued (bytes : List U8)
deriving DecidableEq

inductive NlMsg
  | addRoute (dest nhop : Addr) (time : U32) (encap repair : Bool) (ifindex : Int)
  | delRoute (dest nhop : Addr)
  | noRouteFound (dest : Addr)
deriving DecidableEq

/-- The history of a run: what left the daemon, and the calls whose arguments
the results below speak about, with the entry as the call found it. The RREQ of
a discovery stands right before the mark of that discovery. The daemon never
reads the history. -/
inductive Obs
  | socketSend (msg : Msg) (dest : Addr) (len ttl : Int) (sent : Option (List U8))
  | nl (m : NlMsg)
  | kernelRoute (add : Bool) (dest gw : Addr) (metric ifindex : Int)
  | rtInsert (dest next : Addr) (hops seqno lifetime : U32) (state : RtState) (flags : RtFlags)
  | rtUpdate (p : Ptr) (old : RtEntry) (next : Addr) (hops seqno lifetime : U32)
      (state : RtState) (flags : RtFlags)
  | rtInvalidate (p : Ptr) (old : RtEntry)
  | rerrSeqno (p : Ptr) (old : RtEntry) (seqno : U32)
  | rreqAccepted (m : RREQ) (src : Addr)
  | rreqForUs (own destSeqno : U32)
  | discovery (q : Ptr) (found : Option RtEntry)
  | discoveryAgain (q : Ptr)
  | discoveryFailed (q : Ptr)
  | localRepair (old : RtEntry)
  | unidirBreak (reports : Bool)
  | answer (deadline now : Timeval)
deriving DecidableEq

structure Daemon where
  host : HostInfo
  rtTbl : RoutingTable
  timers : TimerQueue
  sl : List Ptr
  seekMem : Ptr → SeekEntry
  rreqRecords : List RreqRecord
  rreqBlacklists : List RreqBlacklist
  sendBuf : Buf
  rreqRatelimit : List Timeval
  rerrRatelimit : List Timeval
  waitOnReboot : Int
  brk : Ptr
  tick : Nat
  trace : List Obs

/-- The width of long on the build target. -/
inductive Arch
  | long32
  | long64
deriving DecidableEq

/-- The value a u32_t takes when it is passed as a long. -/
def Arch.long : Arch → U32 → Int
  | .long32, v => v.toInt
  | .long64, v => v.toNat

/-- The value of an expression of type long, which wraps around in 32 bits. No
time of day comes near the bounds of 64 bits, so there it is the exact one. -/
def Arch.signed : Arch → Int → Int
  | .long32, x => x.bmod (2 ^ 32)
  | .long64, x => x

def Arch.unsigned : Arch → Int → Int
  | .long32, x => x % 2 ^ 32
  | .long64, x => x

/-- The configuration globals of main.c and the answers of the system: what the
clock reads and which calls succeed, at each tick. -/
structure Env where
  arch : Arch
  ratelimit : Bool
  expandingRingSearch : Bool
  receiveNHellos : Int
  localRepair : Bool
  clock : Nat → Timeval
  setsockopt : Nat → Bool
  sendto : Nat → Bool
  sendmsg : Nat → Bool

namespace Daemon

variable (s : Daemon)

def rt (p : Ptr) : RtEntry := s.rtTbl.rtMem p

def seek (p : Ptr) : SeekEntry := s.seekMem p

def timer (t : TimerId) : Timer := s.timers.timer t

def linked : List Ptr := (List.finRange 64).flatMap s.rtTbl.tbl

def setRt (p : Ptr) (r : RtEntry) : Daemon :=
  { s with rtTbl := { s.rtTbl with rtMem := Function.update s.rtTbl.rtMem p r } }

def setSeek (p : Ptr) (q : SeekEntry) : Daemon :=
  { s with seekMem := Function.update s.seekMem p q }

def observe (o : Obs) : Daemon := { s with trace := o :: s.trace }

/-- One answer of the system has been used up. -/
def tock : Daemon := { s with tick := s.tick + 1 }

end Daemon

end Aodv
