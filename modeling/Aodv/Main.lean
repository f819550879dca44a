import Aodv.Timeout
import Aodv.Rerr

namespace Aodv

open Lib.Bytes

/-- One recvmsg: the static buffer with whatever stands behind the datagram,
and the control data. Without a TTL the datagram is ignored. -/
structure Packet where
  buf : Buf
  len : Nat
  fits : len ≤ receBufSize
  src : Addr
  dest : Addr
  ttl : Option U8

/-- The datagram of a message, in a buffer that held nothing before. -/
def Packet.of (m : Msg) (src dest : Addr) (ttl : U8) (fits : wireSize m ≤ receBufSize) : Packet :=
  ⟨overlay (wireBytes m) zeroed, wireSize m, fits, src, dest, some ttl⟩

theorem fits_rreq (m : RREQ) : wireSize (.rreq m) ≤ receBufSize := by
  change 24 ≤ 1024
  decide

theorem fits_rrep (m : RREP) : wireSize (.rrep m) ≤ receBufSize := by
  change 20 ≤ 1024
  decide

theorem fits_rrepAck : wireSize .rrepAck ≤ receBufSize := by
  change 2 ≤ 1024
  decide

/-- The datagrams hello_process gets: HELLOs, and RREPs that came over one hop
to everyone. -/
def isHello (pkt : Packet) : Bool :=
  decide (pkt.buf 0 = aodvHello ∨
    (pkt.buf 0 = aodvRrep ∧ pkt.ttl = some 1 ∧ pkt.dest = aodvBroadcast))

inductive KernelMsg
  | timeout (dest : Addr)
  | routeReq (dest : Addr)
  | repair (src dest : Addr)
  | routeUpdate (src dest : Addr)
  | sendRerr (src dest : Addr)
  | other
deriving DecidableEq

def aodvSocketPackageProcess (e : Env) (s : Daemon) (buf : Buf) (len : Nat) (src dest : Addr)
    (ttl : Int) : Daemon :=
  let buf := if buf 0 = aodvRrep ∧ ttl = 1 ∧ dest = aodvBroadcast then store buf 0 aodvHello else buf
  let s := neighborAdd e s src
  if buf 0 = aodvHello then helloProcess e s buf
  else if buf 0 = aodvRreq then rreqProcess e s buf len src ttl
  else if buf 0 = aodvRrep then rrepProcess e s buf len src ttl
  else if buf 0 = aodvRerr then rerrProcess e s buf len src
  else if buf 0 = aodvRrepAck then rrepAckProcess s src
  else s

def aodvSocketRead (e : Env) (s : Daemon) (pkt : Packet) : Daemon :=
  match pkt.ttl with
  | none => s
  | some ttl =>
      if s.host.enabled ∧ pkt.src = s.host.ipaddr then s
      else aodvSocketPackageProcess e s pkt.buf pkt.len pkt.src pkt.dest ttl.toNat

/-- The RERR about a destination the kernel module has no route for. -/
def rerrFor (e : Env) (s : Daemon) (dest : Addr) : Daemon × RERR :=
  match rtTableCheck s.rtTbl dest with
  | none => rerrCreate s false dest 0
  | some f =>
      let (s, m) := rerrCreate s false (s.rt f).destAddr (s.rt f).destSeqno
      (rtTableUpdateTimeout e s f (u32 deletePeriod), m)

def rerrTarget (s : Daemon) : Option Ptr → Addr
  | none => aodvBroadcast
  | some r => if (s.rt r).state = .valid then (s.rt r).nextHop else aodvBroadcast

def sendRerr (e : Env) (s : Daemon) (src dest : Addr) : Daemon :=
  let rev := rtTableCheck s.rtTbl src
  let (s, m) := rerrFor e s dest
  let s := aodvSocketSend e s (.rerr m) (rerrTarget s rev) (rerrCalcSize (s.sendBuf 3)) 1
  if s.waitOnReboot ≠ 0 then
    { s with
      timers := timerSetTimeout e.arch (e.clock s.tick) s.timers .worbTimer deletePeriod
      tick := s.tick + 1 }
  else s

def nlKaodvCallback (e : Env) (s : Daemon) : KernelMsg → Daemon
  | .timeout dest =>
      match rtTableCheck s.rtTbl dest with
      | none => s
      | some p => if (s.rt p).state = .valid then routeExpireTimeout e s p else s
  | .routeReq dest => rreqRouteDiscovery e s dest 0
  | .repair src dest =>
      match rtTableCheck s.rtTbl dest with
      | none => s
      | some p => rreqLocalRepair e s p src
  | .routeUpdate src dest =>
      if dest = aodvBroadcast ∨ dest = s.host.broadcast then s
      else rtTableUpdateRouteTimeouts e s (rtTableCheck s.rtTbl dest) (rtTableCheck s.rtTbl src)
  | .sendRerr src dest =>
      if dest = aodvBroadcast ∨ dest = s.host.broadcast then s
      else sendRerr e s src dest
  | .other => s

/-- timer_age_queue, up to the interval it hands to select. -/
def timerAgeQueue (e : Env) (s : Daemon) : Daemon :=
  let clock := e.clock s.tick
  let s := s.tock
  if s.timers.tq = [] then s else timerTimeout e clock s

/-- The events of the main loop. The event fire, one pending timer running out
on its own, covers every order in which timers can run out. -/
inductive Event
  | recv (pkt : Packet)
  | kernel (m : KernelMsg)
  | age
  | fire (t : TimerId)

def step (e : Env) (s : Daemon) : Event → Daemon
  | .recv pkt => aodvSocketRead e s pkt
  | .kernel m => nlKaodvCallback e s m
  | .age => timerAgeQueue e s
  | .fire t => if t ∈ s.timers.tq then fire e s t else s

def run (e : Env) (s : Daemon) (es : List Event) : Daemon := es.foldl (step e) s

def noTimers : TimerQueue := ⟨[], [], fun _ => .zero⟩

/-- What main has set up when it enters its loop. The log timer is armed by
log_rt_table_init; nothing initialises worb_timer. -/
def init (e : Env) (ipaddr broadcast : Addr) (ifindex : Int) : Daemon where
  host := ⟨0, 0, ⟨0, 0⟩, e.clock 1, true, ifindex, ipaddr, broadcast⟩
  rtTbl := ⟨0, 0, fun _ => [], fun _ => .zero⟩
  timers := timerSetTimeout e.arch (e.clock 0) (timerInit noTimers .rtLogTimer .printRtTable .null)
    .rtLogTimer rtLogInterval
  sl := []
  seekMem := fun _ => .zero
  rreqRecords := []
  rreqBlacklists := []
  sendBuf := zeroed
  rreqRatelimit := []
  rerrRatelimit := []
  waitOnReboot := 1
  brk := 0
  tick := 2
  trace := []

/-- The configuration of main.c on a 32-bit target, where every call succeeds
and the clock stands still. -/
def plain : Env where
  arch := .long32
  ratelimit := true
  expandingRingSearch := true
  receiveNHellos := 0
  localRepair := false
  clock := fun _ => ⟨0, 0⟩
  setsockopt := fun _ => true
  sendto := fun _ => true
  sendmsg := fun _ => true

def wide : Env := { plain with arch := .long64 }

/-- The states of a daemon between two events. -/
def Reachable (e : Env) (s : Daemon) : Prop :=
  ∃ ipaddr broadcast ifindex es, s = run e (init e ipaddr broadcast ifindex) es

theorem Reachable.induction {e : Env} {P : Daemon → Prop}
    (hinit : ∀ ipaddr broadcast ifindex, P (init e ipaddr broadcast ifindex))
    (hstep : ∀ s ev, P s → P (step e s ev)) {s : Daemon} (h : Reachable e s) : P s := by
  obtain ⟨ipaddr, broadcast, ifindex, es, rfl⟩ := h
  have run_keeps (es : List Event) (s : Daemon) (hs : P s) : P (run e s es) := by
    induction es generalizing s with
    | nil => exact hs
    | cons ev es ih => exact ih (step e s ev) (hstep s ev hs)
  exact run_keeps es _ (hinit ipaddr broadcast ifindex)

end Aodv
