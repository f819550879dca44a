import Aodv.Lib.Serial
import Aodv.Netlink
import Aodv.TimerQueue

namespace Aodv

open Lib.Bytes Lib.Serial

def u32 (i : Int) : U32 := BitVec.ofInt 32 i

def seqnoIncr (s : U32) : U32 := if s = 0 then 0 else if s = 0xffffffff then 1 else s + 1

theorem seqnoIncr_ne_zero {a : U32} (h : a ≠ 0) : seqnoIncr a ≠ 0 := by
  rw [seqnoIncr, if_neg h]
  split
  · decide
  next hmax =>
    intro hz
    refine hmax ?_
    have ha : a = 0 - 1 := by
      rw [← hz]
      exact (BitVec.add_sub_cancel a 1).symm
    rw [ha]
    rfl

theorem newer_seqnoIncr {a : U32} (h : a ≠ 0) : Newer a (seqnoIncr a) := by
  rw [seqnoIncr, if_neg h]
  split
  next hmax =>
    rw [hmax]
    decide
  · exact newer_add (by decide) (by decide)

def seekListCheck (s : Daemon) (dest : Addr) : Option Ptr :=
  s.sl.find? (fun q => decide ((s.seek q).destAddr = dest))

def seekListInsert (s : Daemon) (dest : Addr) (seqno : U32) (ttl : Int) (flags : U8) :
    Daemon × Ptr :=
  let q := s.brk
  ({ s with
    brk := s.brk + 1
    seekMem := Function.update s.seekMem q ⟨dest, seqno, flags, 1, ttl⟩
    timers := timerInit s.timers (.seekTimer q) .routeDiscoveryTimeout (.obj q)
    sl := q :: s.sl }, q)

def seekListRemove (s : Daemon) : Option Ptr → Daemon
  | none => s
  | some q => { s with
      sl := s.sl.filter (· ≠ q)
      timers := timerRemove s.timers (.seekTimer q) }

def hashing (addr : Addr) : Fin 64 := Fin.ofNat 64 (addr &&& 63).toNat

/-- The hash of an entry is its whole address; the bucket is its low six bits. -/
def rtTableCheck (t : RoutingTable) (dest : Addr) : Option Ptr :=
  if t.numEntries = 0 then none
  else (t.tbl (hashing dest)).find? (fun p =>
    decide ((t.rtMem p).hash = dest ∧ dest = (t.rtMem p).destAddr))

def listAdd (t : RoutingTable) (i : Fin 64) (p : Ptr) : RoutingTable :=
  { t with tbl := Function.update t.tbl i (p :: t.tbl i) }

def listRemove (t : RoutingTable) (p : Ptr) : RoutingTable :=
  { t with tbl := fun i => (t.tbl i).filter (· ≠ p) }

def precursorAdd (s : Daemon) (p : Ptr) (addr : Addr) : Daemon :=
  let r := s.rt p
  if addr ∈ r.precursors then s
  else s.setRt p { r with precursors := addr :: r.precursors, nprecursor := r.nprecursor + 1 }

def precursorListDestroy (s : Daemon) (p : Ptr) : Daemon :=
  let r := s.rt p
  s.setRt p { r with
    precursors := [], nprecursor := r.nprecursor - BitVec.ofNat 32 r.precursors.length }

/-- FIRST_PREC of a list that the caller has found not to be empty. -/
def firstPrec (r : RtEntry) : Addr := r.precursors.headD 0

/-- The new object r: allocated, its three timers initialised, and put at the
front of its bucket. -/
def linkEntry (s : Daemon) (r : RtEntry) : Daemon :=
  let p := s.brk
  let q := timerInit s.timers (.rtTimer p) .routeExpireTimeout (.obj p)
  let q := timerInit q (.ackTimer p) .rrepAckTimeout (.obj p)
  let q := timerInit q (.helloTimer p) .helloTimeout (.obj p)
  { s with
    brk := s.brk + 1
    timers := q
    rtTbl := { listAdd s.rtTbl (hashing r.destAddr) p with
      rtMem := Function.update s.rtTbl.rtMem p r
      numEntries := s.rtTbl.numEntries + 1 } }

/-- The part of an insertion that depends on the state: an INVALID entry gets
the handler and the lifetime of its kind, a VALID one is told to the kernel. -/
def openEntry (e : Env) (s : Daemon) (p : Ptr) (hops lifetime : U32) : Daemon × U32 :=
  let r := s.rt p
  match r.state with
  | .invalid =>
      if r.flags.repair then
        ({ s with timers := setHandler s.timers (.rtTimer p) .localRepairTimeout },
          u32 activeRouteTimeout)
      else
        ({ s with timers := setHandler s.timers (.rtTimer p) .routeDeleteTimeout },
          u32 deletePeriod)
  | .valid =>
      let s := { s with rtTbl := { s.rtTbl with numActive := s.rtTbl.numActive + 1 } }
      (nlSendAddRouteMsg e s r.destAddr r.nextHop hops.toInt lifetime r.flags s.host.ifindex,
        lifetime)

def armEntry (e : Env) (s : Daemon) (p : Ptr) (lifetime : U32) : Daemon :=
  if lifetime ≠ 0 then
    { s with
      timers := timerSetTimeout e.arch (e.clock s.tick) s.timers (.rtTimer p) (e.arch.long lifetime)
      tick := s.tick + 1 }
  else s

def routeFound (s : Daemon) (p : Ptr) : Daemon :=
  if (s.rt p).state = .valid then seekListRemove s (seekListCheck s (s.rt p).destAddr) else s

def newEntry (dest next : Addr) (hops seqno : U32) (state : RtState) (flags : RtFlags) : RtEntry :=
  ⟨dest, seqno, next, hops.setWidth 8, flags, state, ⟨0, 0⟩, 0, dest, 0, []⟩

def insertEntry (e : Env) (s : Daemon) (r : RtEntry) (hops lifetime : U32) : Daemon :=
  let o := openEntry e (linkEntry s r) s.brk hops lifetime
  routeFound (armEntry e o.1 s.brk o.2) s.brk

def rtTableInsert (e : Env) (s : Daemon) (dest next : Addr) (hops seqno lifetime : U32)
    (state : RtState) (flags : RtFlags) : Daemon × Option Ptr :=
  if (s.rtTbl.tbl (hashing dest)).any (fun p => decide ((s.rt p).destAddr = dest)) then (s, none)
  else
    let s := s.observe (.rtInsert dest next hops seqno lifetime state flags)
    (insertEntry e s (newEntry dest next hops seqno state flags) hops lifetime, some s.brk)

def rtTableUpdateTimeout (e : Env) (s : Daemon) (p : Ptr) (lifetime : U32) : Daemon :=
  if (s.rt p).state = .valid then
    let newTimeout := timevalAddMsec e.arch (e.clock s.tick) lifetime.toNat
    let s := s.tock
    if timevalDiff e.arch (s.timer (.rtTimer p)).timeout newTimeout < 0 then
      { s with
        timers := timerSetTimeout e.arch (e.clock s.tick) s.timers (.rtTimer p) (e.arch.long lifetime)
        tick := s.tick + 1 }
    else s
  else s

def rtTableInvalidate (e : Env) (s : Daemon) (p : Ptr) : Daemon :=
  let s := s.tock
  let r := s.rt p
  match r.state with
  | .invalid => s
  | .valid =>
      let s := s.observe (.rtInvalidate p r)
      let q := timerRemove s.timers (.rtTimer p)
      let q := timerRemove q (.helloTimer p)
      let s := { s with timers := timerRemove q (.ackTimer p) }
      let s := { s with rtTbl := { s.rtTbl with numActive := s.rtTbl.numActive - 1 } }
      let s := s.setRt p { r with
        state := .invalid, helloCnt := 0, destSeqno := seqnoIncr r.destSeqno, lastHelloTime := ⟨0, 0⟩ }
      let s := nlSendDelRouteMsg e s r.destAddr r.nextHop r.hopcnt.toNat
      let handler : Handler := if r.flags.repair then .localRepairTimeout else .routeDeleteTimeout
      let msec := if r.flags.repair then activeRouteTimeout else deletePeriod
      { s with
        timers := timerSetTimeout e.arch (e.clock s.tick) (setHandler s.timers (.rtTimer p) handler)
          (.rtTimer p) msec
        tick := s.tick + 1 }

def rtTableDelete (e : Env) (s : Daemon) (p : Ptr) : Daemon :=
  let s := { s with rtTbl := listRemove s.rtTbl p }
  let s := precursorListDestroy s p
  let r := s.rt p
  let s :=
    match r.state with
    | .invalid => s
    | .valid =>
        let s := nlSendDelRouteMsg e s r.destAddr r.nextHop r.hopcnt.toNat
        { s with rtTbl := { s.rtTbl with numActive := s.rtTbl.numActive - 1 } }
  let q := timerRemove s.timers (.rtTimer p)
  let q := timerRemove q (.helloTimer p)
  { s with
    timers := timerRemove q (.ackTimer p)
    rtTbl := { s.rtTbl with numEntries := s.rtTbl.numEntries - 1 } }

/-- The next hop's entry is refreshed only while the route itself has a hello timer. -/
def refreshNextHop (e : Env) (s : Daemon) (p : Ptr) : Daemon :=
  match rtTableCheck s.rtTbl (s.rt p).nextHop with
  | none => s
  | some n =>
      if (s.rt n).state = .valid ∧ (s.rt n).destAddr ≠ (s.rt p).destAddr ∧
          (s.timer (.helloTimer p)).used then
        rtTableUpdateTimeout e s n (u32 activeRouteTimeout)
      else s

def refreshForward (e : Env) (s : Daemon) : Option Ptr → Daemon
  | none => s
  | some p =>
      if (s.rt p).state = .valid then
        let s :=
          if (s.rt p).flags.inetDest ∨ (s.rt p).hopcnt ≠ 1 ∨ (s.timer (.helloTimer p)).used then
            rtTableUpdateTimeout e s p (u32 activeRouteTimeout)
          else s
        refreshNextHop e s p
      else s

/-- The reverse test reads hello_cnt where the forward test reads hopcnt. -/
def refreshReverse (e : Env) (s : Daemon) : Option Ptr → Daemon
  | none => s
  | some p =>
      if (s.rt p).state = .valid then
        let s :=
          if (s.rt p).helloCnt ≠ 1 ∨ (s.timer (.helloTimer p)).used then
            rtTableUpdateTimeout e s p (u32 activeRouteTimeout)
          else s
        refreshNextHop e s p
      else s

def rtTableUpdateRouteTimeouts (e : Env) (s : Daemon) (fwd rev : Option Ptr) : Daemon :=
  refreshReverse e (refreshForward e s fwd) rev

end Aodv
