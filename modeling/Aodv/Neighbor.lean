import Aodv.RoutingTable
import Aodv.Socket

namespace Aodv

open Lib.Bytes

def rerrCreate (s : Daemon) (nodelete : Bool) (dest : Addr) (seqno : U32) : Daemon × RERR :=
  ({ aodvSocketNewMsg s with
    sendBuf := store (storeUdest (rerrHeader nodelete) (udestOffset 0) (dest, seqno)) 3 1 },
    ⟨nodelete, [(dest, seqno)]⟩)

def rerrAddUdest (s : Daemon) (m : RERR) (udest : Addr) (seqno : U32) : Daemon × RERR :=
  let off := (rerrCalcSize (s.sendBuf 3)).toNat
  ({ s with sendBuf := store (storeUdest s.sendBuf off (udest, seqno)) 3 (s.sendBuf 3 + 1) },
    { m with udests := m.udests ++ [(udest, seqno)] })

structure RerrBuild where
  s : Daemon
  rerr : Option RERR
  unicast : Addr

/-- List one entry: the first creates the RERR and picks its only precursor as
the unicast destination, a later one gives that up when it has another precursor. -/
def rerrList (b : RerrBuild) (nodelete : Bool) (p : Ptr) : RerrBuild :=
  let r := b.s.rt p
  match b.rerr with
  | none =>
      let (s, m) := rerrCreate b.s nodelete r.destAddr r.destSeqno
      ⟨s, some m, if r.nprecursor = 1 then firstPrec r else b.unicast⟩
  | some m =>
      let (s, m) := rerrAddUdest b.s m r.destAddr r.destSeqno
      ⟨s, some m, if b.unicast ≠ 0 ∧ r.precursors.any (· ≠ b.unicast) then 0 else b.unicast⟩

def usesLink (s : Daemon) (p q : Ptr) : Bool :=
  decide ((s.rt q).state = .valid ∧ (s.rt q).nextHop = (s.rt p).destAddr ∧
    (s.rt q).destAddr ≠ (s.rt p).destAddr)

def kept (s : Daemon) (p q : Ptr) : Bool :=
  (s.rt p).flags.repair && decide ((s.rt q).hopcnt.toNat ≤ maxRepairTtl)

def linkBreakStep (e : Env) (p : Ptr) (b : RerrBuild) (q : Ptr) : RerrBuild :=
  if usesLink b.s p q then
    let r := b.s.rt q
    if kept b.s p q then
      { b with
        s := rtTableInvalidate e (b.s.setRt q { r with flags := { r.flags with repair := true } }) q }
    else
      let b := { b with s := rtTableInvalidate e b.s q }
      let b := if (b.s.rt q).nprecursor ≠ 0 then rerrList b false q else b
      { b with s := precursorListDestroy b.s q }
  else b

def linkBreakSelf (e : Env) (s : Daemon) (p : Ptr) : RerrBuild :=
  let b : RerrBuild := ⟨rtTableInvalidate e s p, none, 0⟩
  let b := if (b.s.rt p).nprecursor ≠ 0 ∧ (b.s.rt p).flags.repair = false then
      rerrList b false p else b
  if (b.s.rt p).flags.repair then b else { b with s := precursorListDestroy b.s p }

/-- The unicast branch looks the precursor up but tests the broken entry. -/
def linkBreakSend (e : Env) (b : RerrBuild) : Daemon :=
  match b.rerr with
  | none => b.s
  | some m =>
      let dest := if b.unicast ≠ 0 then b.unicast else aodvBroadcast
      aodvSocketSend e b.s (.rerr m) dest (rerrCalcSize (b.s.sendBuf 3)) 1

def neighborLinkBreak (e : Env) (s : Daemon) (p : Ptr) : Daemon :=
  if (s.rt p).hopcnt ≠ 1 then s
  else
    let b := linkBreakSelf e s p
    linkBreakSend e (b.s.linked.foldl (linkBreakStep e p) b)

def linkBreakReports (s : Daemon) (p : Ptr) : Bool :=
  decide ((s.rt p).hopcnt = 1) &&
    ((decide ((s.rt p).nprecursor ≠ 0) && !(s.rt p).flags.repair) ||
      s.linked.any (fun q => usesLink s p q && !kept s p q && decide ((s.rt q).nprecursor ≠ 0)))

/-- The messages and the counter of an update, sent before any field is written. -/
def updateBegin (e : Env) (s : Daemon) (p : Ptr) (next : Addr) (hops lifetime : U32)
    (state : RtState) (flags : RtFlags) : Daemon × RtFlags :=
  let r := s.rt p
  if r.state = .invalid ∧ state = .valid then
    let s := { s with rtTbl := { s.rtTbl with numActive := s.rtTbl.numActive + 1 } }
    let flags := if r.flags.repair then { flags with repair := false } else flags
    (nlSendAddRouteMsg e s r.destAddr next hops.toInt lifetime flags s.host.ifindex, flags)
  else if r.nextHop ≠ 0 ∧ r.nextHop ≠ next then
    (nlSendAddRouteMsg e s r.destAddr next hops.toInt lifetime flags s.host.ifindex, flags)
  else (s, flags)

/-- A neighbour that is about to become a farther node has its link broken first. -/
def updateBreak (e : Env) (s : Daemon) (p : Ptr) (hops : U32) : Daemon :=
  let r := s.rt p
  if 1 < hops ∧ r.hopcnt = 1 then
    let s := s.setRt p { r with lastHelloTime := ⟨0, 0⟩, helloCnt := 0 }
    neighborLinkBreak e { s with timers := timerRemove s.timers (.helloTimer p) } p
  else s

def writeUpdate (s : Daemon) (p : Ptr) (next : Addr) (hops seqno : U32) (flags : RtFlags) :
    Daemon :=
  let r := s.rt p
  let s := s.setRt p { r with
    flags := flags, destSeqno := seqno, nextHop := next, hopcnt := hops.setWidth 8 }
  { s with timers := setHandler s.timers (.rtTimer p) .routeExpireTimeout }

def setState (s : Daemon) (p : Ptr) (state : RtState) : Daemon :=
  s.setRt p { s.rt p with state := state }

/-- The lifetime counts only for an entry that is VALID before its state is written. -/
def updateFinish (e : Env) (s : Daemon) (p : Ptr) (next : Addr) (hops seqno lifetime : U32)
    (state : RtState) (flags : RtFlags) : Daemon :=
  let s := writeUpdate s p next hops seqno flags
  let s := if flags.inetDest then s else rtTableUpdateTimeout e s p lifetime
  routeFound (setState s p state) p

def rtTableUpdate (e : Env) (s : Daemon) (p : Ptr) (next : Addr) (hops seqno lifetime : U32)
    (state : RtState) (flags : RtFlags) : Daemon :=
  let s := s.observe (.rtUpdate p (s.rt p) next hops seqno lifetime state flags)
  let (s, flags) := updateBegin e s p next hops lifetime state flags
  updateFinish e (updateBreak e s p hops) p next hops seqno lifetime state flags

def helloUpdateTimeout (e : Env) (s : Daemon) (p : Ptr) (now : Timeval) (time : Int) : Daemon :=
  let s := { s with
    timers := timerSetTimeout e.arch (e.clock s.tick) s.timers (.helloTimer p) (time + helloDelay)
    tick := s.tick + 1 }
  s.setRt p { s.rt p with lastHelloTime := now }

def neighborRefresh (e : Env) (s : Daemon) (p : Ptr) (now : Timeval) : Daemon :=
  if (s.timer (.helloTimer p)).used then
    helloUpdateTimeout e s p now (allowedHelloLoss * helloInterval)
  else s

def neighborAdd (e : Env) (s : Daemon) (src : Addr) : Daemon :=
  let now := e.clock s.tick
  let s := s.tock
  match rtTableCheck s.rtTbl src with
  | none =>
      match rtTableInsert e s src src 1 0 (u32 activeRouteTimeout) .valid .zero with
      | (s, none) => s
      | (s, some p) => neighborRefresh e s p now
  | some p =>
      let r := s.rt p
      if r.flags.unidir then s
      else
        let s := rtTableUpdate e s p src 1 r.destSeqno (u32 activeRouteTimeout) .valid r.flags
        neighborRefresh e s p now

end Aodv
