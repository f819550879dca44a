import Aodv.Rrep

namespace Aodv

open Lib.Bytes

def rreqRecordCheck (s : Daemon) (orig : Addr) (rreqId : U32) : Option RreqRecord :=
  s.rreqRecords.find? (fun c => decide (c.origAddr = orig ∧ c.rreqId = rreqId))

def rreqRecordInsert (e : Env) (s : Daemon) (orig : Addr) (rreqId : U32) : Daemon :=
  match rreqRecordCheck s orig rreqId with
  | some _ => s
  | none =>
      let c := s.brk
      let q := timerInit s.timers (.recTimer c) .rreqRecordTimeout (.obj c)
      { s with
        brk := s.brk + 1
        rreqRecords := ⟨c, orig, rreqId⟩ :: s.rreqRecords
        timers := timerSetTimeout e.arch (e.clock s.tick) q (.recTimer c) pathDiscoveryTime
        tick := s.tick + 1 }

def rreqBlacklistCheck (s : Daemon) (dest : Addr) : Option RreqBlacklist :=
  s.rreqBlacklists.find? (fun c => decide (c.destAddr = dest))

def rreqBlacklistInsert (e : Env) (s : Daemon) (dest : Addr) : Daemon :=
  match rreqBlacklistCheck s dest with
  | some _ => s
  | none =>
      let c := s.brk
      let q := timerInit s.timers (.blTimer c) .rreqBlacklistTimeout (.obj c)
      { s with
        brk := s.brk + 1
        rreqBlacklists := ⟨c, dest⟩ :: s.rreqBlacklists
        timers := timerSetTimeout e.arch (e.clock s.tick) q (.blTimer c) blacklistTimeout
        tick := s.tick + 1 }

def rreqCreate (s : Daemon) (flags : U8) (dest : Addr) (destSeqno : U32) (orig : Addr) :
    Daemon × RREQ :=
  let seqno := seqnoIncr s.host.seqno
  let m : RREQ := ⟨flags.getLsbD 7, flags.getLsbD 6, flags.getLsbD 5, flags.getLsbD 4,
    flags.getLsbD 3, 0, s.host.rreqId, dest, destSeqno, orig, seqno⟩
  ({ aodvSocketNewMsg s with
    host := { s.host with rreqId := s.host.rreqId + 1, seqno := seqno }
    sendBuf := rreqBuf m }, m)

def rreqSend (e : Env) (s : Daemon) (dest : Addr) (destSeqno : U32) (ttl : Int) (flags : U8) :
    Daemon :=
  if s.host.enabled then
    let (s, m) := rreqCreate s flags dest destSeqno s.host.ipaddr
    aodvSocketSend e s (.rreq m) aodvBroadcast rreqSize ttl
  else s

def rreqForward (e : Env) (s : Daemon) (buf : Buf) (len : Nat) (ttl : Int) : Daemon :=
  let s := aodvSocketQueueMsg s buf len
  let s := { s with sendBuf := store s.sendBuf 3 (s.sendBuf 3 + 1) }
  aodvSocketSend e s (.queued (take (store buf 3 (buf 3 + 1)) len)) aodvBroadcast len ttl

def rreqLife (hops : U32) : U32 := u32 pathDiscoveryTime - 2 * hops * u32 nodeTraversalTime

def rreqFresher (r : RtEntry) (seqno hops : U32) : Bool :=
  decide (r.destSeqno = 0) || BitVec.slt r.destSeqno seqno ||
    (decide (seqno = r.destSeqno) &&
      (decide (r.state = .invalid) || decide (hops < r.hopcnt.setWidth 32)))

def rreqReverse (e : Env) (s : Daemon) (m : RREQ) (src : Addr) : Daemon × Option Ptr :=
  let hops := m.hopcnt.setWidth 32 + 1
  match rtTableCheck s.rtTbl m.origAddr with
  | none => rtTableInsert e s m.origAddr src hops m.origSeqno (rreqLife hops) .valid .zero
  | some p =>
      let r := s.rt p
      if rreqFresher r m.origSeqno hops then
        (rtTableUpdate e s p src hops m.origSeqno (rreqLife hops) .valid r.flags, some p)
      else (s, some p)

def ownSeqno (own dest : U32) : U32 :=
  if dest = 0 then own
  else if BitVec.slt own dest then dest
  else if own = dest then seqnoIncr own
  else own

def rreqForUs (e : Env) (s : Daemon) (m : RREQ) (rev : Ptr) : Daemon :=
  let s := s.observe (.rreqForUs s.host.seqno m.destSeqno)
  let s := { s with host := { s.host with seqno := ownSeqno s.host.seqno m.destSeqno } }
  let (s, rrep) := rrepCreate s false false 0 0 s.host.ipaddr s.host.seqno (s.rt rev).destAddr
    (u32 myRouteTimeout)
  rrepSend e s rrep rev none rrepSize

/-- An intermediate node answers from its own entry; the lifetime is the time
that entry has left, cut to 32 bits. -/
def rreqAnswer (e : Env) (s : Daemon) (m : RREQ) (rev fwd : Ptr) (now : Timeval) : Daemon :=
  let lifetime := u32 (timevalDiff e.arch (s.timer (.rtTimer fwd)).timeout now)
  let s := s.observe (.answer (s.timer (.rtTimer fwd)).timeout now)
  let (s, rrep) := rrepCreate s false false 0 (s.rt fwd).hopcnt (s.rt fwd).destAddr
    (s.rt fwd).destSeqno (s.rt rev).destAddr lifetime
  let s := rrepSend e s rrep rev (some fwd) rrepSize
  if m.g then
    let (s, rrep) := rrepCreate s false false 0 (s.rt rev).hopcnt (s.rt rev).destAddr
      (s.rt rev).destSeqno (s.rt fwd).destAddr lifetime
    rrepSend e s rrep fwd (some rev) rrepSize
  else s

def rreqPassOn (e : Env) (s : Daemon) (buf : Buf) (len : Nat) (m : RREQ) (fwd : Option Ptr)
    (ttl : Int) : Daemon :=
  if 1 < ttl then
    let buf :=
      match fwd with
      | none => buf
      | some f =>
          if (s.rt f).flags.inetDest = false ∧ BitVec.slt m.destSeqno (s.rt f).destSeqno then
            storeBE buf 12 (s.rt f).destSeqno
          else buf
    rreqForward e s buf len (ttl - 1)
  else s

def rreqRoute (e : Env) (s : Daemon) (buf : Buf) (len : Nat) (m : RREQ) (rev : Ptr) (ttl : Int) :
    Daemon :=
  let fwd := rtTableCheck s.rtTbl m.destAddr
  match fwd with
  | none => rreqPassOn e s buf len m fwd ttl
  | some f =>
      if (s.rt f).state = .valid ∧ m.d = false then
        let now := e.clock s.tick
        let s := s.tock
        if (s.rt f).destSeqno ≠ 0 ∧ BitVec.sle m.destSeqno (s.rt f).destSeqno then
          rreqAnswer e s m rev f now
        else rreqPassOn e s buf len m fwd ttl
      else rreqPassOn e s buf len m fwd ttl

/-- What is left of rreq_process without a reverse route: rt_table_insert returns
NULL for an address that rt_table_check has not found only while num_entries has
wrapped to 0, and no entry answers then. -/
def rreqUnrouted (e : Env) (s : Daemon) (buf : Buf) (len : Nat) (m : RREQ) (ttl : Int) : Daemon :=
  if m.destAddr = s.host.ipaddr then s
  else rreqPassOn e s buf len m (rtTableCheck s.rtTbl m.destAddr) ttl

def rreqProcess (e : Env) (s : Daemon) (buf : Buf) (len : Nat) (src : Addr) (ttl : Int) : Daemon :=
  let m := rreqOf buf
  if m.origAddr = s.host.ipaddr then s
  else if len < rreqSize then s
  else if (rreqBlacklistCheck s src).isSome then s
  else if (rreqRecordCheck s m.origAddr m.rreqId).isSome then s
  else
    let s := s.observe (.rreqAccepted m src)
    let s := rreqRecordInsert e s m.origAddr m.rreqId
    match rreqReverse e s m src with
    | (s, none) => rreqUnrouted e s buf len m ttl
    | (s, some rev) =>
        if m.destAddr = s.host.ipaddr then rreqForUs e s m rev
        else rreqRoute e s buf len m rev ttl

def seekRefresh (e : Env) (s : Daemon) (p : Ptr) (now : Timeval) : Daemon :=
  if timevalDiff e.arch (s.timer (.rtTimer p)).timeout now < 2 * netTraversalTime then
    rtTableUpdateTimeout e s p (u32 (2 * netTraversalTime))
  else s

def seekArm (e : Env) (s : Daemon) (q : Ptr) (msec : Int) : Daemon :=
  { s with
    timers := timerSetTimeout e.arch (e.clock s.tick) s.timers (.seekTimer q) msec
    tick := s.tick + 1 }

def discoverySend (e : Env) (s : Daemon) (dest : Addr) (seqno : U32) (ttl : Int) (flags : U8)
    (found : Option RtEntry) : Daemon :=
  let s := rreqSend e s dest seqno ttl flags
  let s := s.observe (.discovery s.brk found)
  let (s, q) := seekListInsert s dest seqno ttl flags
  seekArm e s q (if e.expandingRingSearch then ringTraversalTime ttl else netTraversalTime)

def rreqRouteDiscovery (e : Env) (s : Daemon) (dest : Addr) (flags : U8) : Daemon :=
  let now := e.clock s.tick
  let s := s.tock
  match seekListCheck s dest with
  | some _ => s
  | none =>
      match rtTableCheck s.rtTbl dest with
      | none =>
          let ttl := if e.expandingRingSearch then ttlStart else netDiameter
          discoverySend e s dest 0 ttl flags none
      | some p =>
          let r := s.rt p
          let ttl :=
            if e.expandingRingSearch then (r.hopcnt.toNat : Int) + ttlIncrement else netDiameter
          discoverySend e (seekRefresh e s p now) dest r.destSeqno ttl flags (some r)

/-- The larger of hopcnt and half the source's hop count, as a double that is
cut to an int. -/
def repairTtl (s : Daemon) (p : Ptr) (src : Addr) : Int :=
  match rtTableCheck s.rtTbl src with
  | none => ((s.rt p).hopcnt.toNat : Int) + localAddTtl
  | some o => (max (s.rt p).hopcnt.toNat ((s.rt o).hopcnt.toNat / 2) : Int) + localAddTtl

def repairStart (s : Daemon) (p : Ptr) : Daemon :=
  { s.observe (.localRepair (s.rt p)) with
    timers := setHandler s.timers (.rtTimer p) .routeExpireTimeout }

def repairSend (e : Env) (s : Daemon) (dest : Addr) (seqno : U32) (ttl : Int) : Daemon :=
  let s := rreqSend e s dest seqno ttl 0
  let (s, q) := seekListInsert s dest seqno ttl 0
  seekArm e s q (if e.expandingRingSearch then 2 * ttl * nodeTraversalTime else netTraversalTime)

def rreqLocalRepair (e : Env) (s : Daemon) (p : Ptr) (src : Addr) : Daemon :=
  if (seekListCheck s (s.rt p).destAddr).isSome then s
  else if (s.rt p).flags.repair = false then s
  else
    let now := e.clock s.tick
    let ttl := repairTtl s p src
    let s := seekRefresh e (repairStart s.tock p) p now
    repairSend e s (s.rt p).destAddr (s.rt p).destSeqno ttl

end Aodv
