import Aodv.Hello
import Aodv.Rreq

namespace Aodv

def rreqRecordTimeout (s : Daemon) (c : Ptr) : Daemon :=
  { s with rreqRecords := s.rreqRecords.filter (fun x => decide (x.ptr ≠ c)) }

def rreqBlacklistTimeout (s : Daemon) (c : Ptr) : Daemon :=
  { s with rreqBlacklists := s.rreqBlacklists.filter (fun x => decide (x.ptr ≠ c)) }

def repairOver (e : Env) (s : Daemon) (p : Ptr) : Daemon :=
  let r := s.rt p
  let s := s.setRt p { r with flags := { r.flags with repair := false } }
  nlSendDelRouteMsg e s r.destAddr r.nextHop r.hopcnt.toNat

def repairReport (e : Env) (s : Daemon) (p : Ptr) : Daemon :=
  let r := s.rt p
  if r.nprecursor ≠ 0 then
    let (s, m) := rerrCreate s false r.destAddr r.destSeqno
    let dest := if r.nprecursor = 1 then firstPrec r else aodvBroadcast
    aodvSocketSend e s (.rerr m) dest (rerrCalcSize (s.sendBuf 3)) 1
  else s

def armDelete (e : Env) (s : Daemon) (p : Ptr) : Daemon :=
  { s with
    timers := timerSetTimeout e.arch (e.clock s.tick)
      (setHandler s.timers (.rtTimer p) .routeDeleteTimeout) (.rtTimer p) deletePeriod
    tick := s.tick + 1 }

def localRepairTimeout (e : Env) (s : Daemon) (p : Ptr) : Daemon :=
  armDelete e (precursorListDestroy (repairReport e (repairOver e s p) p) p) p

def seekRearm (e : Env) (s : Daemon) (q : Ptr) : Daemon :=
  let k := s.seek q
  if e.expandingRingSearch then
    let ttl := if k.ttl < ttlThreshold then k.ttl + ttlIncrement else netDiameter
    seekArm e (s.setSeek q { k with ttl := ttl }) q (ringTraversalTime ttl)
  else seekArm e s q (k.rreqCnt * 2 * netTraversalTime)

def refreshSought (e : Env) (s : Daemon) (dest : Addr) (now : Timeval) : Daemon :=
  match rtTableCheck s.rtTbl dest with
  | none => s
  | some p => seekRefresh e s p now

def seekSend (e : Env) (s : Daemon) (q : Ptr) : Daemon :=
  let k := s.seek q
  let s := (rreqSend e s k.destAddr k.destSeqno k.ttl k.flags).observe (.discoveryAgain q)
  s.setSeek q { s.seek q with rreqCnt := (s.seek q).rreqCnt + 1 }

def seekAgain (e : Env) (s : Daemon) (q : Ptr) (now : Timeval) : Daemon :=
  seekSend e (refreshSought e (seekRearm e s q) (s.seek q).destAddr now) q

def seekGiveUp (e : Env) (s : Daemon) (q : Ptr) : Daemon :=
  let dest := (s.seek q).destAddr
  let s := nlSendNoRouteFoundMsg e (s.observe (.discoveryFailed q)) dest
  let s := seekListRemove s (some q)
  match rtTableCheck s.rtTbl dest with
  | none => s
  | some p => if (s.rt p).flags.repair then localRepairTimeout e s p else s

def routeDiscoveryTimeout (e : Env) (s : Daemon) (q : Ptr) : Daemon :=
  let now := e.clock s.tick
  let s := s.tock
  if (s.seek q).rreqCnt < rreqRetries then seekAgain e s q now else seekGiveUp e s q

def routeExpireTimeout (e : Env) (s : Daemon) (p : Ptr) : Daemon :=
  if (s.rt p).hopcnt = 1 then neighborLinkBreak e s p
  else precursorListDestroy (rtTableInvalidate e s p) p

def routeDeleteTimeout (e : Env) (s : Daemon) (p : Ptr) : Daemon := rtTableDelete e s p

def helloTimeout (e : Env) (s : Daemon) (p : Ptr) : Daemon :=
  let s := s.tock
  let r := s.rt p
  if r.state = .valid ∧ r.flags.unidir = false then
    let s :=
      if e.localRepair ∧ r.hopcnt.toNat ≤ maxRepairTtl then
        s.setRt p { r with flags := { r.flags with repair := true } }
      else s
    neighborLinkBreak e s p
  else s

def rrepAckTimeout (e : Env) (s : Daemon) (p : Ptr) : Daemon :=
  rreqBlacklistInsert e s (s.rt p).destAddr

def waitOnRebootTimeout (s : Daemon) : Data → Daemon
  | .waitOnReboot => { s with waitOnReboot := 0 }
  | _ => s

def printRtTable (e : Env) (s : Daemon) : Daemon :=
  let s := if s.rtTbl.numEntries = 0 then s else s.tock
  { s with
    timers := timerSetTimeout e.arch (e.clock s.tick) s.timers .rtLogTimer rtLogInterval
    tick := s.tick + 1 }

def callHandler (e : Env) (s : Daemon) (f : Handler) (data : Data) : Daemon :=
  match f, data with
  | .rreqRecordTimeout, .obj p => rreqRecordTimeout s p
  | .rreqBlacklistTimeout, .obj p => rreqBlacklistTimeout s p
  | .routeDiscoveryTimeout, .obj p => routeDiscoveryTimeout e s p
  | .localRepairTimeout, .obj p => localRepairTimeout e s p
  | .routeExpireTimeout, .obj p => routeExpireTimeout e s p
  | .routeDeleteTimeout, .obj p => routeDeleteTimeout e s p
  | .helloTimeout, .obj p => helloTimeout e s p
  | .rrepAckTimeout, .obj p => rrepAckTimeout e s p
  | .waitOnRebootTimeout, d => waitOnRebootTimeout s d
  | .helloSend, _ => helloSend e s
  | .printRtTable, _ => printRtTable e s
  | _, _ => s

/-- One turn of the second loop of timer_timeout, for a timer just taken off its list. -/
def fire (e : Env) (s : Daemon) (t : TimerId) : Daemon :=
  let s := { s with timers := timerRemove s.timers t }
  match (s.timer t).handler with
  | none => s
  | some f => callHandler e s f (s.timer t).data

/-- The first loop of timer_timeout: it stops at the first timer that is not due. -/
def takeDue (a : Arch) (now : Timeval) (s : Daemon) : Daemon :=
  let due := fun t => decide (timevalDiff a (s.timer t).timeout now ≤ 0)
  { s with timers := { s.timers with
    exptq := s.timers.tq.takeWhile due, tq := s.timers.tq.dropWhile due } }

/-- The second loop. Every turn takes the first timer off the batch and no
handler puts one on it, so the batch's length bounds the turns. -/
def drain (e : Env) : Nat → Daemon → Daemon
  | 0, s => s
  | n + 1, s =>
      match s.timers.exptq with
      | [] => s
      | t :: _ => drain e n (fire e s t)

def timerTimeout (e : Env) (now : Timeval) (s : Daemon) : Daemon :=
  let s := takeDue e.arch now s
  drain e s.timers.exptq.length s

end Aodv
