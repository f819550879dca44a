import Aodv.Rrep

namespace Aodv

open Lib.Bytes

/-- A HELLO from a known address. The gap test is made only while fewer than
receive_n_hellos - 1 HELLOs have been counted. -/
def helloKnown (e : Env) (s : Daemon) (p : Ptr) (dest : Addr) (seqno timeout : U32)
    (now : Timeval) : Daemon :=
  let r := s.rt p
  if r.flags.unidir ∧ r.state = .valid ∧ 1 < r.hopcnt then
    helloUpdateTimeout e s p now (allowedHelloLoss * helloInterval)
  else if e.receiveNHellos ≠ 0 ∧ (r.helloCnt.toNat : Int) < e.receiveNHellos - 1 then
    let cnt :=
      if timevalDiff e.arch now r.lastHelloTime < helloInterval + helloInterval / 2 then r.helloCnt + 1
      else 1
    s.setRt p { r with helloCnt := cnt, lastHelloTime := now }
  else
    let s := rtTableUpdate e s p dest 1 seqno timeout .valid r.flags
    helloUpdateTimeout e s p now (allowedHelloLoss * helloInterval)

def helloProcess (e : Env) (s : Daemon) (buf : Buf) : Daemon :=
  let now := e.clock s.tick
  let s := s.tock
  let m := rrepOf buf
  let state : RtState := if e.receiveNHellos ≠ 0 then .invalid else .valid
  let timeout := u32 (allowedHelloLoss * helloInterval + routeTimeoutSlack)
  match rtTableCheck s.rtTbl m.destAddr with
  | none =>
      match rtTableInsert e s m.destAddr m.destAddr 1 m.destSeqno timeout state .zero with
      | (s, none) => s
      | (s, some p) => s.setRt p { s.rt p with helloCnt := 1 }
  | some p => helloKnown e s p m.destAddr m.destSeqno timeout now

def helloStop (s : Daemon) : Daemon := { s with timers := timerRemove s.timers .ownHelloTimer }

def armHello (e : Env) (s : Daemon) (msec : Int) : Daemon :=
  { s with
    timers := timerSetTimeout e.arch (e.clock s.tick) s.timers .ownHelloTimer msec
    tick := s.tick + 1 }

def helloSend (e : Env) (s : Daemon) : Daemon :=
  let now := e.clock s.tick
  let s := s.tock
  if activeRouteTimeout < timevalDiff e.arch now s.host.lastForwardTime then helloStop s
  else
    let timeDiff := timevalDiff e.arch now s.host.lastBroadcastTime
    if helloInterval ≤ timeDiff then
      let (s, m) := rrepCreate s false false 0 0 s.host.ipaddr s.host.seqno s.host.ipaddr
        (u32 (allowedHelloLoss * helloInterval))
      let s := aodvSocketSend e s (.rrep m) aodvBroadcast rrepSize 1
      armHello e s helloInterval
    else armHello e s (helloInterval - timeDiff)

end Aodv
