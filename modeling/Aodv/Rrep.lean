import Aodv.Neighbor

namespace Aodv

open Lib.Bytes

def rrepCreate (s : Daemon) (flagR flagA : Bool) (prefixSz : BitVec 5) (hopcnt : U8) (dest : Addr)
    (seqno : U32) (orig : Addr) (life : U32) : Daemon × RREP :=
  let m : RREP := ⟨flagR, flagA, prefixSz, hopcnt, dest, seqno, orig, life⟩
  ({ aodvSocketNewMsg s with sendBuf := rrepBuf m }, m)

def rrepAckCreate (s : Daemon) : Daemon := { aodvSocketNewMsg s with sendBuf := rrepAckBuf }

def rrepAckProcess (s : Daemon) (src : Addr) : Daemon :=
  match rtTableCheck s.rtTbl src with
  | none => s
  | some p => { s with timers := timerRemove s.timers (.ackTimer p) }

/-- The neighbour over a unidirectional link is marked and its link broken
while the RREP waits in the send buffer. -/
def rrepUnidir (e : Env) (s : Daemon) (rev : Ptr) : Daemon :=
  if (s.rt rev).state = .valid ∧ (s.rt rev).flags.unidir then
    match rtTableCheck s.rtTbl (s.rt rev).nextHop with
    | none => s
    | some n =>
        let r := s.rt n
        if r.state = .valid ∧ (s.timer (.ackTimer n)).used = false then
          let s := s.observe (.unidirBreak (linkBreakReports s n))
          let s := s.setRt n { r with flags := { r.flags with unidir := true } }
          let s := neighborLinkBreak e
            { s with timers := timerRemove s.timers (.helloTimer n) } n
          { s with
            timers := timerSetTimeout e.arch (e.clock s.tick) s.timers (.ackTimer n) nextHopWait
            tick := s.tick + 1 }
        else s
  else s

def rrepSend (e : Env) (s : Daemon) (m : RREP) (rev : Ptr) (fwd : Option Ptr) (len : Int) :
    Daemon :=
  let s := rrepUnidir e s rev
  let s := aodvSocketSend e s (.rrep m) (s.rt rev).nextHop len maxTtl
  match fwd with
  | none => s
  | some f =>
      let s := precursorAdd s f (s.rt rev).nextHop
      precursorAdd s rev (s.rt f).nextHop

/-- The neighbour asked for an acknowledgement: the entry of the next hop, which
is the reverse entry itself when the originator is the neighbour. -/
def rrepAckNeighbor (s : Daemon) (rev : Ptr) : Option Ptr :=
  if (s.rt rev).destAddr ≠ (s.rt rev).nextHop then rtTableCheck s.rtTbl (s.rt rev).nextHop
  else some rev

def rrepAskAck (e : Env) (s : Daemon) (buf : Buf) (rev : Ptr) : Daemon × Buf :=
  match rrepAckNeighbor s rev with
  | none => (s, buf)
  | some n =>
      if (s.timer (.ackTimer n)).used then (s, buf)
      else
        let r := s.rt n
        let s := s.setRt n { r with flags := { r.flags with unidir := true } }
        ({ s with
          timers := timerSetTimeout e.arch (e.clock s.tick) s.timers (.ackTimer n) nextHopWait
          tick := s.tick + 1 }, store buf 1 (buf 1 ||| bit true 1))

def rrepForward (e : Env) (s : Daemon) (buf : Buf) (len : Nat) (rev fwd : Ptr) (ttl : Int) :
    Daemon :=
  let (s, buf) := rrepAskAck e s buf rev
  let s := aodvSocketQueueMsg s buf len
  let s := { s with sendBuf := store s.sendBuf 3 (s.rt fwd).hopcnt }
  let msg : Msg := .queued (take (store buf 3 (s.rt fwd).hopcnt) len)
  let s := aodvSocketSend e s msg (s.rt rev).nextHop len ttl
  let s := precursorAdd s fwd (s.rt rev).nextHop
  let s := precursorAdd s rev (s.rt fwd).nextHop
  rtTableUpdateTimeout e s rev (u32 activeRouteTimeout)

def rrepFresher (r : RtEntry) (seqno hops : U32) : Bool :=
  decide (r.destSeqno = 0) || BitVec.slt r.destSeqno seqno ||
    (decide (seqno = r.destSeqno) &&
      (decide (r.state = .invalid) || r.flags.unidir || decide (hops < r.hopcnt.setWidth 32)))

/-- The forward route: inserted, updated, or not to be touched. The flag and the
hop count are those of an entry in repair, as they were. -/
def rrepRoute (e : Env) (s : Daemon) (m : RREP) (src : Addr) : Option (Daemon × Ptr × Bool × U8) :=
  let hops := m.hopcnt.setWidth 32 + 1
  match rtTableCheck s.rtTbl m.destAddr with
  | none =>
      match rtTableInsert e s m.destAddr src hops m.destSeqno m.lifetime .valid .zero with
      | (_, none) => none
      | (s, some p) => some (s, p, false, 0)
  | some p =>
      let r := s.rt p
      if rrepFresher r m.destSeqno hops then
        some (rtTableUpdate e s p src hops m.destSeqno m.lifetime .valid r.flags, p,
          r.flags.repair, r.hopcnt)
      else none

/-- The acknowledgement is sent with the length NEXT_HOP_WAIT. -/
def rrepAnswerAck (e : Env) (s : Daemon) (p : Ptr) : Daemon :=
  let s := rrepAckCreate s
  aodvSocketSend e s .rrepAck (s.rt p).nextHop nextHopWait maxTtl

/-- A repair that ended with a longer route is reported to the precursors. -/
def rrepRepaired (e : Env) (s : Daemon) (p : Ptr) (wasRepair : Bool) (wasHopcnt : U8) : Daemon :=
  if wasRepair ∧ wasHopcnt < (s.rt p).hopcnt then
    let (s, m) := rerrCreate s true (s.rt p).destAddr (s.rt p).destSeqno
    if (s.rt p).nprecursor ≠ 0 then
      aodvSocketSend e s (.rerr m) aodvBroadcast (rerrCalcSize (s.sendBuf 3)) 1
    else s
  else s

def rrepProcess (e : Env) (s : Daemon) (buf : Buf) (len : Nat) (src : Addr) (ttl : Int) : Daemon :=
  let m := rrepOf buf
  if len < rrepSize then s
  else if m.destAddr = s.host.ipaddr then s
  else
    let rev := rtTableCheck s.rtTbl m.origAddr
    match rrepRoute e s m src with
    | none => s
    | some (s, p, wasRepair, wasHopcnt) =>
        let s := if m.a then rrepAnswerAck e s p else s
        let buf := if m.a then store buf 1 (buf 1 &&& ~~~(bit true 1)) else buf
        if m.origAddr = s.host.ipaddr then rrepRepaired e s p wasRepair wasHopcnt
        else
          match rev with
          | none => s
          | some r =>
              if (s.rt r).state = .valid then rrepForward e s buf len r p (ttl - 1) else s

end Aodv
