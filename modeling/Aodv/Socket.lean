import Aodv.Messages
import Aodv.TimerQueue

namespace Aodv

open Lib.Bytes

def aodvSocketNewMsg (s : Daemon) : Daemon := { s with sendBuf := zeroed }

def aodvSocketQueueMsg (s : Daemon) (msg : Buf) (len : Nat) : Daemon :=
  { s with sendBuf := copy s.sendBuf msg len }

/-- One limiter array, filled from the front and then shifted. None is a drop. -/
def limit (a : Arch) (max : Nat) (clock : Timeval) (sent : List Timeval) : Option (List Timeval) :=
  match sent with
  | [] => some [clock]
  | oldest :: rest =>
      if sent.length = max then
        if timevalDiff a clock oldest < 1000 then none else some (rest ++ [clock])
      else some (sent ++ [clock])

structure Outcome where
  rreqRatelimit : List Timeval
  rerrRatelimit : List Timeval
  lastBroadcastTime : Timeval
  tick : Nat
  sent : Option (List U8)

def transmit (e : Env) (s : Daemon) (dest : Addr) (len : Nat) (o : Outcome) : Outcome :=
  let o := if dest = aodvBroadcast then
      { o with lastBroadcastTime := e.clock o.tick, tick := o.tick + 1 } else o
  { o with tick := o.tick + 1, sent := if e.sendto o.tick then some (take s.sendBuf len) else none }

theorem transmit_tick (e : Env) (s : Daemon) (dest : Addr) (len : Nat) (o : Outcome) :
    o.tick ≤ (transmit e s dest len o).tick := by
  rw [transmit]
  dsimp only
  split
  · exact Nat.le_add_right _ 2
  · exact Nat.le_succ _

/-- The message type is read through the message pointer, which is send_buf. -/
def sendOutcome (e : Env) (s : Daemon) (dest : Addr) (len : Nat) : Outcome :=
  let o : Outcome :=
    ⟨s.rreqRatelimit, s.rerrRatelimit, s.host.lastBroadcastTime, s.tick, none⟩
  if s.waitOnReboot ≠ 0 ∧ s.sendBuf 0 = aodvRrep then o
  else if !e.setsockopt o.tick then { o with tick := o.tick + 1 }
  else
    let o := { o with tick := o.tick + 1 }
    if !e.ratelimit then transmit e s dest len o
    else
      let clock := e.clock o.tick
      let o := { o with tick := o.tick + 1 }
      if s.sendBuf 0 = aodvRreq then
        match limit e.arch rreqRatelimitMax clock s.rreqRatelimit with
        | none => o
        | some l => transmit e s dest len { o with rreqRatelimit := l }
      else if s.sendBuf 0 = aodvRerr then
        match limit e.arch rerrRatelimitMax clock s.rerrRatelimit with
        | none => o
        | some l => transmit e s dest len { o with rerrRatelimit := l }
      else transmit e s dest len o

/-- The argument msg is what the caller put into the message; the bytes that
leave are those of the one send buffer. -/
def aodvSocketSend (e : Env) (s : Daemon) (msg : Msg) (dest : Addr) (len ttl : Int) : Daemon :=
  let o := sendOutcome e s dest len.toNat
  { s with
    host := { s.host with lastBroadcastTime := o.lastBroadcastTime }
    rreqRatelimit := o.rreqRatelimit
    rerrRatelimit := o.rerrRatelimit
    tick := o.tick
    trace := .socketSend msg dest len ttl o.sent :: s.trace }

/-- The send buffer holds what the caller put into the message, and the length
handed over is the size of a message of its type. -/
def Carries (s : Daemon) (msg : Msg) (len : Int) : Prop :=
  take s.sendBuf (wireSize msg) = wireBytes msg ∧ len = wireSize msg

theorem sendOutcome_sent (e : Env) (s : Daemon) (dest : Addr) (len : Nat) (bytes : List U8)
    (h : (sendOutcome e s dest len).sent = some bytes) :
    bytes = take s.sendBuf len ∧ ¬ (s.waitOnReboot ≠ 0 ∧ s.sendBuf 0 = aodvRrep) := by
  have transmitted (o : Outcome) (ht : (transmit e s dest len o).sent = some bytes) :
      bytes = take s.sendBuf len := by
    simp only [transmit] at ht
    by_cases hs : e.sendto (if dest = aodvBroadcast then o.tick + 1 else o.tick)
    · split at ht <;> simp_all
    · split at ht <;> simp_all
  unfold sendOutcome at h
  by_cases hw : s.waitOnReboot ≠ 0 ∧ s.sendBuf 0 = aodvRrep
  · simp [hw] at h
  · refine ⟨?_, hw⟩
    simp only [if_neg hw] at h
    split at h
    · simp at h
    · split at h
      · exact transmitted _ h
      · split at h
        · split at h
          · simp at h
          · exact transmitted _ h
        · split at h
          · split at h
            · simp at h
            · exact transmitted _ h
          · exact transmitted _ h

/-- What left the daemon for a message: its bytes as the caller gave them, with
the length of a message of its type. -/
def Faithful (msg : Msg) (len : Int) (sent : Option (List U8)) : Prop :=
  ∀ bytes, sent = some bytes → bytes = wireBytes msg ∧ len = wireSize msg

theorem Carries.faithful {s : Daemon} {msg : Msg} {len : Int} (h : Carries s msg len) (e : Env)
    (dest : Addr) : Faithful msg len (sendOutcome e s dest len.toNat).sent := by
  intro bytes hsent
  obtain ⟨hbytes, _⟩ := sendOutcome_sent e s dest len.toNat bytes hsent
  have hlen : len.toNat = wireSize msg := by
    rw [h.2]
    exact Int.toNat_natCast _
  exact ⟨by rw [hbytes, hlen, h.1], h.2⟩

end Aodv
