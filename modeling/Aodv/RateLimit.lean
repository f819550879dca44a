import Aodv.Lib.Sequences
import Aodv.Main
import Mathlib.Data.Int.ConditionallyCompleteOrder
import Mathlib.Order.Monotone.Basic

namespace Aodv.RateLimit

open Lib.Bytes Lib.Sequences

def Recent (now t : Timeval) : Prop := micros now - micros t < 1000000

instance (now t : Timeval) : Decidable (Recent now t) :=
  inferInstanceAs (Decidable (micros now - micros t < 1000000))

theorem recent_iff {now t : Timeval} : timevalDiff .long64 now t < 1000 ↔ Recent now t := by
  have hdiv := tdiv_thousand (micros now - micros t)
  rw [timevalDiff_eq, Recent, Arch.signed]
  omega

def Falling (ts : List Timeval) : Prop := ts.Pairwise fun t u => micros u ≤ micros t

theorem Falling.recent {ts : List Timeval} (h : Falling ts) (now : Timeval) :
    ts.Pairwise fun t u => decide (Recent now u) = true → decide (Recent now t) = true := by
  apply h.imp
  intro t u hle hu
  rw [decide_eq_true_eq, Recent] at hu ⊢
  omega

/-- The array holds the last messages that were let through, the oldest first,
and its first one decides. -/
theorem limit_window {m : Nat} {ts : List Timeval} (h : Falling ts) (now : Timeval) :
    limit .long64 (m + 1) now (ts.take (m + 1)).reverse =
      if m + 1 ≤ ts.countP (fun t => decide (Recent now t)) then none
      else some ((now :: ts).take (m + 1)).reverse := by
  have hcount := lt_countP_iff (h.recent now) m
  by_cases hm : m < ts.length
  · have hlen : (ts.take (m + 1)).reverse.length = m + 1 := by
      rw [List.length_reverse, List.length_take_of_le hm]
    have hhead := head_take hm
    have hshift := shift_take hm now
    rw [← hshift]
    cases hsent : (ts.take (m + 1)).reverse with
    | nil =>
        rw [hsent] at hlen
        cases hlen
    | cons oldest rest =>
        rw [hsent] at hlen hhead
        rw [← hhead] at hcount
        have hiff : m + 1 ≤ ts.countP (fun t => decide (Recent now t)) ↔
            timevalDiff .long64 now oldest < 1000 := by
          rw [recent_iff]
          refine hcount.trans ?_
          simp
        simp only [limit, if_pos hlen, hiff]
        rfl
  · have hle : ts.length ≤ m := Nat.not_lt.1 hm
    have hfew : ¬ m + 1 ≤ ts.countP (fun t => decide (Recent now t)) :=
      fun hc => hm (Nat.lt_of_lt_of_le hc List.countP_le_length)
    have hall : ((now :: ts).take (m + 1)).reverse = ts.reverse ++ [now] := by
      rw [List.take_of_length_le (Nat.succ_le_succ hle), List.reverse_cons]
    rw [if_neg hfew, hall, List.take_of_length_le (Nat.le_succ_of_le hle)]
    cases hsent : ts.reverse with
    | nil => rfl
    | cons oldest rest =>
        have hlen : (oldest :: rest).length ≠ m + 1 := by
          rw [← hsent, List.length_reverse]
          omega
        simp only [limit, if_neg hlen]

/-- A call: the message's type, the limiter's reading of the clock, and whether
the message was let through to sendto. -/
structure Sent where
  type : U8
  time : Timeval
  passed : Bool

def letThrough (e : Env) (s : Daemon) (dest : Addr) (len : Int) : Bool :=
  (sendOutcome { e with sendto := fun _ => true } s dest len.toNat).sent.isSome

def sentOf (e : Env) (s : Daemon) (dest : Addr) (len : Int) : Sent :=
  ⟨s.sendBuf 0, e.clock (s.tick + 1), letThrough e s dest len⟩

def SetsTtl (e : Env) (s : Daemon) : Prop :=
  ¬ (s.waitOnReboot ≠ 0 ∧ s.sendBuf 0 = aodvRrep) ∧ e.setsockopt s.tick = true

/-- Sequences of calls whose TTL setting succeeds, the last call first. Between
two of them the program may do anything else, other calls of aodv_socket_send
included; only those that set the TTL write the limiter arrays. -/
inductive Sends (e : Env) : Daemon → List Sent → Prop
  | start (s : Daemon) (hrreq : s.rreqRatelimit = []) (hrerr : s.rerrRatelimit = []) : Sends e s []
  | other {s s' : Daemon} {log : List Sent} (h : Sends e s log) (htick : s.tick ≤ s'.tick)
      (hrreq : s'.rreqRatelimit = s.rreqRatelimit) (hrerr : s'.rerrRatelimit = s.rerrRatelimit) :
      Sends e s' log
  | send {s : Daemon} {log : List Sent} (h : Sends e s log) (msg : Msg) (dest : Addr)
      (len ttl : Int) (httl : SetsTtl e s) :
      Sends e (aodvSocketSend e s msg dest len ttl) (sentOf e s dest len :: log)

/-- The times of the messages of a type that were let through. -/
def passedTimes (type : U8) (log : List Sent) : List Timeval :=
  (log.filter fun x => decide (x.type = type) && x.passed).map Sent.time

section Send

variable {e : Env} {s : Daemon}

theorem transmit_arrays (e : Env) (s : Daemon) (dest : Addr) (len : Nat) (o : Outcome) :
    (transmit e s dest len o).rreqRatelimit = o.rreqRatelimit ∧
      (transmit e s dest len o).rerrRatelimit = o.rerrRatelimit := by
  rw [transmit]
  dsimp only
  split <;> exact ⟨rfl, rfl⟩

theorem transmit_sent (s : Daemon) (dest : Addr) (len : Nat) (o : Outcome)
    (hto : ∀ n, e.sendto n = true) : (transmit e s dest len o).sent.isSome = true := by
  rw [transmit]
  dsimp only
  rw [if_pos (hto _)]
  rfl

theorem send_spec (hr : e.ratelimit = true) (msg : Msg) (dest : Addr) (len ttl : Int)
    (httl : SetsTtl e s) :
    (aodvSocketSend e s msg dest len ttl).rreqRatelimit =
        (if s.sendBuf 0 = aodvRreq then
          (limit e.arch rreqRatelimitMax (e.clock (s.tick + 1)) s.rreqRatelimit).getD s.rreqRatelimit
        else s.rreqRatelimit) ∧
      (aodvSocketSend e s msg dest len ttl).rerrRatelimit =
        (if s.sendBuf 0 = aodvRerr then
          (limit e.arch rerrRatelimitMax (e.clock (s.tick + 1)) s.rerrRatelimit).getD s.rerrRatelimit
        else s.rerrRatelimit) ∧
      letThrough e s dest len =
        (if s.sendBuf 0 = aodvRreq then
          (limit e.arch rreqRatelimitMax (e.clock (s.tick + 1)) s.rreqRatelimit).isSome
        else if s.sendBuf 0 = aodvRerr then
          (limit e.arch rerrRatelimitMax (e.clock (s.tick + 1)) s.rerrRatelimit).isSome
        else true) ∧
      s.tick + 1 ≤ (aodvSocketSend e s msg dest len ttl).tick := by
  obtain ⟨hw, httl⟩ := httl
  have harrays := transmit_arrays e s dest len.toNat
  have hsent := transmit_sent (e := { e with sendto := fun _ => true }) s dest len.toNat
  have htick (o : Outcome) (ho : o.tick = s.tick + 1 + 1) :
      s.tick + 1 ≤ (transmit e s dest len.toNat o).tick := by
    have hlater := transmit_tick e s dest len.toNat o
    omega
  have hne : aodvRerr ≠ aodvRreq := by decide
  simp only [aodvSocketSend, letThrough, sendOutcome, if_neg hw, httl, hr, Bool.not_true,
    Bool.false_eq_true, if_false]
  by_cases hq : s.sendBuf 0 = aodvRreq
  · simp only [if_pos hq, if_neg (hq ▸ hne.symm : ¬ s.sendBuf 0 = aodvRerr)]
    cases limit e.arch rreqRatelimitMax (e.clock (s.tick + 1)) s.rreqRatelimit with
    | none => exact ⟨rfl, rfl, rfl, Nat.le_succ _⟩
    | some l => exact ⟨(harrays _).1, (harrays _).2, hsent _ fun _ => rfl, htick _ rfl⟩
  · by_cases he : s.sendBuf 0 = aodvRerr
    · simp only [if_neg hq, if_pos he]
      cases limit e.arch rerrRatelimitMax (e.clock (s.tick + 1)) s.rerrRatelimit with
      | none => exact ⟨rfl, rfl, rfl, Nat.le_succ _⟩
      | some l =>
          exact ⟨(harrays _).1, (harrays _).2, hsent _ fun _ => rfl, htick _ rfl⟩
    · simp only [if_neg hq, if_neg he]
      exact ⟨(harrays _).1, (harrays _).2, hsent _ fun _ => rfl, htick _ rfl⟩

end Send

def counts (x y : Sent) : Bool := decide (y.type = x.type) && y.passed && decide (Recent x.time y.time)

/-- The limiter's answer to a call, by the calls before it. -/
structure Verdict (earlier : List Sent) (x : Sent) : Prop where
  rreq : x.type = aodvRreq → (x.passed = false ↔ rreqRatelimitMax ≤ earlier.countP (counts x))
  rerr : x.type = aodvRerr → (x.passed = false ↔ rerrRatelimitMax ≤ earlier.countP (counts x))
  /-- Nothing else is limited. -/
  other : x.type ≠ aodvRreq → x.type ≠ aodvRerr → x.passed = true

/-- Of the messages of a type that were let through, the one m places before
another is at least 1000 ms older. -/
def Spaced (m : Nat) (ts : List Timeval) : Prop :=
  ∀ i t u, ts[i]? = some t → ts[i + m]? = some u → ¬ Recent t u

structure Windowed (e : Env) (s : Daemon) (log : List Sent) : Prop where
  rreq : s.rreqRatelimit = ((passedTimes aodvRreq log).take rreqRatelimitMax).reverse
  rerr : s.rerrRatelimit = ((passedTimes aodvRerr log).take rerrRatelimitMax).reverse
  past : ∀ x ∈ log, micros x.time ≤ micros (e.clock s.tick)
  falling : log.Pairwise fun x y => micros y.time ≤ micros x.time
  verdicts : ∀ later x earlier, log = later ++ x :: earlier → Verdict earlier x
  spaced : Spaced rreqRatelimitMax (passedTimes aodvRreq log) ∧
    Spaced rerrRatelimitMax (passedTimes aodvRerr log)

section Window

variable {e : Env} {s s' : Daemon} {log : List Sent} {type : U8} {x : Sent}

theorem passedTimes_cons (type : U8) (x : Sent) (log : List Sent) : passedTimes type (x :: log) =
    if x.type = type ∧ x.passed = true then x.time :: passedTimes type log
    else passedTimes type log := by
  rw [passedTimes, List.filter_cons]
  by_cases ht : x.type = type ∧ x.passed = true
  · rw [if_pos ht, if_pos (by simp [ht])]
    rfl
  · rw [if_neg ht, if_neg (by simpa using ht)]
    rfl

theorem countP_passedTimes (log : List Sent) (x : Sent) :
    (passedTimes x.type log).countP (fun t => decide (Recent x.time t)) = log.countP (counts x) := by
  rw [passedTimes, List.countP_map, List.countP_filter]
  congr 1
  funext y
  simp only [counts, Function.comp, Bool.and_comm]

theorem falling_passedTimes (h : log.Pairwise fun x y => micros y.time ≤ micros x.time) (type : U8) :
    Falling (passedTimes type log) := by
  rw [Falling, passedTimes, List.pairwise_map]
  exact h.sublist List.filter_sublist

theorem limited {m : Nat} (h : log.Pairwise fun x y => micros y.time ≤ micros x.time)
    {array : List Timeval} (ht : x.type = type)
    (ha : array = ((passedTimes type log).take (m + 1)).reverse)
    (hx : x.passed = (limit .long64 (m + 1) x.time array).isSome) :
    (limit .long64 (m + 1) x.time array).getD array =
        ((passedTimes type (x :: log)).take (m + 1)).reverse ∧
      (x.passed = false ↔ m + 1 ≤ log.countP (counts x)) := by
  subst ht
  have hwindow := limit_window (m := m) (falling_passedTimes h x.type) x.time
  rw [← ha, countP_passedTimes] at hwindow
  rw [hwindow] at hx ⊢
  rw [passedTimes_cons]
  by_cases hc : m + 1 ≤ log.countP (counts x)
  · rw [if_pos hc] at hx ⊢
    have hfalse : x.passed = false := hx
    refine ⟨?_, iff_of_true hfalse hc⟩
    rw [if_neg (by simp [hfalse])]
    exact ha
  · rw [if_neg hc] at hx ⊢
    have htrue : x.passed = true := hx
    refine ⟨?_, iff_of_false (by simp [htrue]) hc⟩
    rw [if_pos ⟨rfl, htrue⟩]
    rfl

theorem Spaced.cons {m : Nat} (hs : Spaced (m + 1) (passedTimes type log)) (ht : x.type = type)
    (h : log.Pairwise fun x y => micros y.time ≤ micros x.time)
    (hv : x.passed = false ↔ m + 1 ≤ log.countP (counts x)) :
    Spaced (m + 1) (passedTimes type (x :: log)) := by
  subst ht
  rw [passedTimes_cons]
  split
  next hp =>
    intro i t u ht hu
    cases i with
    | zero =>
        obtain rfl : x.time = t := by simpa using ht
        rw [Nat.zero_add, List.getElem?_cons_succ] at hu
        intro hrecent
        have hcount := (lt_countP_iff ((falling_passedTimes h x.type).recent x.time) m).2
          ⟨u, hu, by simpa using hrecent⟩
        rw [countP_passedTimes] at hcount
        rw [hv.2 hcount] at hp
        cases hp.2
    | succ i =>
        rw [Nat.add_right_comm, List.getElem?_cons_succ] at hu
        rw [List.getElem?_cons_succ] at ht
        exact hs i t u ht hu
  · exact hs

theorem Windowed.other (h : Windowed e s log) (hclock : Monotone fun n => micros (e.clock n))
    (htick : s.tick ≤ s'.tick) (hrreq : s'.rreqRatelimit = s.rreqRatelimit)
    (hrerr : s'.rerrRatelimit = s.rerrRatelimit) : Windowed e s' log :=
  { h with
    rreq := hrreq.trans h.rreq
    rerr := hrerr.trans h.rerr
    past := fun x hx => (h.past x hx).trans (hclock htick) }

theorem Windowed.send (h : Windowed e s log) (h64 : e.arch = .long64) (hr : e.ratelimit = true)
    (hclock : Monotone fun n => micros (e.clock n)) (msg : Msg) (dest : Addr) (len ttl : Int)
    (httl : SetsTtl e s) :
    Windowed e (aodvSocketSend e s msg dest len ttl) (sentOf e s dest len :: log) := by
  obtain ⟨hrreq, hrerr, hpassed, htick⟩ := send_spec hr msg dest len ttl httl
  rw [h64] at hrreq hrerr hpassed
  have hother (type : U8) (hne : s.sendBuf 0 ≠ type) :
      passedTimes type (sentOf e s dest len :: log) = passedTimes type log := by
    rw [passedTimes_cons, if_neg fun hp => hne hp.1]
  have hne : aodvRerr ≠ aodvRreq := by decide
  have hnew : Verdict log (sentOf e s dest len) ∧
      (aodvSocketSend e s msg dest len ttl).rreqRatelimit =
        ((passedTimes aodvRreq (sentOf e s dest len :: log)).take rreqRatelimitMax).reverse ∧
      (aodvSocketSend e s msg dest len ttl).rerrRatelimit =
        ((passedTimes aodvRerr (sentOf e s dest len :: log)).take rerrRatelimitMax).reverse ∧
      Spaced rreqRatelimitMax (passedTimes aodvRreq (sentOf e s dest len :: log)) ∧
      Spaced rerrRatelimitMax (passedTimes aodvRerr (sentOf e s dest len :: log)) := by
    rw [hrreq, hrerr]
    by_cases hq : s.sendBuf 0 = aodvRreq
    · rw [if_pos hq] at hpassed ⊢
      have he : s.sendBuf 0 ≠ aodvRerr := hq ▸ hne.symm
      obtain ⟨harray, hiff⟩ := limited (x := sentOf e s dest len) (m := 9) h.falling hq h.rreq hpassed
      rw [if_neg he, hother _ he]
      exact ⟨⟨fun _ => hiff, fun h' => absurd h' he, fun h' => absurd hq h'⟩, harray, h.rerr,
        h.spaced.1.cons hq h.falling hiff, h.spaced.2⟩
    · rw [if_neg hq] at hpassed ⊢
      rw [hother _ hq]
      by_cases he : s.sendBuf 0 = aodvRerr
      · rw [if_pos he] at hpassed ⊢
        obtain ⟨harray, hiff⟩ := limited (x := sentOf e s dest len) (m := 9) h.falling he h.rerr hpassed
        exact ⟨⟨fun h' => absurd h' hq, fun _ => hiff, fun _ h' => absurd he h'⟩, h.rreq, harray,
          h.spaced.1, h.spaced.2.cons he h.falling hiff⟩
      · rw [if_neg he] at hpassed ⊢
        rw [hother _ he]
        exact ⟨⟨fun h' => absurd h' hq, fun h' => absurd h' he, fun _ _ => hpassed⟩, h.rreq, h.rerr,
          h.spaced⟩
  obtain ⟨hverdict, harray, harray', hspaced⟩ := hnew
  refine ⟨harray, harray', fun x hx => ?_, ?_, fun later x earlier hlog => ?_, hspaced⟩
  · rcases List.mem_cons.1 hx with rfl | hx
    · exact hclock htick
    · exact (h.past x hx).trans (hclock ((Nat.le_succ _).trans htick))
  · exact List.pairwise_cons.2 ⟨fun y hy => (h.past y hy).trans (hclock (Nat.le_succ _)), h.falling⟩
  · cases later with
    | nil =>
        obtain ⟨rfl, rfl⟩ := List.cons.inj hlog
        exact hverdict
    | cons y later => exact h.verdicts later x earlier (List.cons.inj hlog).2

theorem windowed (h64 : e.arch = .long64) (hr : e.ratelimit = true)
    (hclock : Monotone fun n => micros (e.clock n)) (h : Sends e s log) : Windowed e s log := by
  induction h with
  | start s hrreq hrerr =>
      refine ⟨hrreq, hrerr, fun x hx => absurd hx List.not_mem_nil, .nil,
        fun later x earlier hlog => ?_, ?_⟩
      · exact absurd hlog.symm (List.append_ne_nil_of_right_ne_nil _ (List.cons_ne_nil x earlier))
      · constructor
        · intro i t u ht
          cases ht
        · intro i t u ht
          cases ht
  | other _ htick hrreq hrerr ih => exact ih.other hclock htick hrreq hrerr
  | send _ msg dest len ttl httl ih => exact ih.send h64 hr hclock msg dest len ttl httl

/-- The limiter drops an RREQ or an RERR exactly if at least ten messages of its
type were let through less than 1000 ms before it, so that of eleven in a row the
last is at least 1000 ms later than the first, and it lets all others through. -/
theorem ratelimit_window (h64 : e.arch = .long64) (hr : e.ratelimit = true)
    (hclock : ∀ n, micros (e.clock n) ≤ micros (e.clock (n + 1))) (h : Sends e s log) :
    (∀ later x earlier, log = later ++ x :: earlier → Verdict earlier x) ∧
      Spaced rreqRatelimitMax (passedTimes aodvRreq log) ∧
      Spaced rerrRatelimitMax (passedTimes aodvRerr log) := by
  have hw := windowed h64 hr (monotone_nat_of_le_succ hclock) h
  exact ⟨hw.verdicts, hw.spaced⟩

/-- A daemon that does nothing but send one RREQ after another. -/
def flood : Nat → Daemon × List Sent
  | 0 => ({ init wide 0x0100000a 0xff00000a 2 with sendBuf := store zeroed 0 aodvRreq }, [])
  | n + 1 =>
      (aodvSocketSend wide (flood n).1 (.queued []) aodvBroadcast 24 1,
        sentOf wide (flood n).1 aodvBroadcast 24 :: (flood n).2)

theorem sends_flood (n : Nat) :
    Sends wide (flood n).1 (flood n).2 ∧ (flood n).1.sendBuf 0 = aodvRreq := by
  induction n with
  | zero => exact ⟨.start _ rfl rfl, rfl⟩
  | succ n ih =>
      obtain ⟨hsends, htype⟩ := ih
      refine ⟨.send hsends _ _ _ _ ⟨fun hw => ?_, rfl⟩, htype⟩
      rw [htype] at hw
      exact absurd hw.2 (by decide)

/-- The eleventh RREQ is dropped. -/
theorem ratelimit_window_flood : (flood 11).2.map Sent.passed = false :: List.replicate 10 true ∧
    (∀ later x earlier, (flood 11).2 = later ++ x :: earlier → Verdict earlier x) ∧
      Spaced rreqRatelimitMax (passedTimes aodvRreq (flood 11).2) ∧
      Spaced rerrRatelimitMax (passedTimes aodvRerr (flood 11).2) :=
  ⟨by decide +kernel, ratelimit_window rfl rfl (fun _ => Int.le_refl _) (sends_flood 11).1⟩

end Window

end Aodv.RateLimit
