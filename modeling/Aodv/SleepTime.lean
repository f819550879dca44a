import Aodv.TimerSteps

namespace Aodv.SleepTime

open TimerCalls TimerExpiry TimerSteps Relation

def remaining (a : Arch) (now : Timeval) (q : TimerQueue) : Option Timeval :=
  match q.tq with
  | [] => none
  | t :: _ =>
      let tvUsec := a.signed ((q.timer t).timeout.tvUsec - now.tvUsec)
      let tvSec := a.signed ((q.timer t).timeout.tvSec - now.tvSec)
      some (if tvUsec < 0 then ⟨a.signed (tvSec - 1), a.signed (tvUsec + 1000000)⟩ else ⟨tvSec, tvUsec⟩)

/-- timer_age_queue with its result. A queue that is empty at first stays empty. -/
def timerAgeQueue (e : Env) (s : Daemon) : Daemon × Option Timeval :=
  let s' := Aodv.timerAgeQueue e s
  (s', remaining e.arch (e.clock s.tick) s'.timers)

def Normalised (t : Timeval) : Prop := 0 ≤ t.tvUsec ∧ t.tvUsec < 1000000

theorem normalised_addMsec {t : Timeval} (h : Normalised t) {msec : Int} (hm : 0 ≤ msec) :
    Normalised (timevalAddMsec .long64 t msec) := by
  have hsum : 0 ≤ t.tvUsec + msec * 1000 := by
    have husec := h.1
    omega
  rw [timevalAddMsec]
  exact ⟨Int.tmod_nonneg _ hsum, Int.tmod_lt_of_pos _ (by decide)⟩

/-- A call that sets a timer reads a normalised time that is not before now. -/
def Onward (now : Timeval) : Call → Prop
  | .setTimeout now' _ _ => micros now ≤ micros now' ∧ Normalised now'
  | .add _ => False
  | .init .. | .remove _ | .setHandler .. => True

/-- No timer of the main queue is due before now. -/
structure Paced (now : Timeval) (m : Timers) : Prop where
  normal : ∀ t, Normalised (deadline m.q t)
  late : ∀ t ∈ m.q.tq, micros now ≤ micros (deadline m.q t)

section Paced

variable {now : Timeval} {m : Timers}

theorem tq_timerAdd {a : Arch} {q : TimerQueue} {t u : TimerId} (h : u ∈ (timerAdd a q t).tq) :
    u = t ∨ u ∈ q.tq := by
  unfold timerAdd at h
  split at h
  · exact .inr h
  · split at h
    · exact .inr h
    · exact (mem_insertSorted _ _ _ _).1 h

theorem tq_timerSetTimeout {a : Arch} {q : TimerQueue} {t u : TimerId} {msec : Int}
    (h : u ∈ (timerSetTimeout a now q t msec).tq) : u = t ∨ u ∈ q.tq := by
  have hremove : ∀ v ∈ (if (q.timer t).used then timerRemove q t else q).tq, v ∈ q.tq := by
    intro v hv
    split at hv
    · exact List.mem_of_mem_filter hv
    · exact hv
  simp only [timerSetTimeout] at h
  generalize (if (q.timer t).used then timerRemove q t else q) = q' at hremove h
  split at h
  · exact .inr (hremove u h)
  · exact (tq_timerAdd h).imp id (hremove u)

theorem Paced.call (h : Paced now m) {c : Call} (hc : c.Allowed m) (hon : Onward now c) :
    Paced now (m.call .long64 c) := by
  cases c with
  | init t f data =>
      have hzero : Normalised ⟨0, 0⟩ := ⟨by decide, by decide⟩
      have hset (v : Timer) (hv : v.timeout = ⟨0, 0⟩) : Paced now { m with q := set m.q t v } := by
        constructor
        · intro u
          rw [deadline_set, hv]
          split
          · exact hzero
          · exact h.normal u
        · intro u hu
          have hne : u ≠ t := by
            rintro rfl
            exact hc (List.mem_append_left _ hu)
          rw [deadline_set, if_neg hne]
          exact h.late u hu
      cases f with
      | none => exact hset _ rfl
      | some f => exact hset _ rfl
  | setTimeout now' t msec =>
      constructor
      · intro u
        change Normalised (deadline (timerSetTimeout .long64 now' m.q t msec) u)
        rw [deadline_timerSetTimeout]
        split
        · split
          · exact hon.2
          next hm => exact normalised_addMsec hon.2 (Int.not_lt.1 hm)
        · exact h.normal u
      · intro u hu
        change micros now ≤ micros (deadline (timerSetTimeout .long64 now' m.q t msec) u)
        rw [deadline_timerSetTimeout]
        split
        · split
          · exact hon.1
          next hm =>
            have hpast := hon.1
            change micros now ≤ micros (timevalAddMsec .long64 now' msec)
            rw [micros_addMsec]
            omega
        next hne => exact h.late u ((tq_timerSetTimeout hu).resolve_left hne)
  | add t => exact absurd hon id
  | remove t =>
      constructor
      · intro u
        change Normalised (deadline (timerRemove m.q t) u)
        rw [deadline_timerRemove]
        exact h.normal u
      · intro u hu
        change micros now ≤ micros (deadline (timerRemove m.q t) u)
        rw [deadline_timerRemove]
        exact h.late u (List.mem_of_mem_filter hu)
  | setHandler t f =>
      constructor
      · intro u
        change Normalised (deadline (setHandler m.q t f) u)
        rw [deadline_setHandler]
        exact h.normal u
      · intro u hu
        change micros now ≤ micros (deadline (setHandler m.q t f) u)
        rw [deadline_setHandler]
        exact h.late u hu

theorem Paced.calls {cs : List Call} (h : Paced now m) (hcs : Permitted .long64 m cs)
    (hon : ∀ c ∈ cs, Onward now c) : Paced now (cs.foldl (Timers.call .long64) m) := by
  induction cs generalizing m with
  | nil => exact h
  | cons c cs ih =>
      have hone := h.call hcs.1 (hon c List.mem_cons_self)
      exact ih hone hcs.2 fun c' hc' => hon c' (List.mem_cons_of_mem _ hc')

theorem late_of_stays {a : Arch} (h64 : a = .long64) (h : TimerCalls.Sound a m) {t : TimerId}
    (ht : t ∈ (m.takeDue a now).q.tq) : micros now ≤ micros (deadline m.q t) := by
  subst h64
  by_contra hlt
  have hdue : micros (deadline m.q t) ≤ micros now := Int.le_of_lt (Int.not_le.1 hlt)
  have hmem : t ∈ m.q.tq := (mem_takeDue).2 (.inr ht)
  have hdisjoint := List.disjoint_of_nodup_append (h.takeDue now).nodup
  exact hdisjoint ht (List.mem_append_left _ (mem_of_due h hmem hdue))

end Paced

/-- The clock of gettimeofday, which is not set back. -/
structure Clock (e : Env) : Prop where
  normal : ∀ n, Normalised (e.clock n)
  step : ∀ n, micros (e.clock n) ≤ micros (e.clock (n + 1))

theorem Clock.le {e : Env} (h : Clock e) {k n : Nat} (hkn : k ≤ n) :
    micros (e.clock k) ≤ micros (e.clock n) := by
  induction hkn with
  | refl => exact Int.le_refl _
  | step _ ih => exact Int.le_trans ih (h.step _)

theorem Clock.onward {e : Env} {W : Int → Prop} (h : Clock e) {k n n' : Nat} {c : Call}
    (hc : Current e W n n' c) (hkn : k ≤ n) : Onward (e.clock k) c := by
  cases c with
  | setTimeout now t msec =>
      obtain ⟨⟨i, hi, -, rfl⟩, -⟩ := hc
      exact ⟨h.le (Nat.le_trans hkn hi), h.normal i⟩
  | add t => exact hc
  | init | remove | setHandler => trivial

theorem paced_timed {e : Env} {W : Int → Prop} {s s' : Daemon} {k : Nat} (h : Timed e W s s')
    (h64 : e.arch = .long64) (hclock : Clock e) (hk : k ≤ s.tick)
    (hs : Paced (e.clock k) ⟨s.timers, []⟩) :
    Paced (e.clock k) ⟨s'.timers, []⟩ := by
  obtain ⟨cs, hok, hcur, hrun⟩ := h.calls
  rw [h64] at hok hrun
  rw [← hrun]
  exact hs.calls hok fun c hc => hclock.onward (hcur c hc) hk

theorem paced_takeDue {a : Arch} {now : Timeval} {m : Timers} (hm : Paced now m) (now' : Timeval) :
    Paced now (m.takeDue a now') :=
  ⟨hm.normal, fun t ht => hm.late t (mem_takeDue.2 (.inr ht))⟩

theorem paced_init {e : Env} (h64 : e.arch = .long64) (hclock : Clock e) (ipaddr broadcast : Addr)
    (ifindex : Int) :
    Paced (e.clock 0) ⟨(init e ipaddr broadcast ifindex).timers, []⟩ := by
  have hstart : Paced (e.clock 0) ⟨noTimers, []⟩ :=
    ⟨fun _ => ⟨Int.le_refl 0, by change (0 : Int) < 1000000; decide⟩,
      fun t ht => absurd ht List.not_mem_nil⟩
  have hcalls : Permitted .long64 ⟨noTimers, []⟩ [.init .rtLogTimer (some .printRtTable) .null,
      .setTimeout (e.clock 0) .rtLogTimer rtLogInterval] := ⟨List.not_mem_nil, trivial, trivial⟩
  rw [init, h64]
  refine hstart.calls hcalls fun c hc => ?_
  rcases List.mem_cons.1 hc with rfl | hc
  · trivial
  · rw [List.mem_singleton.1 hc]
    exact ⟨Int.le_refl _, hclock.normal 0⟩

theorem paced_reachable {e : Env} (h64 : e.arch = .long64) (hclock : Clock e) {s : Daemon}
    (h : Reachable e s) :
    Paced (e.clock 0) ⟨s.timers, []⟩ := by
  refine Reachable.events (I := fun s => Paced (e.clock 0) ⟨s.timers, []⟩) (paced_init h64 hclock) ?_ h
  intro s ev hrest ih
  obtain ⟨s₁, hfrom, hcoarse, -⟩ := coarses_step (e := e) hrest.wellFormed hrest.batch ev
  rcases hfrom with rfl | ⟨now, rfl⟩
  · exact paced_timed (Timed.coarses hcoarse hrest.wellFormed) h64 hclock (Nat.zero_le _) ih
  · have hw := wellFormed_takeDue e.arch now hrest.wellFormed hrest.batch
    have hdue := paced_takeDue (a := e.arch) ih now
    exact paced_timed (Timed.coarses hcoarse hw) h64 hclock (Nat.zero_le _) ⟨hdue.normal, hdue.late⟩

/-- What select may do with the interval. -/
structure Sleeps (now : Timeval) (q : TimerQueue) (interval : Option Timeval) : Prop where
  forever : interval = none → ∀ t, ¬ Pending q t
  normal : ∀ r, interval = some r → Normalised r ∧ 0 ≤ r.tvSec
  wakes : ∀ r, interval = some r →
    ∀ t, Pending q t → micros now + micros r < micros (deadline q t) + 1000

theorem sleeps_remaining {now : Timeval} {q : TimerQueue} (h : TimerCalls.Sound .long64 ⟨q, []⟩)
    (hpaced : Paced now ⟨q, []⟩) (hnow : Normalised now) (hbatch : q.exptq = []) :
    Sleeps now q (remaining .long64 now q) := by
  have hpending (t : TimerId) : Pending q t ↔ t ∈ q.tq := by
    simp [Pending, hbatch]
  rw [remaining]
  cases htq : q.tq with
  | nil =>
      refine ⟨fun _ t ht => ?_, fun r hr => (by cases hr), fun r hr => (by cases hr)⟩
      rw [hpending, htq] at ht
      exact List.not_mem_nil ht
  | cons t rest =>
      have hordered : (t :: rest).Pairwise (Before q) := htq ▸ h.ordered rfl
      have hlate : micros now ≤ micros (deadline q t) := hpaced.late t (htq ▸ List.mem_cons_self)
      have hnormal := hpaced.normal t
      -- the interval is the time that is left to the head of the queue
      have hsum (r : Timeval) (hr : micros now + micros r = micros (deadline q t)) (u : TimerId)
          (hu : Pending q u) : micros now + micros r < micros (deadline q u) + 1000 := by
        rw [hr]
        rw [hpending, htq] at hu
        rcases List.mem_cons.1 hu with rfl | hu
        · omega
        · exact (List.pairwise_cons.1 hordered).1 u hu
      have hsome {r : Timeval} (hn : Normalised r ∧ 0 ≤ r.tvSec)
          (hr : micros now + micros r = micros (deadline q t)) : Sleeps now q (some r) := by
        refine ⟨fun h => (by cases h), fun _ h => ?_, fun _ h => ?_⟩
        · cases h
          exact hn
        · cases h
          exact hsum r hr
      simp only [Normalised, deadline, micros] at hnormal hnow hlate
      dsimp only [Arch.signed]
      split
      next hneg =>
        refine hsome ⟨⟨?_, ?_⟩, ?_⟩ ?_
        all_goals simp only [deadline, micros]; omega
      next hneg =>
        refine hsome ⟨⟨?_, ?_⟩, ?_⟩ ?_
        all_goals simp only [deadline, micros]; omega

/-- The interval for select is sound. -/
theorem sleep_time_sound {e : Env} (h64 : e.arch = .long64) (hclock : Clock e) {s : Daemon}
    (h : Reachable e s) :
    Sleeps (e.clock s.tick) (timerAgeQueue e s).1.timers (timerAgeQueue e s).2 := by
  have hrest := Reachable.resting h
  have hreach := timers_reached h
  have hpaced := paced_reachable h64 hclock h
  rw [timerAgeQueue, h64]
  rw [Aodv.timerAgeQueue]
  dsimp only
  split
  next htq =>
    have hlate : Paced (e.clock s.tick) ⟨s.tock.timers, []⟩ :=
      ⟨hpaced.normal, fun t ht => absurd (htq ▸ ht) List.not_mem_nil⟩
    exact sleeps_remaining (h64 ▸ hreach.sound) hlate (hclock.normal _) hrest.batch
  · let now := e.clock s.tick
    have hw : WellFormed (takeDue e.arch now s.tock) :=
      wellFormed_takeDue _ now ((Kept.tock s).wellFormed hrest.wellFormed) hrest.batch
    let n := (takeDue e.arch now s.tock).timers.exptq.length
    have hdrain : ReflTransGen (Aodv.Coarse e .age) (takeDue e.arch now s.tock)
        (drain e n (takeDue e.arch now s.tock)) ∧
        (drain e n (takeDue e.arch now s.tock)).timers.exptq = [] := coarses_drain n hw (Nat.le_refl n)
    have htimed := Timed.coarses hdrain.1 hw
    have hdue : Paced now ⟨(takeDue e.arch now s.tock).timers, []⟩ :=
      ⟨hpaced.normal, fun t ht => late_of_stays h64 hreach.sound ht⟩
    have hafter := paced_timed htimed h64 hclock (Nat.le_succ s.tick) hdue
    have hsound := htimed.reached_batch hrest.batch hdrain.2 hreach
    exact sleeps_remaining (h64 ▸ hsound.sound) hafter (hclock.normal _) hdrain.2

def seconds : Env := { wide with clock := fun n => ⟨n, 0⟩ }

theorem clock_seconds : Clock seconds := by
  refine ⟨fun n => ⟨Int.le_refl 0, by change (0 : Int) < 1000000; decide⟩, fun n => ?_⟩
  change (n : Int) * 1000000 + 0 ≤ ((n + 1 : Nat) : Int) * 1000000 + 0
  omega

def asked : Daemon := run seconds (init seconds 0x0100000a 0xff00000a 2)
  [.recv (.of (.rreq ⟨false, false, false, false, false, 3, 1, 0x0900000a, 0, 0x0300000a, 5⟩)
    0x0200000a aodvBroadcast 3 (fits_rreq _))]

theorem reachable_asked : Reachable seconds asked := ⟨_, _, _, _, rfl⟩

/-- Three of four timers run out together, and their handlers arm two of them and the fourth
one again. -/
theorem sleep_time_sound_batch :
    (takeDue .long64 (seconds.clock asked.tick) asked.tock).timers.exptq =
        [.rtTimer 0, .rtLogTimer, .recTimer 1] ∧
      (timerAgeQueue seconds asked).1.timers.tq = [.rtTimer 0, .rtLogTimer, .rtTimer 2] ∧
      (timerAgeQueue seconds asked).2 = some ⟨19, 0⟩ ∧
      Sleeps (seconds.clock asked.tick) (timerAgeQueue seconds asked).1.timers
        (timerAgeQueue seconds asked).2 := by
  refine ⟨?_, ?_, ?_, sleep_time_sound rfl clock_seconds reachable_asked⟩
  · decide +kernel
  · decide +kernel
  · decide +kernel

end Aodv.SleepTime
