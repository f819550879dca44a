import Aodv.Lib.Drain
import Aodv.Timeout
import Aodv.TimerCalls
import Mathlib.Data.List.TakeWhile

namespace Aodv.TimerExpiry

open Lib.Drain TimerCalls

/-- What the handler of a timer does, by the state of the rest of the program and
of the timers: the state that it leaves and the calls that it makes. -/
abbrev Handlers (σ : Type) := TimerId → σ → Timers → σ × List Call

structure Report where
  handler : Option Handler
  calls : List Call

variable {σ : Type}

def turn (a : Arch) (act : Handlers σ) (t : TimerId) (x : σ × Timers) : (σ × Timers) × Report :=
  let m := x.2.remove t
  match (m.q.timer t).handler with
  | none => ((x.1, m), ⟨none, []⟩)
  | some f =>
      let y := act t x.1 m
      ((y.1, y.2.foldl (Timers.call a) m), ⟨some f, y.2⟩)

def batch (x : σ × Timers) : List TimerId := x.2.q.exptq

/-- The state after both loops and one report for each turn of the second, which
has as many turns as the batch has timers at first. -/
def timerTimeout (a : Arch) (act : Handlers σ) (now : Timeval) (x : σ × Timers) :
    (σ × Timers) × List (TimerId × Report) :=
  let x := (x.1, x.2.takeDue a now)
  Lib.Drain.drain batch (turn a act) (batch x).length x

def takes : Call → TimerId → Bool
  | .setTimeout _ u _, t => decide (u = t)
  | .remove u, t => decide (u = t)
  | .init .., _ | .add _, _ | .setHandler .., _ => false

/-- Every timer is on no list when a call initialises it. -/
def Permitted (a : Arch) : Timers → List Call → Prop
  | _, [] => True
  | m, c :: cs => c.Allowed m ∧ Permitted a (m.call a c) cs

section Due

variable {a : Arch} {m : Timers} {now : Timeval} {t : TimerId}

theorem takeDue_daemon (a : Arch) (now : Timeval) (s : Daemon) :
    (Aodv.takeDue a now s).timers = (Timers.takeDue a ⟨s.timers, []⟩ now).q := rfl

theorem mem_takeDue : t ∈ m.q.tq ↔ t ∈ (m.takeDue a now).q.exptq ∨ t ∈ (m.takeDue a now).q.tq := by
  have hsplit := List.takeWhile_append_dropWhile
    (p := fun t => decide (timevalDiff a (m.q.timer t).timeout now ≤ 0)) (l := m.q.tq)
  rw [← List.mem_append]
  dsimp only [Timers.takeDue]
  rw [hsplit]

/-- The scan stops at a timer that is a millisecond late, and what is due cannot
stand behind it. -/
theorem mem_of_due (h : TimerCalls.Sound .long64 m) (ht : t ∈ m.q.tq)
    (hdue : micros (deadline m.q t) ≤ micros now) : t ∈ (m.takeDue .long64 now).q.exptq := by
  rcases (mem_takeDue).1 ht with hmem | hmem
  · exact hmem
  · obtain ⟨u, rest, hrest⟩ := List.exists_cons_of_ne_nil (List.ne_nil_of_mem hmem)
    have hlate : ¬ timevalDiff .long64 (m.q.timer u).timeout now ≤ 0 := by
      have hstop := List.head?_dropWhile_not
        (fun t => decide (timevalDiff .long64 (m.q.timer t).timeout now ≤ 0)) m.q.tq
      dsimp only [Timers.takeDue] at hrest
      rw [hrest] at hstop
      simpa using hstop
    have hu : micros now + 1000 ≤ micros (deadline m.q u) := by
      rw [exact_nonpos] at hlate
      exact Int.not_lt.1 hlate
    have hordered := (h.takeDue now).ordered rfl
    rw [hrest] at hmem hordered
    rcases List.mem_cons.1 hmem with rfl | hmem
    · omega
    · have hbefore : micros (deadline m.q u) < micros (deadline m.q t) + 1000 :=
        (List.pairwise_cons.1 hordered).1 t hmem
      omega

end Due

section Turns

variable {a : Arch} {m : Timers} {act : Handlers σ} {x : σ × Timers} {t : TimerId} {rest : List TimerId}

def taken (r : Report) (t : TimerId) : Bool := r.calls.any fun c => takes c t

end Turns

/-- What one call of timer_timeout does. -/
structure Expires (act : Handlers σ) (now : Timeval) (x : σ × Timers) : Prop where
  /-- The batch holds what was taken off the main queue. -/
  moved : ∀ t, t ∈ (x.2.takeDue .long64 now).q.exptq ↔ t ∈ x.2.q.tq ∧ t ∉ (x.2.takeDue .long64 now).q.tq
  complete : ∀ t ∈ x.2.q.tq, micros (deadline x.2.q t) ≤ micros now →
    t ∈ (x.2.takeDue .long64 now).q.exptq
  exact : ∀ t ∈ (x.2.takeDue .long64 now).q.exptq, micros (deadline x.2.q t) < micros now + 1000
  /-- A timer of the batch fires unless an earlier handler of the batch has removed
  it or set it anew. -/
  fires : ∀ t ∈ (x.2.takeDue .long64 now).q.exptq,
    Fate taken (x.2.takeDue .long64 now).q.exptq (timerTimeout .long64 act now x).2 t
  once : ((timerTimeout .long64 act now x).2.map Prod.fst).Nodup
  /-- Nothing else fires. -/
  only : ∀ y ∈ (timerTimeout .long64 act now x).2, y.1 ∈ (x.2.takeDue .long64 now).q.exptq ∧
    y.2.handler ≠ none
  /-- The second loop is over, and has ended on its own. -/
  ends : batch (timerTimeout .long64 act now x).1 = [] ∧
    ∀ n, (x.2.takeDue .long64 now).q.exptq.length ≤ n →
    Lib.Drain.drain batch (turn .long64 act) n (x.1, x.2.takeDue .long64 now) =
      timerTimeout .long64 act now x

def rearm : Handlers Unit := fun t w _ =>
  (w, [.setTimeout ⟨0, 0⟩ t 0, .remove .rtLogTimer, .remove .ownHelloTimer])

end Aodv.TimerExpiry
