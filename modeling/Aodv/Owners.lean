import Aodv.Moves

namespace Aodv.Owners

/-- The states between two events, and those in a batch of expired timers after
the first n handlers of it. -/
inductive Moment (e : Env) : Daemon → Prop
  | between {s : Daemon} (h : Reachable e s) : Moment e s
  | batch {s : Daemon} (h : Reachable e s) (n : Nat) :
      Moment e (drain e n (takeDue e.arch (e.clock s.tick) s.tock))

section Moments

variable {e : Env} {s : Daemon}

theorem Moment.wellFormed (h : Moment e s) : WellFormed s := by
  cases h with
  | between h => exact (Reachable.resting h).wellFormed
  | @batch s₀ h n =>
      have hrest := Reachable.resting h
      have htake := wellFormed_takeDue e.arch (e.clock s₀.tick)
        ((Kept.tock s₀).wellFormed hrest.wellFormed) hrest.batch
      exact (drain_keeps (I := fun _ => True) (fun _ _ _ => trivial) n htake trivial).1

/-- The batch of an event runs through these moments, and ends. -/
theorem age_moment (h : Reachable e s) (ht : s.timers.tq ≠ []) :
    step e s .age = drain e (takeDue e.arch (e.clock s.tick) s.tock).timers.exptq.length
      (takeDue e.arch (e.clock s.tick) s.tock) ∧ (step e s .age).timers.exptq = [] := by
  refine ⟨?_, (step_moves (Reachable.resting h) .age).2.batch⟩
  change timerAgeQueue e s = _
  rw [timerAgeQueue]
  exact if_neg ht

end Moments

/-- A timer that is in a list is a static one, or its object is in use. -/
theorem timer_owned {e : Env} {s : Daemon} (h : Moment e s) (t : TimerId)
    (ht : t ∈ s.timers.tq ∨ t ∈ s.timers.exptq) : Owns s t :=
  h.wellFormed.owned t ht

/-- A target whose clock goes on by ten seconds at every call. -/
def ticking : Env := { plain with clock := fun n => ⟨10 * n, 0⟩ }

def distant : Packet :=
  .of (.rrep ⟨false, false, 0, 1, 0x0900000a, 7, 0x0800000a, 6000⟩) 0x0200000a 0x0100000a 5
    (fits_rrep _)

def learned : Daemon := step ticking (init ticking 0x0100000a 0xff00000a 2) (.recv distant)

/-- Both have run out, and the first of the two handlers has returned. -/
theorem timer_owned_halfWay :
    Owns (drain ticking 1 (takeDue ticking.arch (ticking.clock learned.tick) learned.tock))
      (.rtTimer 1) :=
  timer_owned (.batch ⟨0x0100000a, 0xff00000a, 2, [.recv distant], rfl⟩ 1) (.rtTimer 1)
    (by decide +kernel)

end Aodv.Owners
