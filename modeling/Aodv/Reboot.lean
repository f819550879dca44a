import Aodv.Events

namespace Aodv.Reboot

/-- While RREPs are suppressed, the reboot timer is pending, and when it runs
out the suppression is over. -/
def SuppressionEnds (e : Env) (s : Daemon) : Prop :=
  s.waitOnReboot ≠ 0 → Pending s.timers .worbTimer ∧ (fire e s .worbTimer).waitOnReboot = 0

theorem reboot_reachable {e : Env} {s : Daemon} (h : Reachable e s) :
    s.waitOnReboot = 1 ∧ ¬ Pending s.timers .worbTimer := by
  obtain ⟨hs, _, hreboot⟩ := Reachable.steps (I := fun s => s.waitOnReboot = 1)
    (fun _ _ _ => rfl) (fun _ _ _ _ hI => hI)
    (fun ev s s' hs hI hstep => (coarse_sound hstep hs).reboot.trans hI) h
  refine ⟨hreboot, fun hp => ?_⟩
  -- a pending timer has a handler, and nothing gives the reboot timer one
  exact hs.armed .worbTimer hp (hs.fits .worbTimer trivial)

theorem suppression_never_ends (e : Env) (ipaddr broadcast : Addr) (ifindex : Int)
    (es : List Event) : ¬ SuppressionEnds e (run e (init e ipaddr broadcast ifindex) es) := by
  obtain ⟨hreboot, hidle⟩ := reboot_reachable (e := e) ⟨ipaddr, broadcast, ifindex, es, rfl⟩
  intro hends
  have hon : (run e (init e ipaddr broadcast ifindex) es).waitOnReboot ≠ 0 := by
    rw [hreboot]
    decide
  exact hidle (hends hon).1

/-- The state in which the main loop starts. -/
theorem suppression_at_start :
    ¬ ∀ s, Reachable plain s → SuppressionEnds plain s := by
  intro hall
  have hends := hall (init plain 0x0100000a 0xff00000a 2) ⟨_, _, _, [], rfl⟩
  have hpending := (hends (by decide)).1
  revert hpending
  decide

end Aodv.Reboot
