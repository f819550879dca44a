import Aodv.HashTable
import Aodv.OwnRoute
import Aodv.TimerSteps

namespace Aodv.Acknowledged

open Lib.Bytes HashTable TimerSteps Requests Relation

def Inland (s : Daemon) : Prop := ∀ p, Linked s.rtTbl p → (s.rt p).flags.inetDest = false

section Moves

variable {e : Env} {ev : Event} {s s' : Daemon}

theorem Inland.same (h : Inland s) (hl : ∀ p, Linked s'.rtTbl p → Linked s.rtTbl p)
    (hf : ∀ p, (s'.rt p).flags.inetDest = (s.rt p).flags.inetDest) : Inland s' :=
  fun p hp => (hf p).trans (h p (hl p hp))

theorem inetDest_invalidate (p q : Ptr) :
    ((rtTableInvalidate e s p).rt q).flags.inetDest = (s.rt q).flags.inetDest := by
  by_cases hq : q = p
  · subst q
    rw [(rt_invalidate_self e s p).2.1]
  · rw [rt_invalidate_ne e s hq]

theorem inetDest_slide (h : Slide e s s') (p : Ptr) :
    (s'.rt p).flags.inetDest = (s.rt p).flags.inetDest := by
  cases h with
  | idle h => exact (h.rt p).inetDest
  | down => exact inetDest_invalidate _ p
  | repair =>
      refine (inetDest_invalidate _ p).trans ?_
      exact field_setRt (fun r => r.flags.inetDest) s (by rfl) p

theorem inetDest_slides (h : ReflTransGen (Slide e) s s') (p : Ptr) :
    (s'.rt p).flags.inetDest = (s.rt p).flags.inetDest := by
  induction h with
  | refl => rfl
  | tail _ h ih => exact (inetDest_slide h p).trans ih

theorem inetDest_updateBegin (p : Ptr) (next : Addr) (hops lifetime : U32) (state : RtState)
    (flags : RtFlags) :
    (updateBegin e s p next hops lifetime state flags).2.inetDest = flags.inetDest := by
  rw [updateBegin]
  dsimp only
  split
  · dsimp only
    split <;> rfl
  · split <;> rfl

theorem inetDest_update (hs : WellFormed s) {p : Ptr} (hp : Linked s.rtTbl p) (next : Addr)
    (hops seqno lifetime : U32) (state : RtState) (q : Ptr) :
    ((rtTableUpdate e s p next hops seqno lifetime state (s.rt p).flags).rt q).flags.inetDest =
      (s.rt q).flags.inetDest := by
  obtain ⟨s₁, f, -, hf, hrt, -, -, -, hslides, heq⟩ :=
    update_parts e hs hp next hops seqno lifetime state (s.rt p).flags
  rw [heq, rt_updateFinish]
  split
  next hq =>
    rw [hq]
    change f.inetDest = _
    rw [hf, inetDest_updateBegin]
  · rw [inetDest_slides hslides q, hrt]

theorem Inland.move (h : Inland s) (hs : WellFormed s) (hm : Move e ev s s') : Inland s' := by
  cases hm with
  | slide hm => exact h.same (fun p => (slide_linked hm p).1) (inetDest_slide hm)
  | @updateTimeout p lifetime hl hp =>
      have hlinked := (kept_updateTimeout e lifetime hp).keys.linked
      exact h.same (fun q => (hlinked q).1) fun q => by rw [rt_updateTimeout]
  | helloArm | helloMark | rerrSeqno =>
      exact h.same (fun _ => id) fun q => field_setRt (fun r => r.flags.inetDest) _ (by rfl) q
  | @repairTimeout p hp hr =>
      have hlinked := (kept_localRepairTimeout e hp).keys.linked
      apply h.same (fun q => (hlinked q).1)
      intro q
      rw [rt_repairTimeout]
      split
      next hq => rw [hq]
      · rfl
  | @delete p hp hh =>
      intro q hq
      obtain ⟨hold, hne⟩ := (linked_delete e s p q).1 hq
      rw [rt_delete e s hne]
      exact h q hold
  | @insert src dest next hops seqno lifetime state hl =>
      obtain hi | ⟨hnew, hi⟩ := rtTableInsert_cases e s dest next hops seqno lifetime state .zero
      · rw [hi]
        exact h
      · rw [hi]
        let s₀ := s.observe (.rtInsert dest next hops seqno lifetime state .zero)
        intro p hp
        rw [rt_insertEntry]
        rcases (linked_insertEntry e s₀ _ hops lifetime p).1 hp with rfl | hold
        · rw [rt_linkEntry_self]
          rfl
        · have hne : p ≠ s₀.brk := by
            rintro rfl
            exact hs.brk_not_linked hold
          rw [rt_linkEntry_ne s₀ _ hne]
          exact h p hold
  | @update p src next hops seqno lifetime hp hl =>
      have hlinked := linked_update e hp next hops seqno lifetime .valid (s.rt p).flags
      exact h.same (fun q => (hlinked q).1) (inetDest_update hs hp next hops seqno lifetime .valid)
  | expireIdle | seekNew | seekFail | repairStart => exact h.same (fun _ => id) fun _ => rfl

end Moves

theorem Reachable.inland {e : Env} {s : Daemon} (h : Reachable e s) : Inland s :=
  (Reachable.moves (C := fun _ => True) (fun _ _ _ => id) (fun _ _ _ _ hp => by
    obtain ⟨i, hp⟩ := hp
    exact absurd hp List.not_mem_nil) (fun _ _ _ hs _ hi hm => hi.move hs hm) h trivial).2

/-- What neighbor_add is for: the sender n is a neighbour, and an entry that was
VALID has ACTIVE_ROUTE_TIMEOUT left, less than a millisecond short of it, at a
reading of the clock that the call made. -/
structure Refreshed (e : Env) (n : Addr) (s s' : Daemon) (p : Ptr) : Prop where
  linked : Linked s'.rtTbl p
  dest : (s'.rt p).destAddr = n
  valid : (s'.rt p).state = .valid
  hopcnt : (s'.rt p).hopcnt = 1
  nextHop : (s'.rt p).nextHop = n
  deadline : Linked s.rtTbl p → (s.rt p).state = .valid → ∃ k, s.tick ≤ k ∧ k < s'.tick ∧
    micros (e.clock k) + (activeRouteTimeout - 1) * 1000 < micros (deadline s'.timers (.rtTimer p))

def Readable (a : Arch) (t : Timeval) : Prop :=
  a = .long32 → 0 ≤ t.tvUsec ∧ t.tvUsec < 1000000 ∧ FitsLong t.tvSec ∧ FitsLong (t.tvSec + 4)

instance (a : Arch) (t : Timeval) : Decidable (Readable a t) := inferInstanceAs (Decidable (_ → _))

/-- The deadline is at least a millisecond short of a refresh, and the difference
that is to show this is not negative. -/
def Misread (a : Arch) (now t : Timeval) : Prop :=
  micros t + 1000 ≤ micros now + activeRouteTimeout * 1000 ∧
    0 ≤ timevalDiff a t (timevalAddMsec a now activeRouteTimeout)

instance (a : Arch) (now t : Timeval) : Decidable (Misread a now t) :=
  inferInstanceAs (Decidable (_ ∧ _))

/-- No reading of the clock in neighbor_add leads to a time that a long cannot hold,
or to a VALID entry for the sender whose deadline is misread. -/
structure Timely (e : Env) (s : Daemon) (n : Addr) : Prop where
  clock : ∀ k, s.tick ≤ k → k < (neighborAdd e s n).tick → Readable e.arch (e.clock k)
  deadline : ∀ k p, s.tick ≤ k → k < (neighborAdd e s n).tick → Linked s.rtTbl p →
    (s.rt p).destAddr = n → (s.rt p).state = .valid →
      ¬ Misread e.arch (e.clock k) (deadline s.timers (.rtTimer p))

theorem not_misread_exact (now t : Timeval) : ¬ Misread .long64 now t := by
  rintro ⟨hsooner, hdiff⟩
  refine absurd (exact_neg.2 ?_) (Int.not_lt.2 hdiff)
  rw [micros_addMsec]
  exact hsooner

theorem timely_exact {e : Env} (h64 : e.arch = .long64) (s : Daemon) (n : Addr) : Timely e s n := by
  refine ⟨fun k _ _ h32 => ?_, fun k p _ _ _ _ _ => ?_⟩
  · rw [h64] at h32
    cases h32
  · rw [h64]
    exact not_misread_exact _ _

theorem micros_refresh {a : Arch} {t : Timeval} (h : Readable a t) :
    micros (timeoutAfter a t activeRouteTimeout) = micros t + activeRouteTimeout * 1000 := by
  cases a with
  | long64 => exact micros_addMsec t _
  | long32 =>
      obtain ⟨h0, hmax, hsec, hroom⟩ := h rfl
      have hms : Arch.signed .long32 (activeRouteTimeout * 1000) = 3000000 := by decide
      have husec : Arch.signed .long32 (t.tvUsec + 3000000) = t.tvUsec + 3000000 :=
        signed_of_fits fun _ => ⟨by omega, by omega⟩
      have hdiv := Int.mul_tdiv_add_tmod (t.tvUsec + 3000000) 1000000
      have hcarry : (t.tvUsec + 3000000).tdiv 1000000 = (t.tvUsec + 3000000) / 1000000 :=
        Int.tdiv_eq_ediv_of_nonneg (by omega)
      have hfits : Arch.signed .long32 (t.tvSec + (t.tvUsec + 3000000).tdiv 1000000) =
          t.tvSec + (t.tvUsec + 3000000).tdiv 1000000 := by
        refine signed_of_fits fun _ => ⟨?_, ?_⟩
        · exact Int.le_trans hsec.1 (by omega)
        · exact Int.lt_of_le_of_lt (by omega) hroom.2
      have hthree : activeRouteTimeout * 1000 = 3000000 := by decide
      simp only [micros, timeoutAfter, hms, husec, hfits]
      omega

/-- The entry for n carries the mark of a unidirectional link. -/
def Marked (s : Daemon) (n : Addr) : Prop :=
  ∃ p, Linked s.rtTbl p ∧ (s.rt p).destAddr = n ∧ (s.rt p).flags.unidir = true

section Calls

variable {e : Env} {s : Daemon} {n : Addr} {p : Ptr}

theorem updateTimeout_deadline (hv : (s.rt p).state = .valid)
    (hclock : ∀ k, s.tick ≤ k → k < (rtTableUpdateTimeout e s p (u32 activeRouteTimeout)).tick →
      Readable e.arch (e.clock k) ∧ ¬ Misread e.arch (e.clock k) (deadline s.timers (.rtTimer p))) :
    ∃ k, s.tick ≤ k ∧ k < (rtTableUpdateTimeout e s p (u32 activeRouteTimeout)).tick ∧
      micros (e.clock k) + (activeRouteTimeout - 1) * 1000 < micros (deadline
        (rtTableUpdateTimeout e s p (u32 activeRouteTimeout)).timers (.rtTimer p)) := by
  have hlong : e.arch.long (u32 activeRouteTimeout) = activeRouteTimeout := by
    cases e.arch <;> rfl
  rw [rtTableUpdateTimeout, if_pos hv] at hclock ⊢
  dsimp only at hclock ⊢
  split at hclock
  next hlate =>
    obtain ⟨hread, -⟩ := hclock (s.tick + 1) (Nat.le_succ _) (Nat.lt_succ_self _)
    refine ⟨s.tick + 1, Nat.le_succ _, ?_, ?_⟩
    · rw [if_pos hlate]
      exact Nat.lt_succ_self _
    · rw [if_pos hlate]
      change _ < micros (deadline (timerSetTimeout e.arch (e.clock (s.tick + 1)) s.timers _ _) _)
      rw [deadline_timerSetTimeout, if_pos rfl, hlong, if_neg (by decide), micros_refresh hread]
      omega
  next hlate =>
    obtain ⟨-, hright⟩ := hclock s.tick (Nat.le_refl _) (Nat.lt_succ_self _)
    refine ⟨s.tick, Nat.le_refl _, ?_, ?_⟩
    · rw [if_neg hlate]
      exact Nat.lt_succ_self _
    · rw [if_neg hlate]
      change _ < micros (deadline s.timers (.rtTimer p))
      by_contra hsooner
      exact hright ⟨by omega, Int.not_lt.1 hlate⟩

theorem Refreshed.helloUpdate {s' : Daemon} (h : Refreshed e n s s' p) (now : Timeval) (time : Int) :
    Refreshed e n s (helloUpdateTimeout e s' p now time) p := by
  have hrt : (helloUpdateTimeout e s' p now time).rt p = { s'.rt p with lastHelloTime := now } :=
    rt_setRt_self _ _ _
  refine ⟨h.linked, ?_, ?_, ?_, ?_, fun hp hv => ?_⟩
  · rw [hrt]
    exact h.dest
  · rw [hrt]
    exact h.valid
  · rw [hrt]
    exact h.hopcnt
  · rw [hrt]
    exact h.nextHop
  · obtain ⟨k, hk, hlt, hd⟩ := h.deadline hp hv
    refine ⟨k, hk, Nat.lt_succ_of_lt hlt, ?_⟩
    change _ < micros (Aodv.deadline (timerSetTimeout _ _ s'.timers (.helloTimer p) _) _)
    rw [deadline_timerSetTimeout, if_neg (by simp)]
    exact hd

theorem Refreshed.refresh {s' : Daemon} (h : Refreshed e n s s' p) (now : Timeval) :
    Refreshed e n s (neighborRefresh e s' p now) p := by
  rw [neighborRefresh]
  split
  · exact h.helloUpdate _ _
  · exact h

theorem tick_addRoute (s : Daemon) (dest next : Addr) (metric : Int) (lifetime : U32)
    (flags : RtFlags) (ifindex : Int) :
    s.tick ≤ (nlSendAddRouteMsg e s dest next metric lifetime flags ifindex).tick :=
  tick_nlSendBoth e s _ _

theorem tick_updateBegin (p : Ptr) (next : Addr) (hops lifetime : U32) (state : RtState)
    (flags : RtFlags) : s.tick ≤ (updateBegin e s p next hops lifetime state flags).1.tick := by
  rw [updateBegin]
  dsimp only
  split
  · exact tick_addRoute { s with rtTbl := { s.rtTbl with numActive := s.rtTbl.numActive + 1 } }
      _ _ _ _ _ _
  · split
    · exact tick_addRoute s _ _ _ _ _ _
    · exact Nat.le_refl _

theorem routeFound_rest (p : Ptr) : (routeFound s p).tick = s.tick ∧
    ∀ t, deadline (routeFound s p).timers t = deadline s.timers t := by
  rw [routeFound]
  split
  · cases seekListCheck s (s.rt p).destAddr with
    | none => exact ⟨rfl, fun _ => rfl⟩
    | some q => exact ⟨rfl, deadline_timerRemove _ _⟩
  · exact ⟨rfl, fun _ => rfl⟩

/-- An update over one hop, of an entry that was VALID, refreshes its timer. -/
theorem update_deadline (hs : WellFormed s) (hi : Inland s) (hp : Linked s.rtTbl p)
    (hv : (s.rt p).state = .valid) (seqno : U32)
    (hclock : ∀ k, s.tick ≤ k → k < (rtTableUpdate e s p n 1 seqno (u32 activeRouteTimeout) .valid
      (s.rt p).flags).tick → Readable e.arch (e.clock k) ∧
        ¬ Misread e.arch (e.clock k) (deadline s.timers (.rtTimer p))) :
    ∃ k, s.tick ≤ k ∧
      k < (rtTableUpdate e s p n 1 seqno (u32 activeRouteTimeout) .valid (s.rt p).flags).tick ∧
      micros (e.clock k) + (activeRouteTimeout - 1) * 1000 < micros (deadline (rtTableUpdate e s p n 1
        seqno (u32 activeRouteTimeout) .valid (s.rt p).flags).timers (.rtTimer p)) := by
  obtain ⟨s₁, f, hbegin, hf, hrt, htimers, -, -, -, heq⟩ :=
    update_parts e hs hp n 1 seqno (u32 activeRouteTimeout) .valid (s.rt p).flags
  have hinland : ¬ f.inetDest = true := by
    rw [hf, inetDest_updateBegin, hi p hp]
    exact Bool.false_ne_true
  have hstay : ¬ ((1 : U32) < 1 ∧ (s₁.rt p).hopcnt = 1) := fun h => absurd h.1 (by decide)
  have htick : s.tick ≤ s₁.tick := by
    rw [hbegin]
    exact tick_updateBegin (s := s.observe _) p n 1 (u32 activeRouteTimeout) .valid (s.rt p).flags
  have hvalid : ((writeUpdate s₁ p n 1 seqno f).rt p).state = .valid := by
    have hself : (writeUpdate s₁ p n 1 seqno f).rt p = { s₁.rt p with
        flags := f, destSeqno := seqno, nextHop := n, hopcnt := (1 : U32).setWidth 8 } :=
      rt_setRt_self s₁ p _
    rw [hself, hrt]
    exact hv
  have hold : deadline (writeUpdate s₁ p n 1 seqno f).timers (.rtTimer p) =
      deadline s.timers (.rtTimer p) := by
    rw [← htimers]
    exact deadline_setHandler _ _ _ _
  obtain ⟨hsame, hdead⟩ := routeFound_rest (s := setState (rtTableUpdateTimeout e
    (writeUpdate s₁ p n 1 seqno f) p (u32 activeRouteTimeout)) p .valid) p
  rw [heq, updateBreak_same e hstay, updateFinish, if_neg hinland] at hclock ⊢
  obtain ⟨k, hk, hlt, hd⟩ := updateTimeout_deadline (e := e) hvalid fun k hk hlt => by
    rw [hold]
    exact hclock k (Nat.le_trans htick hk) (hsame ▸ hlt)
  refine ⟨k, Nat.le_trans htick hk, ?_, ?_⟩
  · rw [hsame]
    exact hlt
  · rw [hdead]
    exact hd

theorem refreshed_update (hs : WellFormed s) (hi : Inland s) (hp : Linked s.rtTbl p)
    (hd : (s.rt p).destAddr = n) (seqno : U32)
    (hclock : ∀ k, s.tick ≤ k → k < (rtTableUpdate e s p n 1 seqno (u32 activeRouteTimeout) .valid
      (s.rt p).flags).tick → Readable e.arch (e.clock k) ∧ ((s.rt p).state = .valid →
        ¬ Misread e.arch (e.clock k) (deadline s.timers (.rtTimer p)))) :
    Refreshed e n s (rtTableUpdate e s p n 1 seqno (u32 activeRouteTimeout) .valid (s.rt p).flags)
      p := by
  obtain ⟨hhop, hnext, -, hstate⟩ := rt_update_self e s p n 1 seqno (u32 activeRouteTimeout) .valid
    (s.rt p).flags
  obtain ⟨s₁, hkept, heq⟩ := update_kept e s hp n 1 seqno (u32 activeRouteTimeout) .valid (s.rt p).flags
  refine ⟨(linked_update e hp _ _ _ _ _ _ p).2 hp, ?_, hstate, hhop, hnext, fun _ hv => ?_⟩
  · rw [heq, rt_routeFound, ← hd]
    exact hkept.keys.destAddr p
  · exact update_deadline hs hi hp hv seqno fun k hk hlt =>
      ⟨(hclock k hk hlt).1, (hclock k hk hlt).2 hv⟩

theorem tick_neighborRefresh (s : Daemon) (p : Ptr) (now : Timeval) :
    s.tick ≤ (neighborRefresh e s p now).tick := by
  rw [neighborRefresh]
  split
  · exact Nat.le_succ _
  · exact Nat.le_refl _

theorem unmarked_refreshed (hs : WellFormed s) (hi : Inland s) (hfull : ¬ Full s.rtTbl)
    (hm : ¬ Marked s n) (ht : Timely e s n) : ∃ p, Refreshed e n s (neighborAdd e s n) p := by
  have htock : ∀ p s', Refreshed e n s.tock s' p → Refreshed e n s s' p := by
    intro p s' h
    refine ⟨h.linked, h.dest, h.valid, h.hopcnt, h.nextHop, fun hp hv => ?_⟩
    obtain ⟨k, hk, hlt, hd⟩ := h.deadline hp hv
    exact ⟨k, Nat.le_of_succ_le hk, hlt, hd⟩
  cases hc : rtTableCheck s.tock.rtTbl n with
  | none =>
      rw [neighborAdd]
      dsimp only
      rw [hc]
      dsimp only
      have habs : Absent n s.tock := by
        intro p hp hd
        have hfound := (rtTableCheck_eq_some hs.table hfull).2 ⟨hp, hd⟩
        change rtTableCheck s.rtTbl n = none at hc
        rw [hc] at hfound
        cases hfound
      obtain ⟨s₁, hi⟩ := insert_absent (e := e) habs n 1 0 (u32 activeRouteTimeout) .valid .zero
      obtain ⟨hp, hr⟩ := insert_some e hi
      rw [hi]
      refine ⟨s.tock.brk, Refreshed.refresh ⟨hp, ?_, ?_, ?_, ?_, fun hold _ => ?_⟩ _⟩
      · rw [hr]
        rfl
      · rw [hr]
        rfl
      · rw [hr]
        rfl
      · rw [hr]
        rfl
      · exact absurd hold hs.brk_not_linked
  | some p =>
      obtain ⟨hp, hd⟩ := rtTableCheck_some hc
      have hclean : ¬ (s.tock.rt p).flags.unidir = true := fun hu => hm ⟨p, hp, hd, hu⟩
      have hadd : neighborAdd e s n = neighborRefresh e (rtTableUpdate e s.tock p n 1
          (s.tock.rt p).destSeqno (u32 activeRouteTimeout) .valid (s.tock.rt p).flags) p
            (e.clock s.tick) := by
        rw [neighborAdd]
        dsimp only
        rw [hc]
        exact if_neg hclean
      rw [hadd]
      refine ⟨p, htock p _ (Refreshed.refresh ?_ _)⟩
      refine refreshed_update (s := s.tock) ((Kept.tock s).wellFormed hs) hi hp hd _ fun k hk hlt => ?_
      have hlt' : k < (neighborAdd e s n).tick := by
        rw [hadd]
        exact Nat.lt_of_lt_of_le hlt (tick_neighborRefresh _ p _)
      exact ⟨ht.clock k (Nat.le_of_succ_le hk) hlt',
        ht.deadline k p (Nat.le_of_succ_le hk) hlt' hp hd⟩

theorem marked_ignored (hs : WellFormed s) (hfull : ¬ Full s.rtTbl) (hm : Marked s n) :
    neighborAdd e s n = s.tock := by
  obtain ⟨p, hp, hd, hu⟩ := hm
  have hc : rtTableCheck s.tock.rtTbl n = some p := (rtTableCheck_eq_some hs.table hfull).2 ⟨hp, hd⟩
  rw [neighborAdd]
  dsimp only
  rw [hc]
  exact if_pos hu

/-- At any moment of a run, whatever was acknowledged before: a datagram of n
refreshes its entry unless the entry is marked, and then the datagram does nothing. -/
theorem neighbor_refreshed (h : Reachable e s) (n : Addr) (hfull : ¬ Full s.rtTbl) :
    (¬ Marked s n → Timely e s n → ∃ p, Refreshed e n s (neighborAdd e s n) p) ∧
      (Marked s n → neighborAdd e s n = s.tock) := by
  have hs := (Reachable.resting h).wellFormed
  exact ⟨unmarked_refreshed hs (Reachable.inland h) hfull, marked_ignored hs hfull⟩

end Calls

/-- An RREP_ACK of n that is processed. -/
def acks (own n : Addr) : Event → Bool
  | .recv pkt => received own pkt && decide (pkt.src = n ∧ pkt.buf 0 = aodvRrepAck)
  | _ => false

/-- An RREP that asks n for an acknowledgement. -/
def asks (n : Addr) : Obs → Bool
  | .socketSend (.rrep m) dest _ _ _ => m.a && decide (dest = n)
  | .socketSend (.queued bytes) dest _ _ _ =>
      decide (dest = n ∧ bytes[0]? = some aodvRrep) && (bytes.getD 1 0).getLsbD 1
  | _ => false

def start : Daemon := init plain 0x0100000a 0xff00000a 2

def asked : List Event :=
  [.recv (.of (.rreq ⟨false, false, false, false, false, 0, 1, 0x0900000a, 0, 0x0200000a, 1⟩)
      0x0200000a aodvBroadcast 5 (fits_rreq _)),
    .recv (.of (.rrep ⟨false, false, 0, 0, 0x0900000a, 7, 0x0200000a, 6000⟩)
      0x0300000a 0x0100000a 30 (fits_rrep _))]

def ackOf : Packet := .of .rrepAck 0x0200000a 0x0100000a 1 fits_rrepAck

def acknowledged : Daemon := run plain start (asked ++ [.recv ackOf])

def silent : Daemon := run plain start (asked ++ .recv ackOf :: [.fire (.rtTimer 0)])

def slow : Env := { plain with clock := fun n => ⟨n, 0⟩ }

def heard : Daemon := run slow (init slow 0x0100000a 0xff00000a 2) (asked ++ [.recv ackOf])

def back : List Event :=
  [.fire (.rtTimer 0), .fire (.rtTimer 0),
    .recv (.of (.rreq ⟨false, false, false, false, false, 0, 2, 0x0900000a, 0, 0x0200000a, 2⟩)
      0x0200000a aodvBroadcast 5 (fits_rreq _))]

def returned : Daemon := run slow (init slow 0x0100000a 0xff00000a 2) (asked ++ [.recv ackOf] ++ back)

theorem reachable_returned : Reachable slow returned := ⟨_, _, _, _, rfl⟩

theorem timely_returned : Timely slow returned 0x0200000a := by
  have htick : (neighborAdd slow returned 0x0200000a).tick ≤ 60 := by decide +kernel
  have hread : ∀ k ∈ List.range 60, Readable .long32 (slow.clock k) ∧
      ∀ p ∈ entries returned.rtTbl, returned.tick ≤ k →
        ¬ Misread .long32 (slow.clock k) (deadline returned.timers (.rtTimer p)) := by decide +kernel
  refine ⟨fun k _ hlt => ?_, fun k p hk hlt hp _ _ => ?_⟩
  · exact (hread k (List.mem_range.2 (Nat.lt_of_lt_of_le hlt htick))).1
  · exact (hread k (List.mem_range.2 (Nat.lt_of_lt_of_le hlt htick))).2 p ((mem_entries _ p).2 hp) hk

/-- The new entry is VALID and not marked, and stays so. -/
theorem neighbor_refreshed_returned :
    acks heard.host.ipaddr 0x0200000a (.recv ackOf) = true ∧
      (∀ o ∈ since heard returned, asks 0x0200000a o = false) ∧
      (∃ p ∈ entries returned.rtTbl, (returned.rt p).destAddr = 0x0200000a ∧
        (returned.rt p).state = .valid) ∧
      ∃ p, Refreshed slow 0x0200000a returned (neighborAdd slow returned 0x0200000a) p := by
  have hclean : ∀ p ∈ entries returned.rtTbl, (returned.rt p).destAddr = 0x0200000a →
      (returned.rt p).flags.unidir = false := by decide +kernel
  refine ⟨by decide +kernel, by decide +kernel, by decide +kernel, ?_⟩
  refine (neighbor_refreshed reachable_returned 0x0200000a (by decide +kernel)).1 ?_ timely_returned
  rintro ⟨p, hp, hd, hu⟩
  rw [hclean p ((mem_entries _ p).2 hp) hd] at hu
  cases hu

/-- A neighbour that has acknowledged is no longer refreshed. -/
theorem mark_sticks : ¬ ∀ (es₁ es₂ : List Event) (ack : Packet) (n : Addr),
    acks start.host.ipaddr n (.recv ack) = true →
    (∀ o ∈ since (run plain start (es₁ ++ [.recv ack])) (run plain start (es₁ ++ .recv ack :: es₂)),
      asks n o = false) →
    ∃ p, Refreshed plain n (run plain start (es₁ ++ .recv ack :: es₂))
      (neighborAdd plain (run plain start (es₁ ++ .recv ack :: es₂)) n) p := by
  intro hall
  have hquiet : ∀ o ∈ since acknowledged silent, asks 0x0200000a o = false := by decide +kernel
  have hstuck : ∀ p ∈ entries (neighborAdd plain silent 0x0200000a).rtTbl,
      ((neighborAdd plain silent 0x0200000a).rt p).destAddr = 0x0200000a →
        ((neighborAdd plain silent 0x0200000a).rt p).state = .invalid := by decide +kernel
  obtain ⟨p, hp⟩ := hall asked [.fire (.rtTimer 0)] ackOf 0x0200000a (by decide +kernel) hquiet
  have hinvalid := hstuck p ((mem_entries _ p).2 hp.linked) hp.dest
  have hvalid := hp.valid
  change ((neighborAdd plain silent 0x0200000a).rt p).state = .valid at hvalid
  rw [hinvalid] at hvalid
  cases hvalid

end Aodv.Acknowledged
