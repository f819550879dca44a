import Aodv.Routes

namespace Aodv.Lifetime

open Lib.Bytes Relation

/-- The timer of an entry runs at least as long as the lifetime but for a
millisecond, and longer only with the deadline that it had before. -/
structure Lives (now : Timeval) (lifetime : U32) (q : TimerQueue) (p : Ptr)
    (before : Option Timeval) : Prop where
  pending : Pending q (.rtTimer p)
  atLeast : micros now + lifetime.toNat * 1000 - 1000 ≤ micros (deadline q (.rtTimer p))
  atMost : micros now + lifetime.toNat * 1000 < micros (deadline q (.rtTimer p)) →
    ∃ t, before = some t ∧ micros t = micros (deadline q (.rtTimer p))

def held (s : Daemon) (p : Ptr) : Option Timeval :=
  match (s.rt p).state with
  | .valid => some (deadline s.timers (.rtTimer p))
  | .invalid => none

def demoted (s : Daemon) (p : Ptr) (hops : U32) : Prop := 1 < hops ∧ (s.rt p).hopcnt = 1

instance (s : Daemon) (p : Ptr) (hops : U32) : Decidable (demoted s p hops) :=
  inferInstanceAs (Decidable (_ ∧ _))

def waitTime (r : RtEntry) : Int := if r.flags.repair then activeRouteTimeout else deletePeriod

/-- The time that an update leaves to the entry is right. An update looks at the
lifetime only while the entry is VALID, which one that was INVALID or is taken
down for its hop count is not. -/
def Settled (now : Timeval) (s : Daemon) (p : Ptr) (hops lifetime : U32) : Prop :=
  let old := micros (deadline s.timers (.rtTimer p))
  let due := micros now + lifetime.toNat * 1000
  let wait := micros now + waitTime (s.rt p) * 1000
  match (s.rt p).state with
  | .invalid => Pending s.timers (.rtTimer p) ∧ due - 1000 ≤ old ∧ old ≤ due
  | .valid =>
      if demoted s p hops then due - 1000 ≤ wait ∧ (wait ≤ due ∨ old = wait)
      else Pending s.timers (.rtTimer p) ∨ old + 1000 ≤ due

theorem deadline_routeFound (s : Daemon) (p : Ptr) (t : TimerId) :
    deadline (routeFound s p).timers t = deadline s.timers t := by
  rw [routeFound]
  split
  · cases seekListCheck s (s.rt p).destAddr with
    | none => rfl
    | some q => exact deadline_timerRemove _ _ _
  · rfl

section Calls

variable {e : Env} {s s' : Daemon} {p : Ptr} {now : Timeval} {lifetime : U32}

structure Still (p : Ptr) (s s' : Daemon) : Prop where
  state : (s'.rt p).state = .invalid
  pending : Pending s'.timers (.rtTimer p) ↔ Pending s.timers (.rtTimer p)
  deadline : deadline s'.timers (.rtTimer p) = deadline s.timers (.rtTimer p)

theorem Still.refl (hi : (s.rt p).state = .invalid) : Still p s s := ⟨hi, Iff.rfl, rfl⟩

theorem Still.trans {s'' : Daemon} (h : Still p s s') (h' : Still p s' s'') : Still p s s'' :=
  ⟨h'.state, h'.pending.trans h.pending, h'.deadline.trans h.deadline⟩

theorem deadline_invalidate (h64 : e.arch = .long64) (hclock : ∀ n, e.clock n = now)
    (hv : (s.rt p).state = .valid)
    (t : TimerId) : deadline (rtTableInvalidate e s p).timers t =
      if t = .rtTimer p then timevalAddMsec .long64 now (waitTime (s.rt p))
      else deadline s.timers t := by
  have hv' : (s.tock.rt p).state = .valid := hv
  have hpos : ¬ (if (s.rt p).flags.repair then activeRouteTimeout else deletePeriod) < 0 := by
    split <;> decide
  rw [rtTableInvalidate]
  simp only [hv', hclock]
  change deadline (timerSetTimeout _ now (setHandler (timerRemove (timerRemove (timerRemove s.timers
    (.rtTimer p)) (.helloTimer p)) (.ackTimer p)) (.rtTimer p) (waitHandler (s.rt p).flags.repair))
    (.rtTimer p) (if (s.rt p).flags.repair then activeRouteTimeout else deletePeriod)) t = _
  rw [deadline_timerSetTimeout, if_neg hpos, deadline_setHandler, deadline_timerRemove,
    deadline_timerRemove, deadline_timerRemove, h64]
  rfl

theorem deadline_invalidate_ne (e : Env) (s : Daemon) {q : Ptr} {t : TimerId} (ht : t ≠ .rtTimer q) :
    deadline (rtTableInvalidate e s q).timers t = deadline s.timers t := by
  cases hv : (s.rt q).state with
  | invalid =>
      rw [invalidate_invalid e s hv]
      rfl
  | valid =>
      obtain ⟨now, htimers⟩ := timers_invalidate e hv
      rw [htimers, deadline_timerSetTimeout, if_neg ht, deadline_setHandler, deadline_timerRemove,
        deadline_timerRemove, deadline_timerRemove]

theorem still_invalidate (hs : WellFormed s) {q : Ptr} (hv : (s.rt q).state = .valid)
    (hi : (s.rt p).state = .invalid) : Still p s (rtTableInvalidate e s q) := by
  have hne : p ≠ q := by
    rintro rfl
    rw [hv] at hi
    cases hi
  constructor
  · rw [rt_invalidate_ne e s hne]
    exact hi
  · rw [pending_invalidate e hs hv]
    simp [hne]
  · exact deadline_invalidate_ne e s (by simpa using hne)

theorem still_lb (h : Lb e s s') (hs : WellFormed s) (hi : (s.rt p).state = .invalid) :
    Still p s s' := by
  cases h with
  | tock | rerrNew | rerrAdd | rerrSend => exact ⟨hi, Iff.rfl, rfl⟩
  | down hp hv => exact still_invalidate hs hv hi
  | @repair q hp hv =>
      have hmark : Still p s (markRepair s q) := by
        refine ⟨?_, Iff.rfl, rfl⟩
        by_cases hq : p = q
        · subst q
          rw [markRepair, rt_setRt_self]
          exact hi
        · rw [markRepair, rt_setRt_ne s _ hq]
          exact hi
      have hvalid : ((markRepair s q).rt q).state = .valid := by
        rw [markRepair, rt_setRt_self]
        exact hv
      exact hmark.trans (still_invalidate ((kept_markRepair s q).wellFormed hs) hvalid hmark.state)
  | @destroy q hp hi' =>
      refine ⟨?_, Iff.rfl, rfl⟩
      by_cases hq : p = q
      · subst q
        rw [precursorListDestroy, rt_setRt_self]
        exact hi
      · rw [precursorListDestroy, rt_setRt_ne s _ hq]
        exact hi

theorem still_lbs (h : ReflTransGen (Lb e) s s') (hs : WellFormed s)
    (hi : (s.rt p).state = .invalid) : Still p s s' := by
  induction h with
  | refl => exact .refl hi
  | tail h' h ih => exact ih.trans (still_lb h ((lb_kept h').wellFormed hs) ih.state)

theorem updateBreak_cleared (hs : WellFormed s) (hp : Linked s.rtTbl p) {hops : U32}
    (hd : demoted s p hops) : ∃ s₁, WellFormed s₁ ∧ Linked s₁.rtTbl p ∧
      (s₁.rt p).state = (s.rt p).state ∧ (s₁.rt p).flags = (s.rt p).flags ∧
      (Pending s₁.timers (.rtTimer p) ↔ Pending s.timers (.rtTimer p)) ∧
      deadline s₁.timers (.rtTimer p) = deadline s.timers (.rtTimer p) ∧
      ReflTransGen (Lb e) (rtTableInvalidate e s₁ p) (updateBreak e s p hops) := by
  let s₀ := s.setRt p { s.rt p with lastHelloTime := ⟨0, 0⟩, helloCnt := 0 }
  let s₁ := { s₀ with timers := timerRemove s.timers (.helloTimer p) }
  have hkept : Kept s s₁ :=
    (Kept.setRt s p { s.rt p with lastHelloTime := ⟨0, 0⟩, helloCnt := 0 } rfl rfl).trans
      (Kept.rearm s₀ _ (.timerRemove _ (.helloTimer p)))
  have hself : s₁.rt p = { s.rt p with lastHelloTime := ⟨0, 0⟩, helloCnt := 0 } := rt_setRt_self s p _
  have hp₁ := (hkept.keys.linked p).2 hp
  refine ⟨s₁, hkept.wellFormed hs, hp₁, by rw [hself], by rw [hself], ?_, ?_, ?_⟩
  · exact (pending_timerRemove _ _ _).trans (and_iff_left (by simp))
  · exact deadline_timerRemove _ _ _
  · have hhop : (s₁.rt p).hopcnt = 1 := by
      rw [hself]
      exact hd.2
    have hrest := lb_linkBreak_rest e hp₁ hhop
    have hbreak : 1 < hops ∧ (s.rt p).hopcnt = 1 := hd
    rw [updateBreak, if_pos hbreak]
    exact hrest

theorem updateBreak_invalid (hs : WellFormed s) (hp : Linked s.rtTbl p) (hops : U32)
    (hi : (s.rt p).state = .invalid) : Still p s (updateBreak e s p hops) := by
  by_cases hd : demoted s p hops
  · obtain ⟨s₁, hw, -, hstate, -, hpend, hdead, hrun⟩ := updateBreak_cleared (e := e) hs hp hd
    rw [invalidate_invalid e s₁ (hstate.trans hi)] at hrun
    have hstill := still_lbs hrun ((Kept.tock s₁).wellFormed hw) (p := p) (hstate.trans hi)
    exact ⟨hstill.state, hstill.pending.trans hpend, hstill.deadline.trans hdead⟩
  · rw [updateBreak_same e hd]
    exact .refl hi

theorem updateBreak_valid (h64 : e.arch = .long64) (hclock : ∀ n, e.clock n = now)
    (hs : WellFormed s) (hp : Linked s.rtTbl p) {hops : U32} (hv : (s.rt p).state = .valid)
    (hd : demoted s p hops) :
    ((updateBreak e s p hops).rt p).state = .invalid ∧
      Pending (updateBreak e s p hops).timers (.rtTimer p) ∧
      deadline (updateBreak e s p hops).timers (.rtTimer p) =
        timevalAddMsec .long64 now (waitTime (s.rt p)) := by
  obtain ⟨s₁, hw, hp₁, hstate, hflags, -, -, hrun⟩ := updateBreak_cleared (e := e) hs hp hd
  have hv₁ := hstate.trans hv
  have hstill := still_lbs hrun ((kept_invalidate e hp₁).wellFormed hw) (state_invalidate e s₁ p)
  refine ⟨hstill.state, ?_, ?_⟩
  · exact hstill.pending.2 ((pending_invalidate e hw hv₁ _).2 (.inl rfl))
  · rw [hstill.deadline, deadline_invalidate h64 hclock hv₁, if_pos rfl, waitTime, waitTime, hflags]

theorem updateFinish_invalid (hi : (s.rt p).state = .invalid) (next : Addr)
    (hops seqno lifetime : U32) (state : RtState) (flags : RtFlags) :
    (Pending (updateFinish e s p next hops seqno lifetime state flags).timers (.rtTimer p) ↔
        Pending s.timers (.rtTimer p)) ∧
      deadline (updateFinish e s p next hops seqno lifetime state flags).timers (.rtTimer p) =
        deadline s.timers (.rtTimer p) := by
  have hstate : ((writeUpdate s p next hops seqno flags).rt p).state = .invalid := by
    change ((s.setRt p _).rt p).state = _
    rw [rt_setRt_self]
    exact hi
  obtain ⟨s₁, hs₁, heq⟩ := updateFinish_eq e (s := s) (p := p) next hops seqno lifetime state flags
  have hsame : s₁ = writeUpdate s p next hops seqno flags := by
    rcases hs₁ with h | h
    · exact h
    · rw [h, updateTimeout_invalid e lifetime hstate]
  rw [heq, pending_routeFound _ _ (by simp), deadline_routeFound, hsame]
  exact ⟨Iff.rfl, deadline_setHandler _ _ _ _⟩

theorem updateFinish_valid (hclock : ∀ n, e.clock n = now) (hs : WellFormed s)
    (hv : (s.rt p).state = .valid) (h64 : e.arch = .long64) (next : Addr)
    (hops seqno lifetime : U32) (state : RtState) {flags : RtFlags}
    (hinet : flags.inetDest = false) :
    let q := (updateFinish e s p next hops seqno lifetime state flags).timers
    let old := deadline s.timers (.rtTimer p)
    if micros old + 1000 ≤ micros now + lifetime.toNat * 1000 then
      Pending q (.rtTimer p) ∧ deadline q (.rtTimer p) = timevalAddMsec .long64 now lifetime.toNat
    else (Pending q (.rtTimer p) ↔ Pending s.timers (.rtTimer p)) ∧ deadline q (.rtTimer p) = old := by
  have hw := (kept_writeUpdate s p next hops seqno flags).wellFormed hs
  let s₁ := writeUpdate s p next hops seqno flags
  have hstate : (s₁.rt p).state = .valid := by
    change ((s.setRt p _).rt p).state = _
    rw [rt_setRt_self]
    exact hv
  have hold : deadline s₁.timers (.rtTimer p) = deadline s.timers (.rtTimer p) :=
    deadline_setHandler _ _ _ _
  have hhandler : (s₁.timers.timer (.rtTimer p)).handler ≠ none := by
    change ((setHandler s.timers (.rtTimer p) .routeExpireTimeout).timer (.rtTimer p)).handler ≠ none
    simp [setHandler]
  have hpos : (0 : Int) ≤ lifetime.toNat := Int.natCast_nonneg _
  have hdue : timevalDiff .long64 (s₁.tock.timer (.rtTimer p)).timeout
      (timevalAddMsec .long64 now lifetime.toNat) < 0 ↔
      micros (deadline s.timers (.rtTimer p)) + 1000 ≤ micros now + lifetime.toNat * 1000 := by
    change timevalDiff .long64 (deadline s₁.timers (.rtTimer p)) _ < 0 ↔ _
    rw [exact_neg, micros_addMsec, hold]
  have hfinish : updateFinish e s p next hops seqno lifetime state flags =
      routeFound (setState (rtTableUpdateTimeout e s₁ p lifetime) p state) p := by
    rw [updateFinish, hinet]
    rfl
  dsimp only
  rw [hfinish, pending_routeFound _ _ (by simp), deadline_routeFound]
  change if _ then Pending (rtTableUpdateTimeout e s₁ p lifetime).timers _ ∧
    deadline (rtTableUpdateTimeout e s₁ p lifetime).timers _ = _ else
    (Pending (rtTableUpdateTimeout e s₁ p lifetime).timers _ ↔ _) ∧
    deadline (rtTableUpdateTimeout e s₁ p lifetime).timers _ = _
  rw [rtTableUpdateTimeout, if_pos hstate]
  dsimp only
  rw [hclock, hclock, h64, Arch.long]
  by_cases hlate : micros (deadline s.timers (.rtTimer p)) + 1000 ≤ micros now + lifetime.toNat * 1000
  · rw [if_pos hlate, if_pos (hdue.2 hlate)]
    dsimp only
    rw [deadline_timerSetTimeout, if_pos rfl, if_neg (Int.not_lt.2 hpos)]
    exact ⟨(pending_timerSetTimeout hw.coherent _ _ _ _).2 (.inr ⟨rfl, hpos, hhandler⟩), rfl⟩
  · rw [if_neg hlate, if_neg fun h => hlate (hdue.1 h)]
    exact ⟨Iff.rfl, hold⟩

section Queues

variable {q q' : TimerQueue} {old : Timeval}

theorem lives_untouched (hpend : Pending q' (.rtTimer p) ↔ Pending q (.rtTimer p))
    (hdead : deadline q' (.rtTimer p) = old) : Lives now lifetime q' p none ↔
      Pending q (.rtTimer p) ∧ micros now + lifetime.toNat * 1000 - 1000 ≤ micros old ∧
        micros old ≤ micros now + lifetime.toNat * 1000 := by
  constructor
  · intro h
    refine ⟨hpend.1 h.pending, hdead ▸ h.atLeast, ?_⟩
    by_contra hlate
    obtain ⟨t, ht, -⟩ := h.atMost (by rw [hdead]; omega)
    cases ht
  · rintro ⟨hp, hlow, hhigh⟩
    refine ⟨hpend.2 hp, by rw [hdead]; exact hlow, fun hlate => ?_⟩
    rw [hdead] at hlate
    omega

theorem lives_waiting (hpend : Pending q' (.rtTimer p)) {wait : Int}
    (hdead : micros (deadline q' (.rtTimer p)) = micros now + wait * 1000) :
    Lives now lifetime q' p (some old) ↔
      micros now + lifetime.toNat * 1000 - 1000 ≤ micros now + wait * 1000 ∧
        (micros now + wait * 1000 ≤ micros now + lifetime.toNat * 1000 ∨
          micros old = micros now + wait * 1000) := by
  constructor
  · intro h
    have hlow := h.atLeast
    have hhigh := h.atMost
    rw [hdead] at hlow hhigh
    refine ⟨hlow, ?_⟩
    by_contra hneither
    obtain ⟨hlong, hother⟩ := not_or.1 hneither
    obtain ⟨t, ht, heq⟩ := hhigh (Int.not_le.1 hlong)
    obtain rfl := Option.some.inj ht
    exact hother heq
  · rintro ⟨hlow, hhigh⟩
    refine ⟨hpend, by rw [hdead]; exact hlow, fun hlate => ?_⟩
    rw [hdead] at hlate ⊢
    exact ⟨_, rfl, hhigh.resolve_left (Int.not_le.2 hlate)⟩

theorem lives_refreshed
    (h : if micros old + 1000 ≤ micros now + lifetime.toNat * 1000 then
        Pending q' (.rtTimer p) ∧ deadline q' (.rtTimer p) = timevalAddMsec .long64 now lifetime.toNat
      else (Pending q' (.rtTimer p) ↔ Pending q (.rtTimer p)) ∧ deadline q' (.rtTimer p) = old) :
    Lives now lifetime q' p (some old) ↔
      Pending q (.rtTimer p) ∨ micros old + 1000 ≤ micros now + lifetime.toNat * 1000 := by
  have hsum := micros_addMsec now lifetime.toNat
  split at h
  next hlate =>
    obtain ⟨hpend, hdead⟩ := h
    refine iff_of_true ⟨hpend, ?_, fun h => ?_⟩ (.inr hlate)
    · rw [hdead, hsum]
      omega
    · rw [hdead, hsum] at h
      omega
  next hlate =>
    obtain ⟨hpend, hdead⟩ := h
    constructor
    · exact fun h => .inl (hpend.1 h.pending)
    · intro h
      refine ⟨hpend.2 (h.resolve_right hlate), ?_, fun _ => ⟨_, rfl, by rw [hdead]⟩⟩
      rw [hdead]
      omega

end Queues

theorem lives_update (hclock : ∀ n, e.clock n = now) (hs : WellFormed s) (hp : Linked s.rtTbl p)
    (h64 : e.arch = .long64) (next : Addr) (hops seqno : U32)
    (state : RtState) {flags : RtFlags} (hinet : flags.inetDest = false) :
    Lives now lifetime (rtTableUpdate e s p next hops seqno lifetime state flags).timers p
      (held s p) ↔ Settled now s p hops lifetime := by
  obtain ⟨s₁, f, -, hf, hrt, htimers, hw₁, htbl, -, heq⟩ :=
    update_parts e hs hp next hops seqno lifetime state flags
  have hp₁ : Linked s₁.rtTbl p := by
    rw [Linked, htbl]
    exact hp
  have hf' : f.inetDest = false := by
    rw [hf, updateBegin]
    dsimp only
    split
    · split
      · exact hinet
      · exact hinet
    · split <;> exact hinet
  have hdemoted : demoted s p hops ↔ demoted s₁ p hops := by rw [demoted, demoted, hrt]
  rw [heq, held, Settled]
  cases hv : (s.rt p).state with
  | invalid =>
      have hi : (s₁.rt p).state = .invalid := by rw [hrt, hv]
      have hstill := updateBreak_invalid (e := e) hw₁ hp₁ hops hi
      obtain ⟨hpend, hdead⟩ := updateFinish_invalid (e := e) hstill.state next
        hops seqno lifetime state f
      rw [hstill.pending, htimers] at hpend
      rw [hstill.deadline, htimers] at hdead
      exact lives_untouched hpend hdead
  | valid =>
      have hv₁ : (s₁.rt p).state = .valid := by rw [hrt, hv]
      dsimp only
      by_cases hd : demoted s p hops
      · rw [if_pos hd]
        obtain ⟨hi, hwait, hdead₂⟩ := updateBreak_valid h64 hclock hw₁ hp₁ hv₁ (hdemoted.1 hd)
        obtain ⟨hpend, hdead⟩ := updateFinish_invalid (e := e) hi next hops
          seqno lifetime state f
        rw [hdead₂, hrt] at hdead
        exact lives_waiting (hpend.2 hwait) (by rw [hdead, micros_addMsec])
      · rw [if_neg hd, updateBreak_same e fun h => hd (hdemoted.2 h)]
        have hfinish := updateFinish_valid hclock hw₁ hv₁ h64 next hops seqno lifetime state hf'
        dsimp only at hfinish
        rw [htimers] at hfinish
        exact lives_refreshed hfinish

theorem lives_insert (hclock : ∀ n, e.clock n = now) (hs : WellFormed s) (hpos : lifetime ≠ 0)
    (h64 : e.arch = .long64) {dest next : Addr} {hops seqno : U32}
    {state : RtState} {flags : RtFlags}
    (h : rtTableInsert e s dest next hops seqno lifetime state flags = (s', some p))
    (hv : (s'.rt p).state = .valid) : Lives now lifetime s'.timers p none := by
  have hnonneg : (0 : Int) ≤ lifetime.toNat := Int.natCast_nonneg _
  obtain hi | ⟨hnew, hi⟩ := rtTableInsert_cases e s dest next hops seqno lifetime state flags
  · rw [hi] at h
    cases h
  · let s₀ := s.observe (.rtInsert dest next hops seqno lifetime state flags)
    let r := newEntry dest next hops seqno state flags
    rw [hi] at h
    obtain ⟨rfl, rfl⟩ : insertEntry e s₀ r hops lifetime = s' ∧ s.brk = p := by simpa using h
    have hstate : r.state = .valid := by
      rw [rt_insertEntry] at hv
      rwa [show (linkEntry s₀ r).rt s.brk = r from rt_linkEntry_self s₀ r] at hv
    have hs₀ : WellFormed s₀ := (Kept.observe s _).wellFormed hs
    have hlife : r.state = .valid → lifetime ≠ 0 ∧ 0 ≤ e.arch.long lifetime :=
      fun _ => ⟨hpos, by rw [h64]; exact hnonneg⟩
    have hpend : Pending (insertEntry e s₀ r hops lifetime).timers (.rtTimer s.brk) :=
      pending_insertEntry e (r := r) hs₀ rfl hnew hlife
    have hdead : deadline (insertEntry e s₀ r hops lifetime).timers (.rtTimer s.brk) =
        timevalAddMsec .long64 now lifetime.toNat := by
      have hkept : (openEntry e (linkEntry s₀ r) s.brk hops lifetime).2 = lifetime := by
        rw [openEntry, show (linkEntry s₀ r).rt s.brk = r from rt_linkEntry_self s₀ r, hstate]
      rw [insertEntry, deadline_routeFound]
      change deadline
        (armEntry e _ s.brk (openEntry e (linkEntry s₀ r) s.brk hops lifetime).2).timers _ = _
      rw [hkept, armEntry, if_pos hpos]
      dsimp only
      rw [deadline_timerSetTimeout, if_pos rfl, h64, Arch.long, if_neg (Int.not_lt.2 hnonneg), hclock]
      rfl
    refine ⟨hpend, ?_, fun hlate => ?_⟩
    · rw [hdead, micros_addMsec]
      omega
    · rw [hdead, micros_addMsec] at hlate
      omega

/-- An insertion always gives its lifetime, and an update in these cases. -/
theorem route_lifetime (hclock : ∀ n, e.clock n = now) (hs : WellFormed s) (hpos : lifetime ≠ 0)
    (h64 : e.arch = .long64) (next : Addr) (hops seqno : U32)
    (state : RtState) {flags : RtFlags} (hinet : flags.inetDest = false) :
    (∀ dest s' p, rtTableInsert e s dest next hops seqno lifetime state flags = (s', some p) →
      (s'.rt p).state = .valid → Lives now lifetime s'.timers p none) ∧
    ∀ p, Linked s.rtTbl p →
      (Lives now lifetime (rtTableUpdate e s p next hops seqno lifetime state flags).timers p
        (held s p) ↔ Settled now s p hops lifetime) :=
  ⟨fun _ _ _ h hv => lives_insert hclock hs hpos h64 h hv,
    fun _ hp => lives_update hclock hs hp h64 next hops seqno state hinet⟩

end Calls

/-- The daemon 10.0.0.1 after an RREQ of its neighbour 10.0.0.2 for 10.0.0.9. -/
def asked : Daemon := run wide (init wide 0x0100000a 0xff00000a 2)
  [.recv (.of (.rreq ⟨false, false, false, false, false, 0, 1, 0x0900000a, 0, 0x0200000a, 5⟩)
    0x0200000a aodvBroadcast 3 (fits_rreq _))]

theorem reachable_asked : Reachable wide asked := ⟨_, _, _, _, rfl⟩

theorem route_lifetime_asked : Lives ⟨0, 0⟩ 6000
    (rtTableUpdate wide asked 0 0x0200000a 1 5 6000 .valid .zero).timers 0 (held asked 0) := by
  have hentry : Linked asked.rtTbl 0 := ⟨hashing 0x0200000a, by decide +kernel⟩
  have hsee : (asked.rt 0).state = .valid ∧ ¬ demoted asked 0 1 ∧
      micros (deadline asked.timers (.rtTimer 0)) + 1000 ≤ 6000 * 1000 := by decide +kernel
  have hsettled : Settled ⟨0, 0⟩ asked 0 1 6000 := by
    rw [Settled, hsee.1]
    dsimp only
    rw [if_neg hsee.2.1]
    exact .inr hsee.2.2
  exact ((route_lifetime (e := wide) (fun _ => rfl) (Reachable.resting reachable_asked).wellFormed
    (by decide) rfl 0x0200000a 1 5 .valid rfl).2 0 hentry).2 hsettled

def expired : Daemon := step wide asked (.kernel (.timeout 0x0200000a))

/-- An entry that comes back keeps the deadline for its deletion. -/
theorem revived_keeps_deadline :
    let s := rtTableUpdate wide expired 0 0x0200000a 1 5 (u32 activeRouteTimeout) .valid .zero
    (s.rt 0).state = .valid ∧
      ¬ Lives ⟨0, 0⟩ (u32 activeRouteTimeout) s.timers 0 (held expired 0) := by
  intro s
  have hsee : (s.rt 0).state = .valid ∧ (expired.rt 0).state = .invalid ∧
      micros (deadline s.timers (.rtTimer 0)) = 15000000 := by decide +kernel
  refine ⟨hsee.1, fun h => ?_⟩
  have hlate := h.atMost
  rw [hsee.2.2, held, hsee.2.1] at hlate
  obtain ⟨t, ht, -⟩ := hlate (by decide)
  cases ht

end Aodv.Lifetime
