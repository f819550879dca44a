import Aodv.Receive

namespace Aodv

open Relation

theorem used_pending {s : Daemon} (hs : WellFormed s) {t : TimerId} (ht : Pending s.timers t) :
    (s.timers.timer t).used = true := (hs.coherent t).2 ht

theorem invalidate_pop (e : Env) {s : Daemon} {p : Ptr} (hv : (s.rt p).state = .valid) :
    rtTableInvalidate e (pop s (.rtTimer p)) p = rtTableInvalidate e s p := by
  have hv' : (s.tock.rt p).state = .valid := hv
  have hpop : ((pop s (.rtTimer p)).tock.rt p).state = .valid := hv
  simp only [rtTableInvalidate, hv', hpop]
  simp only [pop, Daemon.tock, Daemon.observe, timerRemove_timerRemove]
  rfl

theorem delete_pop (e : Env) (s : Daemon) (p : Ptr) :
    rtTableDelete e (pop s (.rtTimer p)) p = rtTableDelete e s p := by
  have hrt : ((precursorListDestroy { pop s (.rtTimer p) with
      rtTbl := listRemove (pop s (.rtTimer p)).rtTbl p } p).rt p).state =
      ((precursorListDestroy { s with rtTbl := listRemove s.rtTbl p } p).rt p).state := rfl
  simp only [rtTableDelete, hrt]
  cases ((precursorListDestroy { s with rtTbl := listRemove s.rtTbl p } p).rt p).state with
  | invalid =>
      simp only [pop, precursorListDestroy, Daemon.setRt, timerRemove_timerRemove]
      rfl
  | valid =>
      simp only [pop, precursorListDestroy, Daemon.setRt, nlSendDelRouteMsg, nlSendBoth,
        timerRemove_timerRemove]
      rfl

theorem armDelete_pop (e : Env) {s : Daemon} {p : Ptr}
    (hu : (s.timers.timer (.rtTimer p)).used = true) :
    armDelete e (pop s (.rtTimer p)) p = armDelete e s p := by
  have hq : timerSetTimeout e.arch (e.clock s.tick)
      (setHandler (timerRemove s.timers (.rtTimer p)) (.rtTimer p) .routeDeleteTimeout)
      (.rtTimer p) deletePeriod =
    timerSetTimeout e.arch (e.clock s.tick) (setHandler s.timers (.rtTimer p) .routeDeleteTimeout)
      (.rtTimer p) deletePeriod := by
    rw [setHandler_timerRemove]
    refine timerSetTimeout_timerRemove _ _ _ _ ?_
    simpa [setHandler] using hu
  simp only [armDelete, pop, hq]

theorem localRepairTimeout_pop (e : Env) {s : Daemon} {p : Ptr}
    (hu : (s.timers.timer (.rtTimer p)).used = true) :
    localRepairTimeout e (pop s (.rtTimer p)) p = localRepairTimeout e s p := by
  have hreport (s : Daemon) : repairReport e (pop s (.rtTimer p)) p =
      pop (repairReport e s p) (.rtTimer p) := by
    have hrt : (pop s (.rtTimer p)).rt p = s.rt p := rfl
    simp only [repairReport, hrt]
    split <;> rfl
  have htimers : (precursorListDestroy (repairReport e (repairOver e s p) p) p).timers =
      s.timers := by
    simp only [repairReport]
    split <;> rfl
  change armDelete e (precursorListDestroy (repairReport e (pop (repairOver e s p) (.rtTimer p)) p)
    p) p = _
  rw [hreport]
  refine armDelete_pop e (s := precursorListDestroy (repairReport e (repairOver e s p) p) p) ?_
  rwa [htimers]

section Events

variable {e : Env} {ev : Event}

theorem fire_eq (e : Env) (s : Daemon) {t : TimerId} {f : Handler} {d : Data}
    (h : callee s.timers t = (some f, d)) : fire e s t = callHandler e (pop s t) f d := by
  have hpop : callee (pop s t).timers t = (some f, d) := (callee_timerRemove _ _ _).trans h
  obtain ⟨hf, hd⟩ := Prod.mk.inj hpop
  have hhandler : ((pop s t).timer t).handler = some f := hf
  have hdata : ((pop s t).timer t).data = d := hd
  rw [pop] at hhandler hdata ⊢
  simp only [fire, hhandler, hdata]

/-- What the handler of a timer does, once the timer is off its list. -/
inductive Handled (e : Env) (s : Daemon) : TimerId → Daemon → Prop
  | expire {p : Ptr} (hp : Linked s.rtTbl p)
      (hh : (callee s.timers (.rtTimer p)).1 = some .routeExpireTimeout) :
      Handled e s (.rtTimer p) (routeExpireTimeout e (pop s (.rtTimer p)) p)
  | repair {p : Ptr} (hp : Linked s.rtTbl p)
      (hh : (callee s.timers (.rtTimer p)).1 = some .localRepairTimeout) :
      Handled e s (.rtTimer p) (localRepairTimeout e (pop s (.rtTimer p)) p)
  | delete {p : Ptr} (hp : Linked s.rtTbl p)
      (hh : (callee s.timers (.rtTimer p)).1 = some .routeDeleteTimeout) :
      Handled e s (.rtTimer p) (rtTableDelete e (pop s (.rtTimer p)) p)
  | hello {p : Ptr} (hp : Linked s.rtTbl p) :
      Handled e s (.helloTimer p) (helloTimeout e (pop s (.helloTimer p)) p)
  | ack {p : Ptr} (hp : Linked s.rtTbl p) :
      Handled e s (.ackTimer p) (rrepAckTimeout e (pop s (.ackTimer p)) p)
  | seek {q : Ptr} (hq : q ∈ s.sl) :
      Handled e s (.seekTimer q) (routeDiscoveryTimeout e (pop s (.seekTimer q)) q)
  | record (c : Ptr) : Handled e s (.recTimer c) (rreqRecordTimeout (pop s (.recTimer c)) c)
  | blacklist (c : Ptr) : Handled e s (.blTimer c) (rreqBlacklistTimeout (pop s (.blTimer c)) c)
  | log : Handled e s .rtLogTimer (printRtTable e (pop s .rtLogTimer))

/-- Each timer has the handler that fits it, and an own HELLO is never armed. -/
theorem fire_handled (e : Env) {s : Daemon} {t : TimerId} (hs : WellFormed s)
    (ht : Pending s.timers t) : Handled e s t (fire e s t) := by
  have hown := hs.owned t ht
  have hfits := hs.fits t hown
  cases t with
  | rtTimer p =>
      obtain ⟨hdata, hh⟩ := hfits
      rcases hh with hh | hh | hh
      · rw [fire_eq e s (Prod.ext hh hdata)]
        exact .expire hown hh
      · rw [fire_eq e s (Prod.ext hh hdata)]
        exact .repair hown hh
      · rw [fire_eq e s (Prod.ext hh hdata)]
        exact .delete hown hh
  | helloTimer p =>
      rw [fire_eq e s hfits]
      exact .hello hown
  | ackTimer p =>
      rw [fire_eq e s hfits]
      exact .ack hown
  | seekTimer q =>
      rw [fire_eq e s hfits]
      exact .seek hown
  | recTimer c =>
      rw [fire_eq e s hfits]
      exact .record c
  | blTimer c =>
      rw [fire_eq e s hfits]
      exact .blacklist c
  | worbTimer | ownHelloTimer => exact absurd hfits (hs.armed _ ht)
  | rtLogTimer =>
      rw [fire_eq e s (Prod.ext hfits rfl)]
      exact .log

theorem quiets_expire {s : Daemon} {p : Ptr} (hs : WellFormed s)
    (ht : Pending s.timers (.rtTimer p))
    (hh : (callee s.timers (.rtTimer p)).1 = some .routeExpireTimeout) :
    ReflTransGen (Quiet e ev) s (routeExpireTimeout e (pop s (.rtTimer p)) p) := by
  have hp : Linked s.rtTbl p := hs.owned _ ht
  have hp' : Linked (pop s (.rtTimer p)).rtTbl p := hp
  rw [routeExpireTimeout]
  cases hv : (s.rt p).state with
  | invalid =>
      refine ReflTransGen.head (.expireIdle hp hv hh) (quiets_of_lbs ev ?_)
      split
      · exact lb_linkBreak e hp'
      · have hdown := lb_invalidate e hp'
        exact (ReflTransGen.single hdown).tail
          (.destroy (linked_of_lb (.single hdown) hp') (state_invalidate e _ p))
  | valid =>
      have hdown : Lb e s (rtTableInvalidate e (pop s (.rtTimer p)) p) := by
        rw [invalidate_pop e hv]
        exact .down hp hv
      refine quiets_of_lbs ev ?_
      split
      next hhop => exact lb_linkBreak_of e hp' hdown hhop
      · exact (ReflTransGen.single hdown).tail
          (.destroy (linked_of_lb (.single hdown) hp) (state_invalidate e _ p))

theorem armLog_pop (e : Env) {s : Daemon} (hu : (s.timers.timer .rtLogTimer).used = true) :
    ReflTransGen (Quiet e ev) s (printRtTable e (pop s .rtLogTimer)) := by
  have hq (now : Timeval) := timerSetTimeout_timerRemove (a := e.arch) now s.timers .rtLogTimer
    rtLogInterval hu
  simp only [printRtTable]
  split
  · simp only [pop, hq]
    exact .single (.armLog rtLogInterval)
  · simp only [pop, Daemon.tock, hq]
    exact ReflTransGen.head (.lb (.tock s)) (.single (.armLog (s := s.tock) rtLogInterval))

theorem coarses_fire {s : Daemon} {t : TimerId} (hs : WellFormed s) (ht : Pending s.timers t) :
    ReflTransGen (Coarse e ev) s (fire e s t) := by
  have hused := used_pending hs ht
  have hdone := fire_handled e hs ht
  generalize fire e s t = s' at hdone
  cases hdone with
  | expire hp hh => exact coarses_of_quiets (quiets_expire hs ht hh)
  | repair hp hh =>
      rw [localRepairTimeout_pop e hused]
      exact .single (.quiet (.repairTimeout hp (.inr hh)))
  | delete hp hh =>
      rw [delete_pop]
      exact .single (.quiet (.delete hp hh))
  | hello => exact .single (.quiet (.helloFire ht))
  | ack hp => exact coarses_of_quiets ((ReflTransGen.single (.dropAck hp)).tail (.blacklist _))
  | seek hq => exact .single (.discoveryTimeout hq)
  | record c => exact .single (.quiet (.dropRecord c))
  | blacklist c => exact .single (.quiet (.dropBlacklist c))
  | log => exact coarses_of_quiets (armLog_pop e hused)

theorem quiets_expireNow {s : Daemon} {p : Ptr} (hp : Linked s.rtTbl p) :
    ReflTransGen (Quiet e ev) s (routeExpireTimeout e s p) := by
  refine quiets_of_lbs ev ?_
  rw [routeExpireTimeout]
  split
  · exact lb_linkBreak e hp
  · have hdown := lb_invalidate e hp
    exact (ReflTransGen.single hdown).tail
      (.destroy (linked_of_lb (.single hdown) hp) (state_invalidate e s p))

def Refreshes (e : Env) (s s' : Daemon) : Prop :=
  ∃ p, Linked s.rtTbl p ∧ s' = rtTableUpdateTimeout e s p (u32 activeRouteTimeout)

theorem linked_refreshes {s s' : Daemon} (h : ReflTransGen (Refreshes e) s s') (q : Ptr) :
    Linked s'.rtTbl q ↔ Linked s.rtTbl q := by
  induction h with
  | refl => exact Iff.rfl
  | tail _ hstep ih =>
      obtain ⟨p, hp, rfl⟩ := hstep
      exact ((kept_updateTimeout e _ hp).keys.linked q).trans ih

theorem refreshes_side {s : Daemon} {p : Ptr} (c : Prop) [Decidable c] (hp : Linked s.rtTbl p) :
    ReflTransGen (Refreshes e) s (refreshNextHop e
      (if c then rtTableUpdateTimeout e s p (u32 activeRouteTimeout) else s) p) := by
  have hnext (s : Daemon) : ReflTransGen (Refreshes e) s (refreshNextHop e s p) := by
    rw [refreshNextHop]
    cases hc : rtTableCheck s.rtTbl (s.rt p).nextHop with
    | none => exact .refl
    | some n =>
        dsimp only
        split
        · exact .single ⟨n, (rtTableCheck_some hc).1, rfl⟩
        · exact .refl
  split
  · exact ReflTransGen.head ⟨p, hp, rfl⟩ (hnext _)
  · exact hnext s

theorem refreshes_updateRouteTimeouts {s : Daemon} {fwd rev : Option Ptr}
    (hfwd : ∀ p, fwd = some p → Linked s.rtTbl p) (hrev : ∀ p, rev = some p → Linked s.rtTbl p) :
    ReflTransGen (Refreshes e) s (rtTableUpdateRouteTimeouts e s fwd rev) := by
  have hfirst : ReflTransGen (Refreshes e) s (refreshForward e s fwd) := by
    cases fwd with
    | none => exact .refl
    | some p =>
        rw [refreshForward]
        split
        · exact refreshes_side _ (hfwd p rfl)
        · exact .refl
  rw [rtTableUpdateRouteTimeouts]
  refine hfirst.trans ?_
  cases rev with
  | none => exact .refl
  | some p =>
      rw [refreshReverse]
      split
      · exact refreshes_side _ ((linked_refreshes hfirst p).2 (hrev p rfl))
      · exact .refl

theorem quiets_rerrFor (s : Daemon) (dest : Addr) :
    ReflTransGen (Quiet e ev) s (rerrFor e s dest).1 ∧
      Written (rerrFor e s dest).1 (rerrFor e s dest).2 := by
  rw [rerrFor]
  cases hc : rtTableCheck s.rtTbl dest with
  | none => exact ⟨.single (.lb (.rerrNew false dest (.inl rfl))), written_create s _ _ _⟩
  | some f =>
      have hf := (rtTableCheck_some hc).1
      have hnew : Quiet e ev s (rerrCreate s false (s.rt f).destAddr (s.rt f).destSeqno).1 :=
        .lb (.rerrNew false _ (.inr ⟨f, hf, rfl⟩))
      obtain ⟨q, n, heq⟩ := updateTimeout_eq e
        (rerrCreate s false (s.rt f).destAddr (s.rt f).destSeqno).1 f (u32 deletePeriod)
      refine ⟨(ReflTransGen.single hnew).tail (.updateTimeout (by decide) hf), ?_⟩
      dsimp only
      rw [heq]
      exact (written_create s _ _ _).same rfl

theorem quiets_sendRerr (s : Daemon) (src dest : Addr) :
    ReflTransGen (Quiet e ev) s (sendRerr e s src dest) := by
  have hfor : ReflTransGen (Quiet e ev) s (rerrFor e s dest).1 ∧ _ := quiets_rerrFor s dest
  obtain ⟨hrun, hw⟩ := hfor
  rw [sendRerr]
  dsimp only
  generalize rerrFor e s dest = o at hrun hw
  have hsend : Quiet e ev o.1 (aodvSocketSend e o.1 (.rerr o.2)
      (rerrTarget o.1 (rtTableCheck s.rtTbl src)) (rerrCalcSize (o.1.sendBuf 3)) 1) :=
    .lb (.rerrSend o.2 _ _ hw.type hw.carries)
  split
  · exact (hrun.tail hsend).tail (.armWorb _)
  · exact hrun.tail hsend

/-- What a message from the kernel module leads to. -/
inductive LedTo (e : Env) (s : Daemon) : Daemon → Prop
  | nothing : LedTo e s s
  | expire {p : Ptr} (hp : Linked s.rtTbl p) : LedTo e s (routeExpireTimeout e s p)
  | discover (dest : Addr) : LedTo e s (rreqRouteDiscovery e s dest 0)
  | repair {p : Ptr} (src : Addr) (hp : Linked s.rtTbl p) : LedTo e s (rreqLocalRepair e s p src)
  | refresh {s' : Daemon} (h : ReflTransGen (Refreshes e) s s') : LedTo e s s'
  | report (src dest : Addr) : LedTo e s (sendRerr e s src dest)

theorem kernel_ledTo (e : Env) (s : Daemon) (m : KernelMsg) :
    LedTo e s (nlKaodvCallback e s m) := by
  cases m with
  | timeout dest =>
      rw [nlKaodvCallback]
      cases hc : rtTableCheck s.rtTbl dest with
      | none => exact .nothing
      | some p =>
          dsimp only
          split
          · exact .expire (rtTableCheck_some hc).1
          · exact .nothing
  | routeReq dest => exact .discover dest
  | repair src dest =>
      rw [nlKaodvCallback]
      cases hc : rtTableCheck s.rtTbl dest with
      | none => exact .nothing
      | some p => exact .repair src (rtTableCheck_some hc).1
  | routeUpdate src dest =>
      rw [nlKaodvCallback]
      split
      · exact .nothing
      · exact .refresh (refreshes_updateRouteTimeouts (fun p hp => (rtTableCheck_some hp).1)
          fun p hp => (rtTableCheck_some hp).1)
  | sendRerr src dest =>
      rw [nlKaodvCallback]
      split
      · exact .nothing
      · exact .report src dest
  | other => exact .nothing

theorem coarses_kernel {s : Daemon} (m : KernelMsg) :
    ReflTransGen (Coarse e ev) s (nlKaodvCallback e s m) := by
  have hdone := kernel_ledTo e s m
  generalize nlKaodvCallback e s m = s' at hdone
  cases hdone with
  | nothing => exact .refl
  | expire hp => exact coarses_of_quiets (quiets_expireNow hp)
  | discover dest => exact .single (.discover dest 0)
  | repair src hp => exact .single (.repair src hp)
  | refresh h =>
      refine ReflTransGen.mono ?_ _ _ h
      rintro _ _ ⟨p, hp, rfl⟩
      exact .quiet (.updateTimeout (by decide) hp)
  | report src dest => exact coarses_of_quiets (quiets_sendRerr s src dest)

theorem pending_takeDue (a : Arch) (now : Timeval) {s : Daemon} (h : s.timers.exptq = [])
    (t : TimerId) : Pending (takeDue a now s).timers t ↔ Pending s.timers t := by
  simp only [Pending, takeDue, h, List.not_mem_nil, or_false]
  rw [or_comm, ← List.mem_append, List.takeWhile_append_dropWhile]

theorem wellFormed_takeDue (a : Arch) (now : Timeval) {s : Daemon} (hs : WellFormed s)
    (h : s.timers.exptq = []) : WellFormed (takeDue a now s) :=
  { hs with
    coherent := fun t => (hs.coherent t).trans (pending_takeDue _ now h t).symm
    owned := fun t ht => hs.owned t ((pending_takeDue _ now h t).1 ht)
    armed := fun t ht => hs.armed t ((pending_takeDue _ now h t).1 ht)
    fits := hs.fits }

theorem kept_expire (e : Env) {s : Daemon} {p : Ptr} (hp : Linked s.rtTbl p) :
    Kept s (routeExpireTimeout e s p) := by
  rw [routeExpireTimeout]
  split
  · exact lb_kept (lb_linkBreak e hp)
  · exact (kept_invalidate e hp).trans (kept_precursorListDestroy _ p)

theorem batch_fire {s : Daemon} {t : TimerId} (hs : WellFormed s) (ht : Pending s.timers t) :
    (fire e s t).timers.exptq.Sublist (pop s t).timers.exptq := by
  have hpop : pop (pop s t) t = pop s t := by
    simp only [pop, timerRemove_timerRemove]
  have hdone := fire_handled e hs ht
  generalize fire e s t = s' at hdone
  cases hdone with
  | @expire p hp =>
      have hp' : Linked (pop s (.rtTimer p)).rtTbl p := hp
      exact (kept_expire e hp').timers.batch
  | @repair p hp =>
      have hp' : Linked (pop s (.rtTimer p)).rtTbl p := hp
      exact (kept_localRepairTimeout e hp').timers.batch
  | @delete p => exact batch_delete e _ p
  | ack => exact (blacklistInsert_sound e ((kept_pop _).wellFormed hs) _).batch
  | @hello p hp =>
      have hp' : Linked (pop s (.helloTimer p)).rtTbl p := hp
      exact (kept_helloTimeout e hp').timers.batch
  | @seek q hq =>
      rw [← hpop]
      have hstep : Coarse e .age (pop s (.seekTimer q)) _ := .discoveryTimeout hq
      refine (coarse_sound hstep ((kept_pop _).wellFormed hs)).batch.trans ?_
      rw [hpop]
  | record c | blacklist c => exact List.Sublist.refl _
  | log =>
      rw [printRtTable]
      dsimp only
      split <;> exact exptq_timerSetTimeout_sublist _ _ _ _

theorem coarses_drain (n : Nat) {s : Daemon} (hs : WellFormed s)
    (hn : s.timers.exptq.length ≤ n) :
    ReflTransGen (Coarse e ev) s (drain e n s) ∧ (drain e n s).timers.exptq = [] := by
  induction n generalizing s with
  | zero => exact ⟨.refl, List.length_eq_zero_iff.1 (Nat.le_zero.1 hn)⟩
  | succ n ih =>
      rw [drain]
      cases hq : s.timers.exptq with
      | nil => exact ⟨.refl, hq⟩
      | cons t rest =>
          have ht : Pending s.timers t := .inr (hq ▸ List.mem_cons_self)
          have hfire : ReflTransGen (Coarse e ev) s (fire e s t) := coarses_fire hs ht
          have hshort : (fire e s t).timers.exptq.length ≤ n := by
            have hle := (batch_fire (e := e) hs ht).length_le
            have hpop : (pop s t).timers.exptq = rest.filter (· ≠ t) := by
              change (unlink s.timers t).exptq = _
              simp [unlink, hq]
            have hfilter := List.length_filter_le (· ≠ t) rest
            rw [hpop] at hle
            rw [hq, List.length_cons] at hn
            omega
          obtain ⟨hrun, hdone⟩ := ih (coarses_sound hfire hs).wellFormed hshort
          exact ⟨hfire.trans hrun, hdone⟩

theorem wellFormed_fire {s : Daemon} {t : TimerId} (hs : WellFormed s) (ht : Pending s.timers t) :
    WellFormed (fire e s t) :=
  have hrun : ReflTransGen (Coarse e .age) s (fire e s t) := coarses_fire hs ht
  (coarses_sound hrun hs).wellFormed

/-- What the handler of every timer preserves, the batch preserves. -/
theorem drain_keeps {I : Daemon → Prop} (hfire : ∀ {s : Daemon} {t : TimerId}, WellFormed s →
    t ∈ s.timers.exptq → I s → I (fire e s t)) (n : Nat) {s : Daemon} (hs : WellFormed s)
    (hi : I s) : WellFormed (drain e n s) ∧ I (drain e n s) := by
  induction n generalizing s with
  | zero => exact ⟨hs, hi⟩
  | succ n ih =>
      rw [drain]
      cases hq : s.timers.exptq with
      | nil => exact ⟨hs, hi⟩
      | cons t rest =>
          have ht : t ∈ s.timers.exptq := hq ▸ List.mem_cons_self
          exact ih (wellFormed_fire hs (.inr ht)) (hfire hs ht hi)

/-- An event is a run of steps, after the timers that are due have been put
into the batch; the batch is empty again when it ends. -/
theorem coarses_step {s : Daemon} (hs : WellFormed s) (hq : s.timers.exptq = []) (ev : Event) :
    ∃ s₁, (s₁ = s ∨ ∃ now, s₁ = takeDue e.arch now s) ∧ ReflTransGen (Coarse e ev) s₁ (step e s ev) ∧
      (step e s ev).timers.exptq = [] := by
  have hempty {s' : Daemon} (h : ReflTransGen (Coarse e ev) s s') : s'.timers.exptq = [] := by
    have hsub := (coarses_sound h hs).batch
    rw [hq] at hsub
    exact List.sublist_nil.1 hsub
  cases ev with
  | recv pkt =>
      have hrun : ReflTransGen (Coarse e (.recv pkt)) s (aodvSocketRead e s pkt) :=
        coarses_recv hs rfl
      exact ⟨s, .inl rfl, hrun, hempty hrun⟩
  | kernel m =>
      have hrun : ReflTransGen (Coarse e (.kernel m)) s (nlKaodvCallback e s m) := coarses_kernel m
      exact ⟨s, .inl rfl, hrun, hempty hrun⟩
  | age =>
      change ∃ s₁, _ ∧ ReflTransGen _ s₁ (timerAgeQueue e s) ∧ (timerAgeQueue e s).timers.exptq = []
      have htock : Coarse e .age s s.tock := .quiet (.lb (.tock s))
      rw [timerAgeQueue]
      split
      · exact ⟨s, .inl rfl, .single htock, hq⟩
      · have hws := wellFormed_takeDue e.arch (e.clock s.tick) hs hq
        have hdrain : ReflTransGen (Coarse e .age) _ _ ∧ _ := coarses_drain _
          (Kept.wellFormed (Kept.tock (takeDue e.arch (e.clock s.tick) s)) hws) (Nat.le_refl _)
        exact ⟨takeDue e.arch (e.clock s.tick) s, .inr ⟨_, rfl⟩,
          ReflTransGen.head (.quiet (.lb (.tock _))) hdrain.1, hdrain.2⟩
  | fire t =>
      rw [step]
      split
      next ht =>
        have hrun : ReflTransGen (Coarse e (.fire t)) s (fire e s t) := coarses_fire hs (.inl ht)
        exact ⟨s, .inl rfl, hrun, hempty hrun⟩
      · exact ⟨s, .inl rfl, .refl, hq⟩

end Events

theorem wellFormed_init (e : Env) (ipaddr broadcast : Addr) (ifindex : Int) :
    WellFormed (init e ipaddr broadcast ifindex) := by
  have hnone : ∀ t, ¬ Pending noTimers t := by
    rintro t (ht | ht) <;> exact absurd ht (List.not_mem_nil)
  have hzero : Coherent noTimers := fun t => ⟨fun hu => (by cases hu), fun ht => absurd ht (hnone t)⟩
  have hlog := hzero.timerInit .rtLogTimer .printRtTable .null (hnone _)
  have hpend (t : TimerId) (ht : Pending (init e ipaddr broadcast ifindex).timers t) :
      t = .rtLogTimer := by
    rcases (pending_timerSetTimeout hlog _ _ t _).1 ht with ⟨_, hp⟩ | ⟨he, _⟩
    · exact absurd hp (hnone t)
    · exact he
  have hcallee (t : TimerId) : callee (init e ipaddr broadcast ifindex).timers t =
      if t = .rtLogTimer then (some .printRtTable, .null) else (none, .null) := by
    simp only [init, callee_timerSetTimeout, callee_timerInit]
    rfl
  have hlinked (p : Ptr) : ¬ Linked (init e ipaddr broadcast ifindex).rtTbl p := by
    rintro ⟨i, hp⟩
    exact List.not_mem_nil hp
  refine ⟨⟨?_, fun p hp => absurd hp (hlinked p), fun i => List.nodup_nil,
    fun p q hp => absurd hp (hlinked p), ?_⟩, hlog.timerSetTimeout (e.clock 0) .rtLogTimer
      rtLogInterval, ?_, ?_, ?_, ?_, List.nodup_nil, ?_, ?_, ?_, ?_, rfl⟩
  · intro i p hp
    exact absurd hp (List.not_mem_nil)
  · simp [init, entries]
  · intro t ht
    rw [hpend t ht]
    trivial
  · intro t ht
    rw [hcallee, if_pos (hpend t ht)]
    simp
  · intro t ht
    rw [hcallee]
    cases t with
    | rtTimer p | ackTimer p | helloTimer p => exact absurd ht (hlinked p)
    | seekTimer q => exact absurd ht (List.not_mem_nil)
    | recTimer c =>
        obtain ⟨r, hr, _⟩ := ht
        exact absurd hr (List.not_mem_nil)
    | blTimer c =>
        obtain ⟨b, hb, _⟩ := ht
        exact absurd hb (List.not_mem_nil)
    | worbTimer | ownHelloTimer | rtLogTimer => rfl
  · exact fun q hq => absurd hq (List.not_mem_nil)
  · exact fun q hq => absurd hq (List.not_mem_nil)
  · exact fun q hq => absurd hq (List.not_mem_nil)
  · exact fun q hq => absurd hq (List.not_mem_nil)
  · exact fun q hq => absurd hq (List.not_mem_nil)

/-- A property of every state of a run: it holds at the start, and it survives
the filling of the batch and every step of an event. -/
theorem Reachable.steps {e : Env} {I : Daemon → Prop}
    (hinit : ∀ ipaddr broadcast ifindex, I (init e ipaddr broadcast ifindex))
    (hdue : ∀ s now, WellFormed s → s.timers.exptq = [] → I s → I (takeDue e.arch now s))
    (hstep : ∀ ev s s', WellFormed s → I s → Coarse e ev s s' → I s')
    {s : Daemon} (h : Reachable e s) : WellFormed s ∧ s.timers.exptq = [] ∧ I s := by
  refine Reachable.induction (P := fun s => WellFormed s ∧ s.timers.exptq = [] ∧ I s) ?_ ?_ h
  · intro ipaddr broadcast ifindex
    refine ⟨wellFormed_init e ipaddr broadcast ifindex, ?_, hinit ipaddr broadcast ifindex⟩
    exact List.sublist_nil.1 (exptq_timerSetTimeout_sublist (e.clock 0)
      (timerInit noTimers .rtLogTimer .printRtTable .null) .rtLogTimer rtLogInterval)
  · rintro s ev ⟨hs, hq, hI⟩
    obtain ⟨s₁, hfrom, hrun, hdone⟩ := coarses_step (e := e) hs hq ev
    have hs₁ : WellFormed s₁ ∧ I s₁ := by
      rcases hfrom with rfl | ⟨now, rfl⟩
      · exact ⟨hs, hI⟩
      · exact ⟨wellFormed_takeDue _ now hs hq, hdue s now hs hq hI⟩
    have hlast : WellFormed (step e s ev) ∧ I (step e s ev) := by
      clear hdone
      generalize step e s ev = s₂ at hrun
      induction hrun with
      | refl => exact hs₁
      | tail _ h ih => exact ⟨(coarse_sound h ih.1).wellFormed, hstep ev _ _ ih.1 ih.2 h⟩
    exact ⟨hlast.1, hdone, hlast.2⟩

/-- The rule for a run whose history meets a condition: every step is taken in
a run that met it so far. -/
theorem Reachable.fines {e : Env} {C : List Obs → Prop} {J : Daemon → Prop}
    (hC : ∀ tr tr', tr <:+ tr' → C tr' → C tr)
    (hinit : ∀ ipaddr broadcast ifindex, J (init e ipaddr broadcast ifindex))
    (hdue : ∀ s now, WellFormed s → s.timers.exptq = [] → J s → J (takeDue e.arch now s))
    (hstep : ∀ ev s s', WellFormed s → C s'.trace → J s → Fine e ev s s' → J s')
    {s : Daemon} (h : Reachable e s) (hs : C s.trace) : WellFormed s ∧ J s := by
  have hall := Reachable.steps (I := fun s => C s.trace → J s)
    (fun ipaddr broadcast ifindex _ => hinit ipaddr broadcast ifindex)
    (fun s now hs hq hI hc => hdue s now hs hq (hI hc)) ?_ h
  · exact ⟨hall.1, hall.2.2 hs⟩
  · intro ev s s' hs hI hstep' hc
    have hruns := coarse_fines hstep' hs
    have hlast : WellFormed s' ∧ (C s'.trace → J s') := by
      clear hstep' hc
      induction hruns with
      | refl => exact ⟨hs, hI⟩
      | tail _ hf ih =>
          refine ⟨(fine_sound hf ih.1).wellFormed, fun hc => hstep ev _ _ ih.1 hc (ih.2 ?_) hf⟩
          exact hC _ _ (fine_said hf ih.1).suffix hc
    exact hlast.2 hc

theorem forall_mem_suffix {ok : Obs → Bool} (tr tr' : List Obs) (h : tr <:+ tr')
    (h' : ∀ o ∈ tr', ok o = true) : ∀ o ∈ tr, ok o = true :=
  fun o ho => h' o (h.subset ho)

end Aodv
