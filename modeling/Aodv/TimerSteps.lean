import Aodv.Routes
import Aodv.TimerExpiry

namespace Aodv.TimerSteps

open Lib.Bytes TimerCalls TimerExpiry Relation

/-- A call between two readings of the clock, which arms a route timer only for an
interval in W. Timers are added only with the deadline that timer_set_timeout has
just given them. -/
def Current (e : Env) (W : Int → Prop) (n n' : Nat) : Call → Prop
  | .setTimeout now t msec =>
      (∃ k, n ≤ k ∧ k < n' ∧ now = e.clock k) ∧ ∀ p, t = .rtTimer p → W msec
  | .add _ => False
  | .init .. | .remove _ | .setHandler .. => True

/-- The timers of s' are those of s after a number of calls. -/
structure Timed (e : Env) (W : Int → Prop) (s s' : Daemon) : Prop where
  tick : s.tick ≤ s'.tick
  calls : ∃ cs, Permitted e.arch ⟨s.timers, []⟩ cs ∧ (∀ c ∈ cs, Current e W s.tick s'.tick c) ∧
    cs.foldl (Timers.call e.arch) ⟨s.timers, []⟩ = ⟨s'.timers, []⟩

theorem Current.mono {e : Env} {W : Int → Prop} {n n' k k' : Nat} {c : Call}
    (h : Current e W n n' c) (hn : k ≤ n) (hn' : n' ≤ k') : Current e W k k' c := by
  cases c with
  | setTimeout now t msec =>
      obtain ⟨⟨i, hi, hi', hnow⟩, hw⟩ := h
      exact ⟨⟨i, Nat.le_trans hn hi, Nat.lt_of_lt_of_le hi' hn', hnow⟩, hw⟩
  | add t => exact h
  | init | remove | setHandler => trivial

theorem permitted_append {a : Arch} {m : Timers} {cs cs' : List Call} (h : Permitted a m cs)
    (h' : Permitted a (cs.foldl (Timers.call a) m) cs') : Permitted a m (cs ++ cs') := by
  induction cs generalizing m with
  | nil => exact h'
  | cons c cs ih => exact ⟨h.1, ih h.2 h'⟩

theorem call_setTimeout (a : Arch) (q : TimerQueue) (now : Timeval) (t : TimerId) (msec : Int) :
    Timers.call a ⟨q, []⟩ (.setTimeout now t msec) = ⟨timerSetTimeout a now q t msec, []⟩ := by
  rw [Timers.call]
  split <;> rfl

theorem mem_lists {q : TimerQueue} {t : TimerId} :
    t ∈ Timers.lists ⟨q, []⟩ ↔ Pending q t := by
  simp [Timers.lists, Pending]

theorem tick_nlSendBoth (e : Env) (s : Daemon) (first second : Obs) :
    s.tick ≤ (nlSendBoth e s first second).tick := by
  rw [nlSendBoth]
  dsimp only
  split <;> omega

theorem tick_delRoute (e : Env) {s : Daemon} {n : Nat} (dest next : Addr) (metric : Int)
    (h : n ≤ s.tick) : n ≤ (nlSendDelRouteMsg e s dest next metric).tick :=
  Nat.le_trans h (tick_nlSendBoth e s _ _)

theorem tick_sendOutcome (e : Env) (s : Daemon) (dest : Addr) (len : Nat) :
    s.tick ≤ (sendOutcome e s dest len).tick := by
  have hsent (o : Outcome) (ho : s.tick ≤ o.tick) : s.tick ≤ (transmit e s dest len o).tick :=
    Nat.le_trans ho (transmit_tick e s dest len o)
  unfold sendOutcome
  dsimp only
  split
  · exact Nat.le_refl _
  · split
    · exact Nat.le_succ _
    · split
      · exact hsent _ (Nat.le_succ _)
      · split
        · split
          · exact Nat.le_add_right _ 2
          · exact hsent _ (Nat.le_add_right _ 2)
        · split
          · split
            · exact Nat.le_add_right _ 2
            · exact hsent _ (Nat.le_add_right _ 2)
          · exact hsent _ (Nat.le_add_right _ 2)

namespace Timed

variable {e : Env} {W : Int → Prop} {s s' s'' : Daemon}

theorem trans (h : Timed e W s s') (h' : Timed e W s' s'') : Timed e W s s'' := by
  obtain ⟨cs, hok, hcur, hrun⟩ := h.calls
  obtain ⟨cs', hok', hcur', hrun'⟩ := h'.calls
  refine ⟨Nat.le_trans h.tick h'.tick, cs ++ cs', ?_, fun c hc => ?_, ?_⟩
  · exact permitted_append hok (hrun ▸ hok')
  · rcases List.mem_append.1 hc with hc | hc
    · exact (hcur c hc).mono (Nat.le_refl _) h'.tick
    · exact (hcur' c hc).mono h.tick (Nat.le_refl _)
  · rw [List.foldl_append, hrun, hrun']

theorem frame (ht : s.tick ≤ s'.tick) (hq : s'.timers = s.timers) : Timed e W s s' := by
  refine ⟨ht, [], trivial, fun c hc => absurd hc List.not_mem_nil, ?_⟩
  rw [hq]
  rfl

theorem refl (s : Daemon) : Timed e W s s := frame (Nat.le_refl _) rfl

theorem one (c : Call) (ht : s.tick ≤ s'.tick) (hok : c.Allowed ⟨s.timers, []⟩)
    (hcur : Current e W s.tick s'.tick c) (hq : Timers.call e.arch ⟨s.timers, []⟩ c = ⟨s'.timers, []⟩) :
    Timed e W s s' := by
  refine ⟨ht, [c], ⟨hok, trivial⟩, fun c' hc => ?_, hq⟩
  rw [List.mem_singleton.1 hc]
  exact hcur

theorem remove (t : TimerId) (ht : s.tick ≤ s'.tick) (hq : s'.timers = timerRemove s.timers t) :
    Timed e W s s' := by
  apply one (.remove t) ht trivial trivial
  rw [hq]
  rfl

theorem handler (t : TimerId) (f : Handler) (ht : s.tick ≤ s'.tick)
    (hq : s'.timers = setHandler s.timers t f) : Timed e W s s' := by
  apply one (.setHandler t f) ht trivial trivial
  rw [hq]
  rfl

theorem arm (t : TimerId) (k : Nat) (msec : Int) (hm : ∀ p, t = .rtTimer p → W msec)
    (hk : s.tick ≤ k) (hk' : k < s'.tick)
    (hq : s'.timers = timerSetTimeout e.arch (e.clock k) s.timers t msec) : Timed e W s s' := by
  apply one (.setTimeout (e.clock k) t msec) (Nat.le_trans hk (Nat.le_of_lt hk')) trivial
  · exact ⟨⟨k, hk, hk', rfl⟩, hm⟩
  · rw [hq, call_setTimeout]

theorem init (t : TimerId) (f : Handler) (data : Data) (hidle : ¬ Pending s.timers t)
    (ht : s.tick ≤ s'.tick) (hq : s'.timers = timerInit s.timers t f data) : Timed e W s s' := by
  apply one (.init t (some f) data) ht
  · exact fun hmem => hidle (mem_lists.1 hmem)
  · trivial
  · rw [hq]
    rfl

theorem start (t : TimerId) (f : Handler) (data : Data) (msec : Int)
    (hm : ∀ p, t = .rtTimer p → W msec) (hidle : ¬ Pending s.timers t) (ht : s.tick < s'.tick)
    (hq : s'.timers = timerSetTimeout e.arch (e.clock s.tick) (timerInit s.timers t f data) t msec) :
    Timed e W s s' := by
  have hinit : Timed e W s { s with timers := timerInit s.timers t f data } :=
    init t f data hidle (Nat.le_refl _) rfl
  exact hinit.trans (arm t s.tick msec hm (Nat.le_refl _) ht hq)

theorem nlSendBoth (first second : Obs) : Timed e W s (Aodv.nlSendBoth e s first second) :=
  frame (tick_nlSendBoth e s first second) rfl

theorem socketSend (msg : Msg) (dest : Addr) (len ttl : Int) :
    Timed e W s (aodvSocketSend e s msg dest len ttl) :=
  frame (tick_sendOutcome e s dest len.toNat) rfl

-- the intervals of the protocol's own constants
variable (hW : ∀ msec, 0 ≤ msec → msec ≤ deletePeriod → W msec)

include hW in
theorem invalidate (p : Ptr) : Timed e W s (rtTableInvalidate e s p) := by
  cases hv : (s.rt p).state with
  | invalid =>
      rw [invalidate_invalid e s hv]
      exact frame (Nat.le_succ _) rfl
  | valid =>
      have hv' : (s.tock.rt p).state = .valid := hv
      rw [rtTableInvalidate]
      dsimp only
      rw [hv']
      dsimp only
      let q₁ := timerRemove s.timers (.rtTimer p)
      let q₂ := timerRemove q₁ (.helloTimer p)
      let q₃ := timerRemove q₂ (.ackTimer p)
      let q₄ := setHandler q₃ (.rtTimer p) (waitHandler (s.rt p).flags.repair)
      have h₁ : Timed e W s { s with timers := q₁ } := remove (.rtTimer p) (Nat.le_refl _) rfl
      have h₂ : Timed e W { s with timers := q₁ } { s with timers := q₂ } :=
        remove (.helloTimer p) (Nat.le_refl _) rfl
      have h₃ : Timed e W { s with timers := q₂ } { s with timers := q₃ } :=
        remove (.ackTimer p) (Nat.le_refl _) rfl
      have h₄ : Timed e W { s with timers := q₃ } { s with timers := q₄ } :=
        handler (.rtTimer p) _ (Nat.le_refl _) rfl
      have hwait : 0 ≤ (if (s.rt p).flags.repair then activeRouteTimeout else deletePeriod) ∧
          (if (s.rt p).flags.repair then activeRouteTimeout else deletePeriod) ≤ deletePeriod := by
        split <;> decide
      refine (((h₁.trans h₂).trans h₃).trans h₄).trans (arm (.rtTimer p) _ _
        (fun _ _ => hW _ hwait.1 hwait.2) ?_ (Nat.lt_succ_self _) rfl)
      exact tick_delRoute e _ _ _ (Nat.le_succ s.tick)

theorem updateTimeout {p : Ptr} {lifetime : U32}
    (hl : (s.rt p).state = .valid → W (e.arch.long lifetime)) :
    Timed e W s (rtTableUpdateTimeout e s p lifetime) := by
  rw [rtTableUpdateTimeout]
  split
  next hv =>
    dsimp only
    split
    · exact arm (.rtTimer p) (s.tick + 1) _ (fun _ _ => hl hv) (Nat.le_succ _) (Nat.lt_succ_self _) rfl
    · exact frame (Nat.le_succ _) rfl
  · exact refl s

include hW in
theorem refresh {p : Ptr} {lifetime : U32} (hl : lifetime.toNat ≤ deletePeriod) :
    Timed e W s (rtTableUpdateTimeout e s p lifetime) := by
  have hshort := short_lifetime hl
  refine updateTimeout fun _ => hW _ (long_nonneg e hshort) ?_
  cases e.arch with
  | long32 =>
      change lifetime.toInt ≤ _
      rw [BitVec.toInt_eq_toNat_of_lt (by omega)]
      exact hl
  | long64 => exact hl

include hW in
theorem lb (h : Lb e s s') : Timed e W s s' := by
  cases h with
  | tock => exact frame (Nat.le_succ _) rfl
  | down hp hv => exact invalidate hW _
  | @repair p hp hv =>
      have hmark : Timed e W s (markRepair s p) := frame (Nat.le_refl _) rfl
      exact hmark.trans (invalidate hW p)
  | destroy | rerrNew | rerrAdd => exact frame (Nat.le_refl _) rfl
  | rerrSend => exact socketSend _ _ _ _

include hW in
theorem lbs (h : ReflTransGen (Lb e) s s') : Timed e W s s' := by
  induction h with
  | refl => exact refl s
  | tail _ h ih => exact ih.trans (lb hW h)

include hW in
theorem repairTimeout (p : Ptr) : Timed e W s (localRepairTimeout e s p) := by
  have hmark : Timed e W s (s.setRt p { s.rt p with
      flags := { (s.rt p).flags with repair := false } }) := frame (Nat.le_refl _) rfl
  have hover : Timed e W s (repairOver e s p) := hmark.trans (nlSendBoth _ _)
  have hreport (s : Daemon) : Timed e W s (repairReport e s p) := by
    rw [repairReport]
    dsimp only
    split
    · have hnew : Timed e W s (rerrCreate s false (s.rt p).destAddr (s.rt p).destSeqno).1 :=
        frame (Nat.le_refl _) rfl
      exact hnew.trans (socketSend _ _ _ _)
    · exact refl s
  have hdestroy (s : Daemon) : Timed e W s (precursorListDestroy s p) := frame (Nat.le_refl _) rfl
  have hdelete (s : Daemon) : Timed e W s (armDelete e s p) := by
    have hhandler : Timed e W s { s with
        timers := setHandler s.timers (.rtTimer p) .routeDeleteTimeout } :=
      handler (.rtTimer p) _ (Nat.le_refl _) rfl
    exact hhandler.trans (arm (.rtTimer p) s.tick deletePeriod
      (fun _ _ => hW _ (by decide) (Int.le_refl _)) (Nat.le_refl _) (Nat.lt_succ_self _) rfl)
  exact ((hover.trans (hreport _)).trans (hdestroy _)).trans (hdelete _)

include hW in
theorem helloTimeout {p : Ptr} (hp : Linked s.rtTbl p) : Timed e W s (helloTimeout e s p) := by
  have htock : Timed e W s s.tock := frame (Nat.le_succ _) rfl
  have hmark : Timed e W s.tock (markRepair s.tock p) := frame (Nat.le_refl _) rfl
  rw [Aodv.helloTimeout]
  dsimp only
  split
  · split
    · exact htock.trans (hmark.trans (lbs hW (lb_linkBreak e hp)))
    · exact htock.trans (lbs hW (lb_linkBreak e hp))
  · exact htock

theorem delete (p : Ptr) : Timed e W s (rtTableDelete e s p) := by
  have hticks : s.tick ≤ (rtTableDelete e s p).tick := by
    rw [rtTableDelete]
    dsimp only
    split
    · exact Nat.le_refl _
    · dsimp only
      refine tick_delRoute e _ _ _ ?_
      exact Nat.le_refl _
  let q₁ := timerRemove s.timers (.rtTimer p)
  let q₂ := timerRemove q₁ (.helloTimer p)
  have h₁ : Timed e W s { s with timers := q₁ } := remove (.rtTimer p) (Nat.le_refl _) rfl
  have h₂ : Timed e W { s with timers := q₁ } { s with timers := q₂ } :=
    remove (.helloTimer p) (Nat.le_refl _) rfl
  exact (h₁.trans h₂).trans (remove (.ackTimer p) hticks (timers_delete e s p))

theorem routeFound (p : Ptr) : Timed e W s (routeFound s p) := by
  rw [Aodv.routeFound]
  split
  · cases seekListCheck s (s.rt p).destAddr with
    | none => exact refl s
    | some q => exact remove (.seekTimer q) (Nat.le_refl _) rfl
  · exact refl s

theorem linkEntry (hs : WellFormed s) (r : RtEntry) : Timed e W s (linkEntry s r) := by
  have hidle (t : TimerId) (ht : Owns s t → Linked s.rtTbl s.brk) : ¬ Pending s.timers t :=
    fun hp => hs.brk_not_linked (ht (hs.owned t hp))
  let q₁ := timerInit s.timers (.rtTimer s.brk) .routeExpireTimeout (.obj s.brk)
  let q₂ := timerInit q₁ (.ackTimer s.brk) .rrepAckTimeout (.obj s.brk)
  have h₁ : Timed e W s { s with timers := q₁ } :=
    init (.rtTimer s.brk) _ _ (hidle _ id) (Nat.le_refl _) rfl
  have h₂ : Timed e W { s with timers := q₁ } { s with timers := q₂ } :=
    init (.ackTimer s.brk) _ _ (hidle _ id) (Nat.le_refl _) rfl
  exact (h₁.trans h₂).trans (init (.helloTimer s.brk) _ _ (hidle _ id) (Nat.le_refl _) rfl)

include hW in
theorem insertEntry (hs : WellFormed s) (r : RtEntry) (hops : U32) {lifetime : U32}
    (hl : r.state = .valid → W (e.arch.long lifetime)) :
    Timed e W s (insertEntry e s r hops lifetime) := by
  have hopen : Timed e W (Aodv.linkEntry s r) (openEntry e (Aodv.linkEntry s r) s.brk hops lifetime).1 ∧
      W (e.arch.long (openEntry e (Aodv.linkEntry s r) s.brk hops lifetime).2) := by
    rw [openEntry, rt_linkEntry_self]
    cases hv : r.state with
    | valid =>
        have hcount : Timed e W (Aodv.linkEntry s r) { Aodv.linkEntry s r with
            rtTbl := { (Aodv.linkEntry s r).rtTbl with
              numActive := (Aodv.linkEntry s r).rtTbl.numActive + 1 } } := frame (Nat.le_refl _) rfl
        exact ⟨hcount.trans (nlSendBoth _ _), hl hv⟩
    | invalid =>
        have hconst : W (e.arch.long (u32 activeRouteTimeout)) ∧
            W (e.arch.long (u32 deletePeriod)) := by
          cases e.arch <;> exact ⟨hW _ (by decide) (by decide), hW _ (by decide) (by decide)⟩
        dsimp only
        split
        · exact ⟨handler (.rtTimer s.brk) _ (Nat.le_refl _) rfl, hconst.1⟩
        · exact ⟨handler (.rtTimer s.brk) _ (Nat.le_refl _) rfl, hconst.2⟩
  have harm (s : Daemon) (p : Ptr) (l : U32) (hl : W (e.arch.long l)) :
      Timed e W s (armEntry e s p l) := by
    rw [armEntry]
    split
    · exact arm (.rtTimer p) s.tick _ (fun _ _ => hl) (Nat.le_refl _) (Nat.lt_succ_self _) rfl
    · exact refl s
  exact (((linkEntry hs r).trans hopen.1).trans (harm _ _ _ hopen.2)).trans (routeFound _)

theorem updateBegin (p : Ptr) (next : Addr) (hops lifetime : U32) (state : RtState)
    (flags : RtFlags) : Timed e W s (updateBegin e s p next hops lifetime state flags).1 := by
  rw [Aodv.updateBegin]
  dsimp only
  split
  · have hcount : Timed e W s { s with rtTbl := { s.rtTbl with
        numActive := s.rtTbl.numActive + 1 } } := frame (Nat.le_refl _) rfl
    exact hcount.trans (nlSendBoth _ _)
  · split
    · exact nlSendBoth _ _
    · exact refl s

include hW in
theorem updateBreak {p : Ptr} (hops : U32) (hp : Linked s.rtTbl p) :
    Timed e W s (updateBreak e s p hops) := by
  rw [Aodv.updateBreak]
  dsimp only
  split
  · have hclear : Timed e W s { s.setRt p { s.rt p with
        lastHelloTime := ⟨0, 0⟩, helloCnt := 0 } with
        timers := timerRemove s.timers (.helloTimer p) } :=
      remove (.helloTimer p) (Nat.le_refl _) rfl
    exact hclear.trans (lbs hW (lb_linkBreak e hp))
  · exact refl s

theorem updateFinish (p : Ptr) (next : Addr) (hops seqno : U32) {lifetime : U32} (state : RtState)
    (flags : RtFlags) (hl : (s.rt p).state = .valid → W (e.arch.long lifetime)) :
    Timed e W s (updateFinish e s p next hops seqno lifetime state flags) := by
  have hwrite : Timed e W s (writeUpdate s p next hops seqno flags) :=
    handler (.rtTimer p) _ (Nat.le_refl _) rfl
  have hstate : ((writeUpdate s p next hops seqno flags).rt p).state = (s.rt p).state := by
    change ((s.setRt p _).rt p).state = _
    rw [rt_setRt_self]
  obtain ⟨s₁, hs₁, heq⟩ := updateFinish_eq e (s := s) (p := p) next hops seqno lifetime state flags
  have hmid : Timed e W s s₁ := by
    rcases hs₁ with rfl | rfl
    · exact hwrite
    · exact hwrite.trans (updateTimeout fun hv => hl (hstate ▸ hv))
  have hset : Timed e W s₁ (setState s₁ p state) := frame (Nat.le_refl _) rfl
  rw [heq]
  exact (hmid.trans hset).trans (routeFound p)

include hW in
/-- The lifetime of an update counts only for a VALID entry that keeps its link. -/
theorem update (hs : WellFormed s) {p : Ptr} (hp : Linked s.rtTbl p) (next : Addr)
    (hops seqno : U32) {lifetime : U32} (state : RtState) (flags : RtFlags)
    (hl : (s.rt p).state = .valid → ¬ (1 < hops ∧ (s.rt p).hopcnt = 1) → W (e.arch.long lifetime)) :
    Timed e W s (rtTableUpdate e s p next hops seqno lifetime state flags) := by
  obtain ⟨s₁, f, hs₁, -, hrt, -, hw₁, htbl, -, heq⟩ :=
    update_parts e hs hp next hops seqno lifetime state flags
  have hp₁ : Linked s₁.rtTbl p := by
    rw [Linked, htbl]
    exact hp
  have hobs : Timed e W s (s.observe (.rtUpdate p (s.rt p) next hops seqno lifetime state flags)) :=
    frame (Nat.le_refl _) rfl
  have hbegin : Timed e W s s₁ := by
    rw [hs₁]
    exact hobs.trans (updateBegin _ _ _ _ _ _)
  rw [heq]
  refine (hbegin.trans (updateBreak hW hops hp₁)).trans
    (updateFinish p next hops seqno state f fun hv => ?_)
  by_cases hd : 1 < hops ∧ (s₁.rt p).hopcnt = 1
  · rw [(demoted_down hw₁ hp₁ hd).1] at hv
    cases hv
  · rw [updateBreak_same e hd, hrt] at hv
    rw [hrt] at hd
    exact hl hv hd

include hW in
theorem quiet {ev : Event} (h : Quiet e ev s s') (hs : WellFormed s) : Timed e W s s' := by
  cases h with
  | lb h => exact lb hW h
  | updateTimeout hl hp => exact refresh hW hl
  | precursor =>
      simp only [precursorAdd]
      split
      · exact refl s
      · exact frame (Nat.le_refl _) rfl
  | @helloArm p now time hp hh =>
      exact arm (.helloTimer p) s.tick _ (by simp) (Nat.le_refl _) (Nat.lt_succ_self _) rfl
  | helloCount | unidir | unidirBreak | answer | rerrSeqno | rrepWrite =>
      exact frame (Nat.le_refl _) rfl
  | dropHello | dropAck | expireIdle => exact remove _ (Nat.le_refl _) rfl
  | @armAck p hp =>
      exact arm (.ackTimer p) s.tick nextHopWait (by simp) (Nat.le_refl _) (Nat.lt_succ_self _) rfl
  | repairTimeout => exact repairTimeout hW _
  | delete => exact delete _
  | @helloFire p hp =>
      have hpop : Timed e W s (pop s (.helloTimer p)) := remove _ (Nat.le_refl _) rfl
      exact hpop.trans (helloTimeout hW (hs.owned _ hp))
  | dropRecord c => exact remove (.recTimer c) (Nat.le_refl _) rfl
  | dropBlacklist c => exact remove (.blTimer c) (Nat.le_refl _) rfl
  | blacklist dest =>
      rw [rreqBlacklistInsert]
      split
      · exact refl s
      · have hidle : ¬ Pending s.timers (.blTimer s.brk) := by
          intro hp
          obtain ⟨b, hb, hptr⟩ := hs.owned _ hp
          exact Nat.lt_irrefl _ (hptr ▸ hs.blacklistBelow b hb)
        exact start (.blTimer s.brk) .rreqBlacklistTimeout (.obj s.brk) blacklistTimeout (by simp) hidle
          (Nat.lt_succ_self _) rfl
  | armLog msec => exact arm .rtLogTimer s.tick _ (by simp) (Nat.le_refl _) (Nat.lt_succ_self _) rfl
  | armWorb msec => exact arm .worbTimer s.tick _ (by simp) (Nat.le_refl _) (Nat.lt_succ_self _) rfl
  | rrepSend => exact socketSend _ _ _ _
  | rrepAck p =>
      have hwrite : Timed e W s (rrepAckCreate s) := frame (Nat.le_refl _) rfl
      exact hwrite.trans (socketSend _ _ _ _)
  | relay buf len hopcnt dest ttl =>
      have hwrite : Timed e W s { s with sendBuf := store (copy s.sendBuf buf len) 3 hopcnt } :=
        frame (Nat.le_refl _) rfl
      exact hwrite.trans (socketSend _ _ _ _)

end Timed

inductive Gives (e : Env) (ev : Event) (s : Daemon) : Daemon → U32 → Prop
  | insert {src : Source} {dest next : Addr} {hops seqno lifetime : U32} {state : RtState} {p : Ptr}
      (hl : Learned s.host.ipaddr ev 0 src dest next hops seqno lifetime)
      (hi : (rtTableInsert e s dest next hops seqno lifetime state .zero).2 = some p) :
      Gives e ev s (rtTableInsert e s dest next hops seqno lifetime state .zero).1 lifetime
  | update {p : Ptr} {src : Source} {next : Addr} {hops seqno lifetime : U32}
      (hp : Linked s.rtTbl p)
      (hl : Learned s.host.ipaddr ev (s.rt p).destSeqno src (s.rt p).destAddr next hops seqno lifetime)
      (hv : (s.rt p).state = .valid) (hd : ¬ (1 < hops ∧ (s.rt p).hopcnt = 1)) :
      Gives e ev s (rtTableUpdate e s p next hops seqno lifetime .valid (s.rt p).flags) lifetime

namespace Timed

variable {e : Env} {W : Int → Prop} {s s' : Daemon} {ev : Event}
  (hW : ∀ msec, 0 ≤ msec → msec ≤ deletePeriod → W msec)

include hW in
theorem fine (h : Fine e ev s s') (hs : WellFormed s)
    (hl : ∀ lifetime, Gives e ev s s' lifetime → W (e.arch.long lifetime)) : Timed e W s s' := by
  cases h with
  | quiet h => exact quiet hW h hs
  | @insert src dest next hops seqno lifetime state hlearned =>
      obtain hi | ⟨_, hi⟩ := rtTableInsert_cases e s dest next hops seqno lifetime state .zero
      · rw [hi]
        exact refl s
      · have hgives := hl lifetime (.insert hlearned (congrArg Prod.snd hi))
        have hobs : Timed e W s (s.observe (.rtInsert dest next hops seqno lifetime state .zero)) :=
          frame (Nat.le_refl _) rfl
        rw [hi]
        exact hobs.trans (insertEntry hW ((Kept.observe s _).wellFormed hs) _ _ fun _ => hgives)
  | @update p src next hops seqno lifetime hp hlearned =>
      exact update hW hs hp _ _ _ _ _ fun hv hd => hl lifetime (.update hp hlearned hv hd)
  | @record pkt =>
      rw [rreqRecordInsert]
      split
      · exact frame (Nat.le_refl _) rfl
      · have hobs : Timed e W s (s.observe (.rreqAccepted (rreqOf pkt.buf) pkt.src)) :=
          frame (Nat.le_refl _) rfl
        have hidle : ¬ Pending s.timers (.recTimer s.brk) := by
          intro hp
          obtain ⟨r, hr, hptr⟩ := hs.owned _ hp
          exact Nat.lt_irrefl _ (hptr ▸ hs.recordBelow r hr)
        exact hobs.trans (start (.recTimer s.brk) .rreqRecordTimeout (.obj s.brk)
          pathDiscoveryTime (by simp) hidle (Nat.lt_succ_self _) rfl)
  | forUs | discovery | seekCount => exact frame (Nat.le_refl _) rfl
  | rreqSend dest seqno ttl flags hseq =>
      rw [Aodv.rreqSend]
      split
      · have hwrite : Timed e W s (rreqCreate s flags dest seqno s.host.ipaddr).1 :=
          frame (Nat.le_refl _) rfl
        exact hwrite.trans (socketSend _ _ _ _)
      · exact refl s
  | @seekNew dest seqno ttl flags msec _ _ _ _ =>
      have hidle : ¬ Pending s.timers (.seekTimer s.brk) :=
        fun hp => Nat.lt_irrefl _ (hs.seekBelow _ (hs.owned _ hp))
      exact start (.seekTimer s.brk) .routeDiscoveryTimeout (.obj s.brk) msec (by simp) hidle
        (Nat.lt_succ_self _) rfl
  | @seekRing q ttl msec _ _ _ =>
      have hpop : Timed e W s (pop s (.seekTimer q)).tock := remove _ (Nat.le_succ _) rfl
      exact hpop.trans (arm (.seekTimer q) (s.tick + 1) msec (by simp) (Nat.le_refl _)
        (Nat.lt_succ_self _) rfl)
  | @seekFail q _ =>
      have hpop : Timed e W s (pop s (.seekTimer q)).tock := remove _ (Nat.le_succ _) rfl
      have hsend : Timed e W (pop s (.seekTimer q)).tock (nlSendNoRouteFoundMsg e
          ((pop s (.seekTimer q)).tock.observe (.discoveryFailed q)) (s.seek q).destAddr) :=
        frame (Nat.le_succ _) rfl
      exact (hpop.trans hsend).trans (remove (.seekTimer q) (Nat.le_refl _) rfl)
  | @repairStart p _ _ => exact handler (.rtTimer p) .routeExpireTimeout (Nat.le_refl _) rfl

end Timed

theorem fines_of_coarses {e : Env} {ev : Event} {s s' : Daemon}
    (h : ReflTransGen (Coarse e ev) s s') (hs : WellFormed s) : ReflTransGen (Fine e ev) s s' := by
  induction h with
  | refl => exact .refl
  | tail hrun h ih => exact ih.trans (coarse_fines h (coarses_sound hrun hs).wellFormed)

def Free : Int → Prop := fun _ => True

theorem Timed.coarses {e : Env} {ev : Event} {s s' : Daemon} (h : ReflTransGen (Coarse e ev) s s')
    (hs : WellFormed s) : Timed e Free s s' := by
  have hfines := fines_of_coarses h hs
  clear h
  induction hfines with
  | refl => exact .refl s
  | tail h' h ih =>
      exact ih.trans (.fine (fun _ _ _ => trivial) h (fines_sound h' hs).wellFormed fun _ _ => trivial)

theorem call_outer (a : Arch) (q : TimerQueue) {o : List (List TimerId)} (ho : ∀ l ∈ o, l = [])
    (c : Call) :
    Timers.call a ⟨q, o⟩ c = ⟨(Timers.call a ⟨q, []⟩ c).q, o⟩ := by
  have hfilter (t : TimerId) : o.map (fun l => l.filter (· ≠ t)) = o := by
    have hid : ∀ l ∈ o, l.filter (· ≠ t) = id l := by
      intro l hl
      rw [ho l hl]
      rfl
    rw [List.map_congr_left hid, List.map_id]
  cases c with
  | init t f data => cases f <;> rfl
  | add t => rfl
  | setHandler t f => rfl
  | remove t =>
      change (⟨_, _⟩ : Timers) = _
      rw [hfilter]
      rfl
  | setTimeout now t msec =>
      simp only [Timers.call, Timers.remove]
      rw [hfilter]
      split <;> rfl

theorem lists_outer (q : TimerQueue) {o : List (List TimerId)} (ho : ∀ l ∈ o, l = []) :
    Timers.lists ⟨q, o⟩ = Timers.lists ⟨q, []⟩ := by
  have hflatten : o.flatten = [] := List.flatten_eq_nil_iff.2 ho
  simp [Timers.lists, hflatten]

theorem reached_calls {a : Arch} {q q' : TimerQueue} {o : List (List TimerId)} (ho : ∀ l ∈ o, l = [])
    {cs : List Call} (h : Reached a ⟨q, o⟩) (hok : Permitted a ⟨q, []⟩ cs)
    (hrun : cs.foldl (Timers.call a) ⟨q, []⟩ = ⟨q', []⟩) : Reached a ⟨q', o⟩ := by
  induction cs generalizing q with
  | nil =>
      obtain rfl : q = q' := congrArg Timers.q hrun
      exact h
  | cons c cs ih =>
      have hallowed : c.Allowed ⟨q, o⟩ := by
        cases c with
        | init t f data =>
            change t ∉ Timers.lists _
            rw [lists_outer q ho]
            exact hok.1
        | setTimeout | add | remove | setHandler => trivial
      have hone : Timers.call a ⟨q, []⟩ c = ⟨(Timers.call a ⟨q, []⟩ c).q, []⟩ :=
        call_outer a q (fun _ hl => absurd hl List.not_mem_nil) c
      have hreach := h.call c hallowed
      rw [call_outer a q ho] at hreach
      rw [List.foldl_cons, hone] at hrun
      have hrest : Permitted a (Timers.call a ⟨q, []⟩ c) cs := hok.2
      rw [hone] at hrest
      exact ih hreach hrest hrun

theorem Timed.reached {e : Env} {W : Int → Prop} {s s' : Daemon} (h : Timed e W s s')
    {o : List (List TimerId)}
    (ho : ∀ l ∈ o, l = []) (hs : Reached e.arch ⟨s.timers, o⟩) : Reached e.arch ⟨s'.timers, o⟩ := by
  obtain ⟨cs, hok, -, hrun⟩ := h.calls
  exact reached_calls ho hs hok hrun

theorem Timed.reached_batch {e : Env} {W : Int → Prop} {s s' : Daemon} {now : Timeval}
    (h : Timed e W (Aodv.takeDue e.arch now s) s') (hq : s.timers.exptq = [])
    (hq' : s'.timers.exptq = []) (hs : Reached e.arch ⟨s.timers, []⟩) :
    Reached e.arch ⟨s'.timers, []⟩ := by
  have hdue : Reached e.arch ⟨(Aodv.takeDue e.arch now s).timers, [s.timers.exptq]⟩ := hs.takeDue now
  have hempty : ∀ l ∈ [s.timers.exptq], l = [] := by
    intro l hl
    rw [List.mem_singleton.1 hl, hq]
  have hleave := (h.reached hempty hdue).leave hq'
  rw [hq] at hleave
  have hsame : (⟨{ s'.timers with exptq := [] }, []⟩ : Timers) = ⟨s'.timers, []⟩ := by
    rw [← hq']
  rw [← hsame]
  exact hleave

theorem reached_init (e : Env) (ipaddr broadcast : Addr) (ifindex : Int) :
    Reached e.arch ⟨(init e ipaddr broadcast ifindex).timers, []⟩ := by
  have hstart : Reached e.arch ⟨noTimers, []⟩ := .start noTimers rfl rfl fun _ => rfl
  have hinit := hstart.call (.init .rtLogTimer (some .printRtTable) .null) List.not_mem_nil
  have hset := hinit.call (.setTimeout (e.clock 0) .rtLogTimer rtLogInterval) trivial
  rw [show Timers.call e.arch ⟨noTimers, []⟩ (.init .rtLogTimer (some .printRtTable) .null) =
    ⟨timerInit noTimers .rtLogTimer .printRtTable .null, []⟩ from rfl, call_setTimeout] at hset
  exact hset

/-- The timers of the daemon between two events. -/
theorem timers_reached {e : Env} {s : Daemon} (h : Reachable e s) : Reached e.arch ⟨s.timers, []⟩ := by
  refine Reachable.events (I := fun s => Reached e.arch ⟨s.timers, []⟩) (reached_init e) ?_ h
  intro s ev hrest ih
  obtain ⟨s₁, hfrom, hcoarse, hbatch⟩ :=
    coarses_step (e := e) hrest.wellFormed hrest.batch ev
  rcases hfrom with rfl | ⟨now, rfl⟩
  · have htimed := Timed.coarses hcoarse hrest.wellFormed
    exact htimed.reached (fun _ hl => absurd hl List.not_mem_nil) ih
  · have htimed := Timed.coarses hcoarse
      (wellFormed_takeDue _ now hrest.wellFormed hrest.batch)
    exact htimed.reached_batch hrest.batch hbatch ih

end Aodv.TimerSteps
