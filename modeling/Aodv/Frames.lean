import Aodv.TimerSteps

namespace Aodv.Frames

open Lib.Bytes
open Relation

structure Leaves (u : TimerId) (q q' : TimerQueue) : Prop where
  timer : q'.timer u = q.timer u
  pending : Pending q' u ↔ Pending q u

namespace Leaves

variable {u t : TimerId} {q q' q'' : TimerQueue}

theorem refl : Leaves u q q := ⟨rfl, Iff.rfl⟩

theorem trans (h : Leaves u q q') (h' : Leaves u q' q'') : Leaves u q q'' :=
  ⟨h'.timer.trans h.timer, h'.pending.trans h.pending⟩

theorem timerRemove (q : TimerQueue) (h : u ≠ t) : Leaves u q (timerRemove q t) := by
  refine ⟨timer_timerRemove_ne q h, ?_⟩
  rw [pending_timerRemove]
  exact and_iff_left h

theorem setHandler (q : TimerQueue) (h : u ≠ t) (f : Handler) : Leaves u q (setHandler q t f) :=
  ⟨set_timer_ne q h _, Iff.rfl⟩

theorem timerInit (q : TimerQueue) (h : u ≠ t) (f : Handler) (data : Data) :
    Leaves u q (timerInit q t f data) := ⟨set_timer_ne q h _, Iff.rfl⟩

theorem timerSetTimeout {a : Arch} (q : TimerQueue) (h : u ≠ t) (now : Timeval) (msec : Int) :
    Leaves u q (timerSetTimeout a now q t msec) := by
  refine ⟨timer_timerSetTimeout_ne now q h msec, ?_⟩
  unfold Aodv.timerSetTimeout
  split <;> split <;> simp [pending_timerAdd, h]

end Leaves

/-- A timer of another kind than those an update of a route arms or removes. -/
structure Aside (u : TimerId) : Prop where
  route : ∀ p, u ≠ .rtTimer p
  hello : ∀ p, u ≠ .helloTimer p
  seek : ∀ k, u ≠ .seekTimer k

theorem aside_record (c : Ptr) : Aside (.recTimer c) := by
  constructor <;> simp

theorem aside_ack (p : Ptr) : Aside (.ackTimer p) := by
  constructor <;> simp

namespace Leaves

variable {e : Env} {u : TimerId} (h : Aside u)

include h

theorem updateTimeout (s : Daemon) (p : Ptr) (lifetime : U32) :
    Leaves u s.timers (rtTableUpdateTimeout e s p lifetime).timers := by
  rw [rtTableUpdateTimeout]
  split
  · dsimp only
    split
    · exact .timerSetTimeout s.timers (h.route p) _ _
    · exact .refl
  · exact .refl

theorem invalidate (s : Daemon) {p : Ptr} (hp : u ≠ .ackTimer p) :
    Leaves u s.timers (rtTableInvalidate e s p).timers := by
  rw [rtTableInvalidate]
  dsimp only
  cases (s.tock.rt p).state with
  | invalid => exact .refl
  | valid =>
      have hdown : Leaves u s.timers (Aodv.timerRemove (Aodv.timerRemove (Aodv.timerRemove s.timers
          (.rtTimer p)) (.helloTimer p)) (.ackTimer p)) :=
        ((timerRemove _ (h.route p)).trans (timerRemove _ (h.hello p))).trans (timerRemove _ hp)
      exact hdown.trans ((setHandler _ (h.route p) _).trans (timerSetTimeout _ (h.route p) _ _))

theorem routeFound (s : Daemon) (p : Ptr) : Leaves u s.timers (routeFound s p).timers := by
  rw [Aodv.routeFound]
  split
  · cases seekListCheck s (s.rt p).destAddr with
    | none => exact .refl
    | some q => exact timerRemove _ (h.seek q)
  · exact .refl

theorem insertEntry (s : Daemon) (r : RtEntry) (hops lifetime : U32) :
    Leaves u (linkEntry s r).timers (insertEntry e s r hops lifetime).timers := by
  have hopen (s : Daemon) (p : Ptr) : Leaves u s.timers (openEntry e s p hops lifetime).1.timers := by
    rw [openEntry]
    split
    · split <;> exact setHandler s.timers (h.route p) _
    · exact .refl
  have harm (s : Daemon) (p : Ptr) (msec : U32) : Leaves u s.timers (armEntry e s p msec).timers := by
    rw [armEntry]
    split
    · exact timerSetTimeout _ (h.route p) _ _
    · exact .refl
  rw [Aodv.insertEntry]
  exact ((hopen _ _).trans (harm _ _ _)).trans (routeFound h _ _)

theorem linkEntry (s : Daemon) (r : RtEntry) (hnew : u ≠ .ackTimer s.brk) :
    Leaves u s.timers (linkEntry s r).timers :=
  ((timerInit _ (h.route _) _ _).trans (timerInit _ hnew _ _)).trans (timerInit _ (h.hello _) _ _)

theorem updateFinish (s : Daemon) (p : Ptr) (next : Addr) (hops seqno lifetime : U32)
    (state : RtState) (flags : RtFlags) :
    Leaves u s.timers (updateFinish e s p next hops seqno lifetime state flags).timers := by
  have hwrite : Leaves u s.timers (writeUpdate s p next hops seqno flags).timers :=
    setHandler s.timers (h.route p) _
  obtain ⟨s₁, hs₁, heq⟩ := Aodv.updateFinish_eq e (s := s) (p := p) next hops seqno lifetime
    state flags
  have hmid : Leaves u s.timers s₁.timers := by
    rcases hs₁ with rfl | rfl
    · exact hwrite
    · exact hwrite.trans (updateTimeout h _ p lifetime)
  rw [heq]
  exact hmid.trans (routeFound h (setState s₁ p state) p)

theorem helloUpdate (s : Daemon) (p : Ptr) (now : Timeval) (time : Int) :
    Leaves u s.timers (helloUpdateTimeout e s p now time).timers :=
  timerSetTimeout s.timers (h.hello p) _ _

end Leaves

/-- The records, the blacklist and the timers of the records are as they were. -/
structure Books (s s' : Daemon) : Prop where
  tick : s.tick ≤ s'.tick
  records : s'.rreqRecords = s.rreqRecords
  blacklists : s'.rreqBlacklists = s.rreqBlacklists
  timers : ∀ c, Leaves (.recTimer c) s.timers s'.timers

namespace Books

variable {e : Env} {s s' s'' : Daemon} {p : Ptr}

theorem refl : Books s s := ⟨Nat.le_refl _, rfl, rfl, fun _ => .refl⟩

theorem trans (h : Books s s') (h' : Books s' s'') : Books s s'' :=
  ⟨Nat.le_trans h.tick h'.tick, h'.records.trans h.records, h'.blacklists.trans h.blacklists,
    fun c => (h.timers c).trans (h'.timers c)⟩

theorem same (hn : s.tick ≤ s'.tick) (hr : s'.rreqRecords = s.rreqRecords)
    (hb : s'.rreqBlacklists = s.rreqBlacklists) (ht : s'.timers = s.timers) : Books s s' := by
  refine ⟨hn, hr, hb, fun c => ?_⟩
  rw [ht]
  exact .refl

theorem prior {s₁ : Daemon} (h : Books s₁ s') (hn : s₁.tick = s.tick)
    (hr : s₁.rreqRecords = s.rreqRecords) (hb : s₁.rreqBlacklists = s.rreqBlacklists)
    (ht : s₁.timers = s.timers) : Books s s' :=
  (same (Nat.le_of_eq hn.symm) hr hb ht).trans h

theorem tock (s : Daemon) : Books s s.tock := .same (Nat.le_succ _) rfl rfl rfl

theorem pop (s : Daemon) {t : TimerId} (h : ∀ c, TimerId.recTimer c ≠ t) : Books s (pop s t) :=
  ⟨Nat.le_refl _, rfl, rfl, fun c => .timerRemove s.timers (h c)⟩

theorem arm {a : Arch} (s : Daemon) {t : TimerId} (h : ∀ c, TimerId.recTimer c ≠ t) (now : Timeval)
    (msec : Int) {n : Nat} (hn : s.tick ≤ n) :
    Books s { s with timers := timerSetTimeout a now s.timers t msec, tick := n } :=
  ⟨hn, rfl, rfl, fun c => .timerSetTimeout s.timers (h c) now msec⟩

theorem nlSendBoth (e : Env) (s : Daemon) (first second : Obs) :
    Books s (nlSendBoth e s first second) :=
  .same (TimerSteps.tick_nlSendBoth e s first second) rfl rfl rfl

theorem addRoute (e : Env) (s₁ : Daemon) (dest next : Addr) (metric : Int) (lifetime : U32)
    (flags : RtFlags) (ifindex : Int) (hn : s₁.tick = s.tick) (hr : s₁.rreqRecords = s.rreqRecords)
    (hb : s₁.rreqBlacklists = s.rreqBlacklists) (ht : s₁.timers = s.timers) :
    Books s (nlSendAddRouteMsg e s₁ dest next metric lifetime flags ifindex) :=
  (nlSendBoth e s₁ _ _).prior hn hr hb ht

theorem socketSend (e : Env) (s : Daemon) (msg : Msg) (dest : Addr) (len ttl : Int) :
    Books s (aodvSocketSend e s msg dest len ttl) :=
  .same (TimerSteps.tick_sendOutcome e s dest len.toNat) rfl rfl rfl

theorem setRt (s : Daemon) (p : Ptr) (r : RtEntry) :
    Books s (s.setRt p r) := .same (Nat.le_refl _) rfl rfl rfl

theorem updateTimeout (e : Env) (s : Daemon) (p : Ptr) (lifetime : U32) :
    Books s (rtTableUpdateTimeout e s p lifetime) := by
  rw [rtTableUpdateTimeout]
  split
  · dsimp only
    split
    · exact (tock s).trans (arm s.tock (by simp) _ _ (Nat.le_succ _))
    · exact tock s
  · exact .refl

theorem precursorAdd (s : Daemon) (p : Ptr) (addr : Addr) : Books s (precursorAdd s p addr) := by
  simp only [Aodv.precursorAdd]
  split
  · exact .refl
  · exact setRt s p _

theorem invalidate (e : Env) (s : Daemon) (p : Ptr) : Books s (rtTableInvalidate e s p) := by
  have hrest : s.tick ≤ (rtTableInvalidate e s p).tick ∧
      (rtTableInvalidate e s p).rreqRecords = s.rreqRecords ∧
      (rtTableInvalidate e s p).rreqBlacklists = s.rreqBlacklists := by
    simp only [rtTableInvalidate]
    cases (s.tock.rt p).state with
    | invalid => exact ⟨Nat.le_succ _, rfl, rfl⟩
    | valid => exact ⟨Nat.le_succ_of_le (TimerSteps.tick_delRoute e _ _ _ (Nat.le_succ _)), rfl, rfl⟩
  exact ⟨hrest.1, hrest.2.1, hrest.2.2, fun c => .invalidate (aside_record c) s (by simp)⟩

theorem lb (h : Lb e s s') : Books s s' := by
  cases h with
  | down => exact invalidate e s _
  | @repair p => exact (setRt s p _).trans (invalidate e _ p)
  | tock => exact tock s
  | rerrSend => exact socketSend e s _ _ _ _
  | destroy | rerrNew | rerrAdd => exact .same (Nat.le_refl _) rfl rfl rfl

theorem lbs (h : ReflTransGen (Lb e) s s') : Books s s' := by
  induction h with
  | refl => exact .refl
  | tail _ h ih => exact ih.trans (lb h)

theorem linkBreak (hp : Linked s.rtTbl p) : Books s (neighborLinkBreak e s p) :=
  lbs (lb_linkBreak e hp)

theorem delete (e : Env) (s : Daemon) (p : Ptr) : Books s (rtTableDelete e s p) := by
  have hrest : (rtTableDelete e s p).rreqRecords = s.rreqRecords ∧
      (rtTableDelete e s p).rreqBlacklists = s.rreqBlacklists := by
    simp only [rtTableDelete]
    split <;> exact ⟨rfl, rfl⟩
  have hticks : s.tick ≤ (rtTableDelete e s p).tick := by
    rw [rtTableDelete]
    dsimp only
    split
    · exact Nat.le_refl _
    · dsimp only
      refine TimerSteps.tick_delRoute e _ _ _ ?_
      exact Nat.le_refl _
  refine ⟨hticks, hrest.1, hrest.2, fun c => ?_⟩
  rw [timers_delete]
  exact ((Leaves.timerRemove _ (by simp)).trans (.timerRemove _ (by simp))).trans
    (.timerRemove _ (by simp))

theorem seekListRemove (s : Daemon) (o : Option Ptr) : Books s (seekListRemove s o) := by
  cases o with
  | none => exact .refl
  | some q => exact ⟨Nat.le_refl _, rfl, rfl, fun c => .timerRemove s.timers (by simp)⟩

theorem routeFound (s : Daemon) (p : Ptr) : Books s (routeFound s p) := by
  rw [Aodv.routeFound]
  split
  · exact seekListRemove s _
  · exact .refl

theorem insertEntry (e : Env) (s : Daemon) (r : RtEntry) (hops lifetime : U32) :
    Books s (insertEntry e s r hops lifetime) := by
  have hlink : Books s (linkEntry s r) := by
    refine ⟨Nat.le_refl _, rfl, rfl, fun c => ?_⟩
    exact ((Leaves.timerInit _ (by simp) _ _).trans (.timerInit _ (by simp) _ _)).trans
      (.timerInit _ (by simp) _ _)
  have hopen (s : Daemon) (p : Ptr) : Books s (openEntry e s p hops lifetime).1 := by
    rw [openEntry]
    split
    · split <;> exact ⟨Nat.le_refl _, rfl, rfl, fun c => .setHandler s.timers (by simp) _⟩
    · exact addRoute e _ _ _ _ _ _ _ rfl rfl rfl rfl
  have harm (s : Daemon) (p : Ptr) (msec : U32) : Books s (armEntry e s p msec) := by
    rw [armEntry]
    split
    · exact arm s (by simp) _ _ (Nat.le_succ _)
    · exact .refl
  rw [Aodv.insertEntry]
  exact ((hlink.trans (hopen _ _)).trans (harm _ _ _)).trans (routeFound _ _)

theorem insert (e : Env) (s : Daemon) (dest next : Addr) (hops seqno lifetime : U32)
    (state : RtState) (flags : RtFlags) :
    Books s (rtTableInsert e s dest next hops seqno lifetime state flags).1 := by
  obtain h | ⟨_, h⟩ := rtTableInsert_cases e s dest next hops seqno lifetime state flags
  · rw [h]
    exact .refl
  · rw [h]
    have hobs : Books s (s.observe (.rtInsert dest next hops seqno lifetime state flags)) :=
      .same (Nat.le_refl _) rfl rfl rfl
    exact hobs.trans (insertEntry e _ _ hops lifetime)

theorem updateBegin (e : Env) (s : Daemon) (p : Ptr) (next : Addr) (hops lifetime : U32)
    (state : RtState) (flags : RtFlags) :
    Books s (updateBegin e s p next hops lifetime state flags).1 := by
  rw [Aodv.updateBegin]
  dsimp only
  split
  · exact addRoute e _ _ _ _ _ _ _ rfl rfl rfl rfl
  · split
    · exact addRoute e _ _ _ _ _ _ _ rfl rfl rfl rfl
    · exact .refl

theorem updateBreak (hp : Linked s.rtTbl p) (hops : U32) : Books s (updateBreak e s p hops) := by
  rw [Aodv.updateBreak]
  dsimp only
  split
  · have hpop : Books s (Aodv.pop (s.setRt p { s.rt p with lastHelloTime := ⟨0, 0⟩, helloCnt := 0 })
        (.helloTimer p)) := (setRt s p _).trans (pop _ (by simp))
    exact hpop.trans (linkBreak (s := Aodv.pop (s.setRt p _) (.helloTimer p)) hp)
  · exact .refl

theorem updateFinish (e : Env) (s : Daemon) (p : Ptr) (next : Addr) (hops seqno lifetime : U32)
    (state : RtState) (flags : RtFlags) :
    Books s (updateFinish e s p next hops seqno lifetime state flags) := by
  have hwrite : Books s (writeUpdate s p next hops seqno flags) :=
    ⟨Nat.le_refl _, rfl, rfl, fun c => .setHandler s.timers (by simp) _⟩
  obtain ⟨s₁, hs₁, heq⟩ := Aodv.updateFinish_eq e (s := s) (p := p) next hops seqno lifetime
    state flags
  have hmid : Books s s₁ := by
    rcases hs₁ with rfl | rfl
    · exact hwrite
    · exact hwrite.trans (updateTimeout e _ p lifetime)
  rw [heq]
  exact (hmid.trans (setRt s₁ p _)).trans (routeFound _ p)

theorem update (hp : Linked s.rtTbl p) (next : Addr) (hops seqno lifetime : U32)
    (state : RtState) (flags : RtFlags) :
    Books s (rtTableUpdate e s p next hops seqno lifetime state flags) := by
  have hobs := Kept.observe s (.rtUpdate p (s.rt p) next hops seqno lifetime state flags)
  have hbegin := hobs.trans (kept_updateBegin e _ p next hops lifetime state flags)
  have hfirst : Books s (s.observe (.rtUpdate p (s.rt p) next hops seqno lifetime state flags)) :=
    .same (Nat.le_refl _) rfl rfl rfl
  rw [rtTableUpdate]
  exact ((hfirst.trans (updateBegin e _ p next hops lifetime state flags)).trans
    (updateBreak ((hbegin.keys.linked p).2 hp) hops)).trans (updateFinish e _ p _ _ _ _ _ _)

theorem helloUpdate (e : Env) (s : Daemon) (p : Ptr) (now : Timeval) (time : Int) :
    Books s (helloUpdateTimeout e s p now time) := by
  have harm : Books s { s with
      timers := timerSetTimeout e.arch (e.clock s.tick) s.timers (.helloTimer p) (time + helloDelay)
      tick := s.tick + 1 } := arm s (by simp) _ _ (Nat.le_succ _)
  exact harm.trans (setRt _ p _)

theorem neighborRefresh (e : Env) (s : Daemon) (p : Ptr) (now : Timeval) :
    Books s (neighborRefresh e s p now) := by
  rw [Aodv.neighborRefresh]
  split
  · exact helloUpdate e s p now _
  · exact .refl

theorem neighborAdd (e : Env) (s : Daemon) (src : Addr) : Books s (neighborAdd e s src) := by
  rw [Aodv.neighborAdd]
  dsimp only
  cases hc : rtTableCheck s.tock.rtTbl src with
  | none =>
      have hins := insert e s.tock src src 1 0 (u32 activeRouteTimeout) .valid .zero
      dsimp only
      obtain ⟨s₁, o, hi⟩ : ∃ s₁ o, rtTableInsert e s.tock src src 1 0 (u32 activeRouteTimeout) .valid
          .zero = (s₁, o) := ⟨_, _, rfl⟩
      rw [hi] at hins ⊢
      cases o with
      | none => exact (tock s).trans hins
      | some p => exact ((tock s).trans hins).trans (neighborRefresh e s₁ p _)
  | some p =>
      dsimp only
      split
      · exact (tock s)
      · exact ((tock s).trans (update (rtTableCheck_some hc).1 _ _ _ _ _ _)).trans
          (neighborRefresh e _ p _)

theorem helloProcess (e : Env) (s : Daemon) (buf : Buf) : Books s (helloProcess e s buf) := by
  rw [Aodv.helloProcess]
  dsimp only
  cases hc : rtTableCheck s.tock.rtTbl (rrepOf buf).destAddr with
  | none =>
      dsimp only
      generalize u32 (allowedHelloLoss * helloInterval + routeTimeoutSlack) = timeout
      generalize (if e.receiveNHellos ≠ 0 then RtState.invalid else .valid) = state
      have hins := insert e s.tock (rrepOf buf).destAddr (rrepOf buf).destAddr 1 (rrepOf buf).destSeqno
        timeout state .zero
      obtain ⟨s₁, o, hi⟩ : ∃ s₁ o, rtTableInsert e s.tock (rrepOf buf).destAddr (rrepOf buf).destAddr 1
          (rrepOf buf).destSeqno timeout state .zero = (s₁, o) := ⟨_, _, rfl⟩
      rw [hi] at hins ⊢
      cases o with
      | none => exact (tock s).trans hins
      | some p => exact ((tock s).trans hins).trans (setRt s₁ p _)
  | some p =>
      dsimp only
      refine (tock s).trans ?_
      rw [helloKnown]
      dsimp only
      split
      · exact helloUpdate e _ p _ _
      · split
        · exact setRt _ p _
        · exact (update (rtTableCheck_some hc).1 _ _ _ _ _ _).trans (helloUpdate e _ p _ _)

theorem rreqReverse (e : Env) (s : Daemon) (m : RREQ) (src : Addr) :
    Books s (rreqReverse e s m src).1 := by
  rw [Aodv.rreqReverse]
  dsimp only
  cases hc : rtTableCheck s.rtTbl m.origAddr with
  | none => exact insert e s _ _ _ _ _ _ _
  | some p =>
      dsimp only
      split
      · exact update (rtTableCheck_some hc).1 _ _ _ _ _ _
      · exact .refl

theorem rrepUnidir (e : Env) (s : Daemon) (rev : Ptr) : Books s (rrepUnidir e s rev) := by
  rw [Aodv.rrepUnidir]
  split
  · cases hn : rtTableCheck s.rtTbl (s.rt rev).nextHop with
    | none => exact .refl
    | some n =>
        dsimp only
        split
        · let s₁ := s.observe (.unidirBreak (linkBreakReports s n))
          let s₂ := s₁.setRt n { s.rt n with flags := { (s.rt n).flags with unidir := true } }
          have hmark : Books s (Aodv.pop s₂ (.helloTimer n)) :=
            (pop s₂ (by simp)).prior rfl rfl rfl rfl
          have hbreak : Books s (neighborLinkBreak e (Aodv.pop s₂ (.helloTimer n)) n) :=
            hmark.trans (linkBreak (rtTableCheck_some hn).1)
          exact hbreak.trans (arm _ (by simp) _ _ (Nat.le_succ _))
        · exact .refl
  · exact .refl

theorem rrepSend (e : Env) (s : Daemon) (m : RREP) (rev : Ptr) (fwd : Option Ptr) (len : Int) :
    Books s (rrepSend e s m rev fwd len) := by
  have hsend := (rrepUnidir e s rev).trans (socketSend e (Aodv.rrepUnidir e s rev) (.rrep m)
    ((Aodv.rrepUnidir e s rev).rt rev).nextHop len maxTtl)
  cases fwd with
  | none => exact hsend
  | some f => exact (hsend.trans (precursorAdd _ _ _)).trans (precursorAdd _ _ _)

theorem rreqForUs (e : Env) (s : Daemon) (m : RREQ) (rev : Ptr) : Books s (rreqForUs e s m rev) := by
  simp only [Aodv.rreqForUs, rrepCreate_eq]
  exact (rrepSend e _ _ _ _ _).prior rfl rfl rfl rfl

theorem rreqAnswer (e : Env) (s : Daemon) (m : RREQ) (rev fwd : Ptr) (now : Timeval) :
    Books s (rreqAnswer e s m rev fwd now) := by
  have hreply (s : Daemon) (buf : Buf) (m : RREP) (rev : Ptr) (fwd : Option Ptr) :
      Books s (Aodv.rrepSend e { s with sendBuf := buf } m rev fwd rrepSize) :=
    (rrepSend e _ m rev fwd _).prior rfl rfl rfl rfl
  have hobs : Books s (s.observe (.answer (s.timer (.rtTimer fwd)).timeout now)) :=
    .same (Nat.le_refl _) rfl rfl rfl
  simp only [Aodv.rreqAnswer, rrepCreate_eq]
  split
  · exact hobs.trans ((hreply _ _ _ _ _).trans (hreply _ _ _ _ _))
  · exact hobs.trans (hreply _ _ _ _ _)

theorem rreqPassOn (e : Env) (s : Daemon) (buf : Buf) (len : Nat) (m : RREQ) (fwd : Option Ptr)
    (ttl : Int) : Books s (rreqPassOn e s buf len m fwd ttl) := by
  unfold Aodv.rreqPassOn
  split
  · exact (socketSend e _ _ _ _ _).prior rfl rfl rfl rfl
  · exact .refl

theorem rreqUnrouted (e : Env) (s : Daemon) (buf : Buf) (len : Nat) (m : RREQ) (ttl : Int) :
    Books s (rreqUnrouted e s buf len m ttl) := by
  rw [Aodv.rreqUnrouted]
  split
  · exact .refl
  · exact rreqPassOn e s buf len m _ ttl

theorem rreqRoute (e : Env) (s : Daemon) (buf : Buf) (len : Nat) (m : RREQ) (rev : Ptr) (ttl : Int) :
    Books s (rreqRoute e s buf len m rev ttl) := by
  rw [Aodv.rreqRoute]
  dsimp only
  cases rtTableCheck s.rtTbl m.destAddr with
  | none => exact rreqPassOn e s buf len m _ ttl
  | some f =>
      dsimp only
      split
      · split
        · exact (tock s).trans (rreqAnswer e _ m rev f _)
        · exact (tock s).trans (rreqPassOn e _ buf len m _ ttl)
      · exact rreqPassOn e s buf len m _ ttl

theorem rrepRoute {m : RREP} {src : Addr} {o : Ptr × Bool × U8}
    (h : rrepRoute e s m src = some (s', o)) : Books s s' := by
  rw [Aodv.rrepRoute] at h
  dsimp only at h
  cases hc : rtTableCheck s.rtTbl m.destAddr with
  | none =>
      rw [hc] at h
      dsimp only at h
      have hins := insert e s m.destAddr src (m.hopcnt.setWidth 32 + 1) m.destSeqno m.lifetime .valid
        .zero
      obtain ⟨s₁, k, hi⟩ : ∃ s₁ k, rtTableInsert e s m.destAddr src (m.hopcnt.setWidth 32 + 1)
          m.destSeqno m.lifetime .valid .zero = (s₁, k) := ⟨_, _, rfl⟩
      rw [hi] at h hins
      cases k with
      | none => cases h
      | some p =>
          cases h
          exact hins
  | some p =>
      rw [hc] at h
      dsimp only at h
      split at h
      · cases h
        exact update (rtTableCheck_some hc).1 _ _ _ _ _ _
      · cases h

theorem rrepAskAck (e : Env) (s : Daemon) (buf : Buf) (rev : Ptr) :
    Books s (rrepAskAck e s buf rev).1 := by
  rw [Aodv.rrepAskAck]
  cases rrepAckNeighbor s rev with
  | none => exact .refl
  | some n =>
      dsimp only
      split
      · exact .refl
      · exact (setRt s n _).trans (arm _ (by simp) _ _ (Nat.le_succ _))

theorem rrepForward (e : Env) (s : Daemon) (buf : Buf) (len : Nat) (rev fwd : Ptr) (ttl : Int) :
    Books s (rrepForward e s buf len rev fwd ttl) := by
  have hask := rrepAskAck e s buf rev
  rw [Aodv.rrepForward]
  generalize Aodv.rrepAskAck e s buf rev = o at hask
  obtain ⟨s₁, buf₁⟩ := o
  have hsent : Books s₁ (aodvSocketSend e
      { s₁ with sendBuf := store (copy s₁.sendBuf buf₁ len) 3 (s₁.rt fwd).hopcnt }
      (.queued (take (store buf₁ 3 (s₁.rt fwd).hopcnt) len)) (s₁.rt rev).nextHop len ttl) :=
    (socketSend e _ _ _ _ _).prior rfl rfl rfl rfl
  exact (((hask.trans hsent).trans (precursorAdd _ _ _)).trans (precursorAdd _ _ _)).trans
    (updateTimeout e _ _ _)

theorem rrepRest (e : Env) (s : Daemon) (buf : Buf) (len : Nat) (rev : Option Ptr) (p : Ptr)
    (wasRepair : Bool) (wasHopcnt : U8) (ttl : Int) :
    Books s (rrepRest e s buf len rev p wasRepair wasHopcnt ttl) := by
  have hack : Books s (if (rrepOf buf).a then rrepAnswerAck e s p else s) := by
    split
    · exact (socketSend e _ _ _ _ _).prior rfl rfl rfl rfl
    · exact .refl
  unfold Aodv.rrepRest
  dsimp only
  refine hack.trans ?_
  generalize (if (rrepOf buf).a then rrepAnswerAck e s p else s) = s₁
  split
  · rw [rrepRepaired]
    split
    · dsimp only
      split
      · exact (socketSend e _ _ _ _ _).prior rfl rfl rfl rfl
      · exact .same (Nat.le_refl _) rfl rfl rfl
    · exact .refl
  · cases rev with
    | none => exact .refl
    | some r =>
        dsimp only
        split
        · exact rrepForward e s₁ _ len r p _
        · exact .refl

theorem rrepProcess (e : Env) (s : Daemon) (buf : Buf) (len : Nat) (src : Addr) (ttl : Int) :
    Books s (rrepProcess e s buf len src ttl) := by
  rw [rrepProcess_eq]
  split
  · exact .refl
  · split
    · exact .refl
    · cases hr : Aodv.rrepRoute e s (rrepOf buf) src with
      | none => exact .refl
      | some o =>
          obtain ⟨s₁, p, wasRepair, wasHopcnt⟩ := o
          exact (rrepRoute hr).trans (rrepRest e s₁ buf len _ p wasRepair wasHopcnt ttl)

theorem rerrReport (b : RerrBuild) (nodelete : Bool) (p : Ptr) :
    Books b.s (rerrReport b nodelete p).s := by
  have hlist : Books b.s (if (b.s.rt p).nprecursor ≠ 0 ∧ (b.s.rt p).flags.repair = false then
      rerrList b nodelete p else b).s := by
    split
    · rw [rerrList]
      cases b.rerr <;> exact .same (Nat.le_refl _) rfl rfl rfl
    · exact .refl
  rw [Aodv.rerrReport]
  generalize (if (b.s.rt p).nprecursor ≠ 0 ∧ (b.s.rt p).flags.repair = false then
    rerrList b nodelete p else b) = b₁ at hlist
  split
  · exact hlist.trans (setRt b₁.s p _)
  · exact hlist

theorem rerrStep (e : Env) (nodelete : Bool) (src : Addr) (b : RerrBuild) (udest : Addr × U32) :
    Books b.s (rerrStep e nodelete src b udest).s := by
  rw [Aodv.rerrStep]
  cases rerrHits b.s src udest with
  | none => exact .refl
  | some p =>
      dsimp only
      have hdown : Books b.s (if nodelete then b.s else rtTableInvalidate e b.s p) := by
        split
        · exact .refl
        · exact invalidate e b.s p
      generalize (if nodelete then b.s else rtTableInvalidate e b.s p) = s₁ at hdown
      let s₂ := (s₁.observe (.rerrSeqno p (s₁.rt p) udest.2)).setRt p
        { s₁.rt p with destSeqno := udest.2 }
      have hset : Books b.s s₂ := hdown.trans (.same (Nat.le_refl _) rfl rfl rfl)
      exact hset.trans (rerrReport { b with s := s₂ } nodelete p)

theorem rerrProcess (e : Env) (s : Daemon) (buf : Buf) (len : Nat) (src : Addr) :
    Books s (rerrProcess e s buf len src) := by
  have hloop (l : List (Addr × U32)) (b : RerrBuild) :
      Books b.s (l.foldl (Aodv.rerrStep e ((buf 1).getLsbD 0) src) b).s := by
    induction l generalizing b with
    | nil => exact .refl
    | cons u l ih => exact (rerrStep e _ src b u).trans (ih _)
  have hreply (b : RerrBuild) : Books b.s (rerrReply e b) := by
    rw [rerrReply]
    cases b.rerr with
    | none => exact .refl
    | some m =>
        dsimp only
        split
        · cases rtTableCheck b.s.rtTbl b.unicast with
          | none => exact .refl
          | some q => exact socketSend e _ _ _ _ _
        · exact socketSend e _ _ _ _ _
  rw [Aodv.rerrProcess]
  split
  · exact .refl
  · exact (hloop (listed buf) ⟨s, none, 0⟩).trans (hreply _)

theorem rrepAckProcess (s : Daemon) (src : Addr) : Books s (rrepAckProcess s src) := by
  rw [Aodv.rrepAckProcess]
  cases rtTableCheck s.rtTbl src with
  | none => exact .refl
  | some p => exact pop s (by simp)

theorem expire (hp : Linked s.rtTbl p) : Books s (routeExpireTimeout e s p) := by
  rw [routeExpireTimeout]
  split
  · exact linkBreak hp
  · exact (invalidate e s p).trans (setRt _ p _)

theorem seekRefresh (e : Env) (s : Daemon) (p : Ptr) (now : Timeval) :
    Books s (seekRefresh e s p now) := by
  rw [Aodv.seekRefresh]
  split
  · exact updateTimeout e s p _
  · exact .refl

theorem rreqSend (e : Env) (s : Daemon) (dest : Addr) (seqno : U32) (ttl : Int) (flags : U8) :
    Books s (rreqSend e s dest seqno ttl flags) := by
  rw [Aodv.rreqSend]
  split
  · exact (socketSend e _ _ _ _ _).prior rfl rfl rfl rfl
  · exact .refl

theorem seekInsert (e : Env) (s : Daemon) (dest : Addr) (seqno : U32) (ttl : Int) (flags : U8)
    (msec : Int) :
    Books s (seekArm e (seekListInsert s dest seqno ttl flags).1 s.brk msec) := by
  refine ⟨Nat.le_succ _, rfl, rfl, fun c => ?_⟩
  exact (Leaves.timerInit _ (by simp) _ _).trans (.timerSetTimeout _ (by simp) _ _)

theorem discovery (e : Env) (s : Daemon) (dest : Addr) (flags : U8) :
    Books s (rreqRouteDiscovery e s dest flags) := by
  have hsend (s : Daemon) (seqno : U32) (ttl : Int) (found : Option RtEntry) :
      Books s (discoverySend e s dest seqno ttl flags found) :=
    (rreqSend e s dest seqno ttl flags).trans ((seekInsert e
      ((Aodv.rreqSend e s dest seqno ttl flags).observe
        (.discovery (Aodv.rreqSend e s dest seqno ttl flags).brk found)) dest seqno ttl flags
      _).prior rfl rfl rfl rfl)
  rw [rreqRouteDiscovery]
  dsimp only
  cases seekListCheck s.tock dest with
  | some q => exact (tock s)
  | none =>
      cases rtTableCheck s.tock.rtTbl dest with
      | none => exact (tock s).trans (hsend _ _ _ _)
      | some p => exact ((tock s).trans (seekRefresh e _ p _)).trans (hsend _ _ _ _)

theorem localRepair (e : Env) (s : Daemon) (p : Ptr) (src : Addr) :
    Books s (rreqLocalRepair e s p src) := by
  rw [rreqLocalRepair]
  split
  · exact .refl
  · split
    · exact .refl
    · dsimp only
      have hstart : Books s (repairStart s.tock p) :=
        ⟨Nat.le_succ _, rfl, rfl, fun c => .setHandler s.timers (by simp) _⟩
      exact (hstart.trans (seekRefresh e _ p _)).trans ((rreqSend e _ _ _ _ _).trans
        (seekInsert e (Aodv.rreqSend e _ _ _ _ 0) _ _ _ 0 _))

theorem refreshes (h : ReflTransGen (Refreshes e) s s') : Books s s' := by
  induction h with
  | refl => exact .refl
  | tail _ hstep ih =>
      obtain ⟨p, _, rfl⟩ := hstep
      exact ih.trans (updateTimeout e _ p _)

theorem sendRerr (e : Env) (s : Daemon) (src dest : Addr) : Books s (sendRerr e s src dest) := by
  have hfor : Books s (rerrFor e s dest).1 := by
    rw [rerrFor]
    cases rtTableCheck s.rtTbl dest with
    | none => exact .same (Nat.le_refl _) rfl rfl rfl
    | some f => exact (updateTimeout e (rerrCreate s false (s.rt f).destAddr (s.rt f).destSeqno).1 f
        _).prior rfl rfl rfl rfl
  rw [Aodv.sendRerr]
  dsimp only
  have hsend := hfor.trans (socketSend e (rerrFor e s dest).1 (.rerr (rerrFor e s dest).2)
    (rerrTarget (rerrFor e s dest).1 (rtTableCheck s.rtTbl src))
    (rerrCalcSize ((rerrFor e s dest).1.sendBuf 3)) 1)
  split
  · exact hsend.trans (arm _ (by simp) _ _ (Nat.le_succ _))
  · exact hsend

theorem kernel (e : Env) (s : Daemon) (m : KernelMsg) : Books s (nlKaodvCallback e s m) := by
  have hdone := kernel_ledTo e s m
  generalize nlKaodvCallback e s m = s' at hdone
  cases hdone with
  | nothing => exact .refl
  | expire hp => exact expire hp
  | discover dest => exact discovery e s dest 0
  | repair src => exact localRepair e s _ src
  | refresh h => exact refreshes h
  | report src dest => exact sendRerr e s src dest

theorem repairTimeout (e : Env) (s : Daemon) (p : Ptr) : Books s (localRepairTimeout e s p) := by
  have hreport : Books (repairOver e s p) (repairReport e (repairOver e s p) p) := by
    rw [repairReport]
    dsimp only
    split
    · exact (socketSend e _ _ _ _ _).prior rfl rfl rfl rfl
    · exact .refl
  have harm (s : Daemon) : Books s (armDelete e s p) := by
    refine ⟨Nat.le_succ _, rfl, rfl, fun c => ?_⟩
    have hne : TimerId.recTimer c ≠ .rtTimer p := by simp
    rw [armDelete]
    exact (Leaves.setHandler s.timers hne .routeDeleteTimeout).trans
      (.timerSetTimeout _ hne (e.clock s.tick) deletePeriod)
  have hover : Books s (repairOver e s p) := (nlSendBoth e _ _ _).prior rfl rfl rfl rfl
  exact ((hover.trans hreport).trans (setRt _ p _)).trans (harm _)

theorem helloTimeout (hp : Linked s.rtTbl p) : Books s (helloTimeout e s p) := by
  rw [Aodv.helloTimeout]
  dsimp only
  split
  · split
    · exact ((tock s).trans (setRt s.tock p _)).trans (linkBreak (s := markRepair s.tock p) hp)
    · exact (tock s).trans (linkBreak (s := s.tock) hp)
  · exact (tock s)

theorem discoveryTimeout (e : Env) (s : Daemon) (q : Ptr) : Books s (routeDiscoveryTimeout e s q) := by
  rw [routeDiscoveryTimeout]
  refine (tock s).trans ?_
  split
  · have hrearm : Books s.tock (seekRearm e s.tock q) := by
      rw [seekRearm]
      dsimp only
      split
      · exact (arm (s.tock.setSeek q _) (by simp) _ _ (Nat.le_succ _)).prior rfl rfl rfl rfl
      · exact arm s.tock (by simp) _ _ (Nat.le_succ _)
    have hsought (s : Daemon) (dest : Addr) (now : Timeval) : Books s (refreshSought e s dest now) := by
      rw [refreshSought]
      cases rtTableCheck s.rtTbl dest with
      | none => exact .refl
      | some p => exact seekRefresh e s p now
    have hsend (s : Daemon) : Books s (seekSend e s q) :=
      (rreqSend e s _ _ _ _).trans (.same (Nat.le_refl _) rfl rfl rfl)
    exact (hrearm.trans (hsought _ _ _)).trans (hsend _)
  · have hnone : Books s.tock (nlSendNoRouteFoundMsg e (s.tock.observe (.discoveryFailed q))
        (s.tock.seek q).destAddr) := .same (Nat.le_succ _) rfl rfl rfl
    have hfail := hnone.trans (seekListRemove _ (some q))
    rw [seekGiveUp]
    refine hfail.trans ?_
    split
    · exact .refl
    · split
      · exact repairTimeout e _ _
      · exact .refl

theorem printRtTable (e : Env) (s : Daemon) : Books s (printRtTable e s) := by
  rw [Aodv.printRtTable]
  split
  · exact arm s (by simp) _ _ (Nat.le_succ _)
  · exact (tock s).trans (arm s.tock (by simp) _ _ (Nat.le_succ _))

theorem fire {t : TimerId} (hs : WellFormed s) (ht : Pending s.timers t)
    (hrec : ∀ c, t ≠ .recTimer c) (hbl : ∀ c, t ≠ .blTimer c) (hack : ∀ p, t ≠ .ackTimer p) :
    Books s (fire e s t) := by
  have hpop : Books s (Aodv.pop s t) := pop s fun c => (hrec c).symm
  have hdone := fire_handled e hs ht
  generalize Aodv.fire e s t = s' at hdone
  refine hpop.trans ?_
  cases hdone with
  | @expire p hp =>
      have hp' : Linked (Aodv.pop s (.rtTimer p)).rtTbl p := hp
      exact expire hp'
  | repair => exact repairTimeout e _ _
  | delete => exact delete e _ _
  | @hello p hp =>
      have hp' : Linked (Aodv.pop s (.helloTimer p)).rtTbl p := hp
      exact helloTimeout hp'
  | seek => exact discoveryTimeout e _ _
  | record c => exact absurd rfl (hrec c)
  | blacklist c => exact absurd rfl (hbl c)
  | @ack p => exact absurd rfl (hack p)
  | log => exact printRtTable e _

end Books

end Aodv.Frames
