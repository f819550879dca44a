import Aodv.Events

namespace Aodv

open Lib.Bytes Relation

/-- The same route: only hello data, precursors and the mark of a unidirectional
link may differ. -/
structure SameRoute (r r' : RtEntry) : Prop where
  destAddr : r'.destAddr = r.destAddr
  nextHop : r'.nextHop = r.nextHop
  destSeqno : r'.destSeqno = r.destSeqno
  hopcnt : r'.hopcnt = r.hopcnt
  repair : r'.flags.repair = r.flags.repair
  inetDest : r'.flags.inetDest = r.flags.inetDest
  unidir : r.flags.unidir = true → r'.flags.unidir = true
  state : r'.state = r.state

theorem SameRoute.refl (r : RtEntry) : SameRoute r r := ⟨rfl, rfl, rfl, rfl, rfl, rfl, id, rfl⟩

theorem SameRoute.trans {r r' r'' : RtEntry} (h : SameRoute r r') (h' : SameRoute r' r'') :
    SameRoute r r'' :=
  ⟨h'.destAddr.trans h.destAddr, h'.nextHop.trans h.nextHop, h'.destSeqno.trans h.destSeqno,
    h'.hopcnt.trans h.hopcnt, h'.repair.trans h.repair, h'.inetDest.trans h.inetDest,
    fun hu => h'.unidir (h.unidir hu), h'.state.trans h.state⟩

/-- Route timers are as they were, no hello timer was armed, and every search
still waits. -/
structure Steady (q q' : TimerQueue) : Prop where
  callee : ∀ p, callee q' (.rtTimer p) = callee q (.rtTimer p)
  route : ∀ p, Pending q' (.rtTimer p) ↔ Pending q (.rtTimer p)
  hello : ∀ p, Pending q' (.helloTimer p) → Pending q (.helloTimer p)
  seeks : ∀ k, Pending q (.seekTimer k) → Pending q' (.seekTimer k)

namespace Steady

variable {q q' q'' : TimerQueue}

theorem refl (q : TimerQueue) : Steady q q := ⟨fun _ => rfl, fun _ => Iff.rfl, fun _ => id, fun _ => id⟩

theorem trans (h : Steady q q') (h' : Steady q' q'') : Steady q q'' :=
  ⟨fun p => (h'.callee p).trans (h.callee p), fun p => (h'.route p).trans (h.route p),
    fun p hp => h.hello p (h'.hello p hp), fun k hk => h'.seeks k (h.seeks k hk)⟩

theorem timerRemove (q : TimerQueue) {t : TimerId} (hr : ∀ p, t ≠ .rtTimer p)
    (hs : ∀ k, t ≠ .seekTimer k) : Steady q (timerRemove q t) where
  callee := fun p => callee_timerRemove q t _
  route := fun p => by
    rw [pending_timerRemove]
    exact and_iff_left fun h => hr p h.symm
  hello := fun p hp => ((pending_timerRemove q t _).1 hp).1
  seeks := fun k hk => (pending_timerRemove q t _).2 ⟨hk, fun h => hs k h.symm⟩

theorem timerInit (q : TimerQueue) {t : TimerId} (f : Handler) (data : Data)
    (hr : ∀ p, t ≠ .rtTimer p) : Steady q (timerInit q t f data) where
  callee := fun p => by
    rw [callee_timerInit, if_neg fun h => hr p h.symm]
  route := fun _ => Iff.rfl
  hello := fun _ => id
  seeks := fun _ => id

theorem timerSetTimeout {a : Arch} (hq : Coherent q) (now : Timeval) {t : TimerId} (msec : Int)
    (hr : ∀ p, t ≠ .rtTimer p) (hh : ∀ p, t ≠ .helloTimer p) (hs : ∀ k, t ≠ .seekTimer k) :
    Steady q (timerSetTimeout a now q t msec) := by
  have hother {u : TimerId} (hu : u ≠ t) :
      Pending (Aodv.timerSetTimeout a now q t msec) u ↔ Pending q u := by
    rw [pending_timerSetTimeout hq]
    constructor
    · rintro (⟨_, hp⟩ | ⟨he, _⟩)
      · exact hp
      · exact absurd he hu
    · exact fun hp => .inl ⟨hu, hp⟩
  exact ⟨fun p => callee_timerSetTimeout now q t _ msec, fun p => hother fun h => hr p h.symm,
    fun p => (hother fun h => hh p h.symm).1, fun k => (hother fun h => hs k h.symm).2⟩

theorem start {a : Arch} (hq : Coherent q) (now : Timeval) {t : TimerId} (f : Handler) (data : Data)
    (msec : Int) (hidle : ¬ Pending q t) (hr : ∀ p, t ≠ .rtTimer p) (hh : ∀ p, t ≠ .helloTimer p)
    (hs : ∀ k, t ≠ .seekTimer k) :
    Steady q (Aodv.timerSetTimeout a now (Aodv.timerInit q t f data) t msec) :=
  (timerInit q f data hr).trans
    (timerSetTimeout (hq.timerInit t f data hidle) now msec hr hh hs)

end Steady

def ofRoute : Obs → Bool
  | .nl _ | .kernelRoute .. | .rtInsert .. | .rtUpdate .. | .rtInvalidate .. | .rerrSeqno .. => true
  | _ => false

structure Idle (s s' : Daemon) : Prop where
  wellFormed : WellFormed s'
  brk : s.brk ≤ s'.brk
  tbl : s'.rtTbl.tbl = s.rtTbl.tbl
  numActive : s'.rtTbl.numActive = s.rtTbl.numActive
  rt : ∀ p, SameRoute (s.rt p) (s'.rt p)
  timers : Steady s.timers s'.timers
  sl : s'.sl = s.sl
  sought : ∀ k, (s'.seek k).destAddr = (s.seek k).destAddr
  ipaddr : s'.host.ipaddr = s.host.ipaddr
  said : Said (fun o => ofRoute o = false) s s'

namespace Idle

variable {s s' s'' : Daemon}

theorem trans (h : Idle s s') (h' : Idle s' s'') : Idle s s'' :=
  ⟨h'.wellFormed, Nat.le_trans h.brk h'.brk, h'.tbl.trans h.tbl, h'.numActive.trans h.numActive,
    fun p => (h.rt p).trans (h'.rt p), h.timers.trans h'.timers, h'.sl.trans h.sl,
    fun k => (h'.sought k).trans (h.sought k), h'.ipaddr.trans h.ipaddr, h.said.trans h'.said⟩

theorem linked (h : Idle s s') (p : Ptr) : Linked s'.rtTbl p ↔ Linked s.rtTbl p := by
  rw [Linked, Linked, h.tbl]

theorem frame (hw : WellFormed s') (hb : s.brk ≤ s'.brk) (hrt : s'.rtTbl = s.rtTbl) (hsl : s'.sl = s.sl)
    (hm : s'.seekMem = s.seekMem) (hip : s'.host.ipaddr = s.host.ipaddr)
    (ht : Steady s.timers s'.timers)
    (hsaid : Said (fun o => ofRoute o = false) s s') : Idle s s' := by
  refine ⟨hw, hb, by rw [hrt], by rw [hrt], fun p => ?_, ht, hsl, fun k => by rw [Daemon.seek, hm]; rfl,
    hip, hsaid⟩
  rw [Daemon.rt, Daemon.rt, hrt]
  exact SameRoute.refl _

theorem setRt (hs : WellFormed s) {p : Ptr} {r : RtEntry} (hr : SameRoute (s.rt p) r)
    (hh : r.hash = (s.rt p).hash) : Idle s (s.setRt p r) := by
  refine ⟨(Kept.setRt s p r hr.destAddr hh).wellFormed hs, Nat.le_refl _, rfl, rfl, fun q => ?_,
    .refl _, rfl,
    fun _ => rfl, rfl, .same rfl⟩
  by_cases hq : q = p
  · subst q
    rw [rt_setRt_self]
    exact hr
  · rw [rt_setRt_ne s r hq]
    exact SameRoute.refl _

end Idle

inductive Slide (e : Env) : Daemon → Daemon → Prop
  | idle {s s' : Daemon} (h : Idle s s') : Slide e s s'
  | down {s : Daemon} {p : Ptr} (hp : Linked s.rtTbl p) (hv : (s.rt p).state = .valid) :
      Slide e s (rtTableInvalidate e s p)
  | repair {s : Daemon} {p : Ptr} (hp : Linked s.rtTbl p) (hv : (s.rt p).state = .valid) :
      Slide e s (rtTableInvalidate e (markRepair s p) p)

theorem kept_markRepair (s : Daemon) (p : Ptr) : Kept s (markRepair s p) := Kept.setRt s p _ rfl rfl

theorem slide_wellFormed {e : Env} {s s' : Daemon} (h : Slide e s s') (hs : WellFormed s) :
    WellFormed s' := by
  cases h with
  | idle h => exact h.wellFormed
  | down hp hv => exact (kept_invalidate e hp).wellFormed hs
  | @repair p hp hv =>
      have hmark := kept_markRepair s p
      exact (hmark.trans (kept_invalidate e ((hmark.keys.linked p).2 hp))).wellFormed hs

theorem slide_trace {e : Env} {s s' : Daemon} (h : Slide e s s') : s.trace <:+ s'.trace := by
  cases h with
  | idle h => exact h.said.suffix
  | down hp hv => exact (invalidate_said e s _).suffix
  | @repair p hp hv => exact (invalidate_said e (markRepair s p) p).suffix

theorem slides_wellFormed {e : Env} {s s' : Daemon} (h : ReflTransGen (Slide e) s s')
    (hs : WellFormed s) : WellFormed s' := by
  induction h with
  | refl => exact hs
  | tail _ h ih => exact slide_wellFormed h ih

theorem lb_slide {e : Env} {s s' : Daemon} (h : Lb e s s') (hs : WellFormed s) : Slide e s s' := by
  have hw := h.kept.wellFormed hs
  cases h with
  | down hp hv => exact .down hp hv
  | repair hp hv => exact .repair hp hv
  | @destroy p hp hi => exact .idle (.setRt hs ⟨rfl, rfl, rfl, rfl, rfl, rfl, id, rfl⟩ rfl)
  | tock | rerrNew | rerrAdd =>
      exact .idle (.frame hw (Nat.le_refl _) rfl rfl rfl rfl (.refl _) (.same rfl))
  | rerrSend m dest len ht hc =>
      exact .idle (.frame hw (Nat.le_refl _) rfl rfl rfl rfl (.refl _) (.one rfl rfl))

theorem lbs_slides {e : Env} {s s' : Daemon} (h : ReflTransGen (Lb e) s s') (hs : WellFormed s) :
    ReflTransGen (Slide e) s s' := by
  induction h with
  | refl => exact .refl
  | tail hl h ih => exact ih.tail (lb_slide h ((lb_kept hl).wellFormed hs))

theorem idle_pop {s : Daemon} (hs : WellFormed s) {t : TimerId} (hr : ∀ p, t ≠ .rtTimer p)
    (hk : ∀ k, t ≠ .seekTimer k) : Idle s (pop s t) :=
  .frame ((kept_pop t).wellFormed hs) (Nat.le_refl _) rfl rfl rfl rfl (.timerRemove _ hr hk) (.same rfl)

theorem idle_tock {s : Daemon} (hs : WellFormed s) : Idle s s.tock :=
  .frame ((Kept.tock s).wellFormed hs) (Nat.le_refl _) rfl rfl rfl rfl (.refl _) (.same rfl)

theorem idle_arm (e : Env) {s : Daemon} (hs : WellFormed s) {t : TimerId} (msec : Int)
    (ht : Owns s t) (hr : ∀ p, t ≠ .rtTimer p) (hh : ∀ p, t ≠ .helloTimer p)
    (hk : ∀ k, t ≠ .seekTimer k) : Idle s { s with
      timers := timerSetTimeout e.arch (e.clock s.tick) s.timers t msec, tick := s.tick + 1 } :=
  .frame ((Kept.arm s _ t msec ht).wellFormed hs) (Nat.le_refl _) rfl rfl rfl rfl
    (.timerSetTimeout hs.coherent _ _ hr hh hk) (.same rfl)

theorem updateBreak_slides (e : Env) {s : Daemon} {p : Ptr} (hops : U32) (hp : Linked s.rtTbl p)
    (hs : WellFormed s) : ReflTransGen (Slide e) s (updateBreak e s p hops) := by
  rw [updateBreak]
  dsimp only
  split
  · have hclear : Idle s (s.setRt p { s.rt p with lastHelloTime := ⟨0, 0⟩, helloCnt := 0 }) :=
      .setRt hs ⟨rfl, rfl, rfl, rfl, rfl, rfl, id, rfl⟩ rfl
    have hpop := hclear.trans (idle_pop (t := .helloTimer p) hclear.wellFormed (by simp) (by simp))
    exact ReflTransGen.head (.idle hpop)
      (lbs_slides (lb_linkBreak e ((hpop.linked p).2 hp)) hpop.wellFormed)
  · exact .refl

/-- The steps of an event, as far as routes, their timers and the kernel
module's copy go. -/
inductive Move (e : Env) (ev : Event) : Daemon → Daemon → Prop
  | slide {s s' : Daemon} (h : Slide e s s') : Move e ev s s'
  | updateTimeout {s : Daemon} {p : Ptr} {lifetime : U32} (hl : lifetime.toNat ≤ deletePeriod)
      (hp : Linked s.rtTbl p) : Move e ev s (rtTableUpdateTimeout e s p lifetime)
  | helloArm {s : Daemon} {p : Ptr} (now : Timeval) (time : Int) (hp : Linked s.rtTbl p)
      (hh : (s.rt p).hopcnt = 1 ∨ (s.rt p).flags.unidir = true) :
      Move e ev s (helloUpdateTimeout e s p now time)
  | helloMark {s : Daemon} {p : Ptr} (ht : Pending s.timers (.helloTimer p))
      (hh : (s.rt p).hopcnt ≠ 1) (hu : (s.rt p).flags.unidir = false) :
      Move e ev s (markRepair (pop s (.helloTimer p)).tock p)
  | rerrSeqno {s : Daemon} {p : Ptr} {pkt : Packet} {udest : Addr × U32}
      (hp : Linked s.rtTbl p) (h : ev = .recv pkt) (ht : pkt.buf 0 = aodvRerr)
      (hu : udest ∈ listed pkt.buf) :
      Move e ev s ((s.observe (.rerrSeqno p (s.rt p) udest.2)).setRt p
        { s.rt p with destSeqno := udest.2 })
  | repairTimeout {s : Daemon} {p : Ptr} (hp : Linked s.rtTbl p)
      (hr : (s.rt p).flags.repair = true ∨
        (callee s.timers (.rtTimer p)).1 = some .localRepairTimeout) :
      Move e ev s (localRepairTimeout e s p)
  | delete {s : Daemon} {p : Ptr} (hp : Linked s.rtTbl p)
      (hh : (callee s.timers (.rtTimer p)).1 = some .routeDeleteTimeout) :
      Move e ev s (rtTableDelete e s p)
  | expireIdle {s : Daemon} {p : Ptr} (hp : Linked s.rtTbl p) (hi : (s.rt p).state = .invalid)
      (hh : (callee s.timers (.rtTimer p)).1 = some .routeExpireTimeout) :
      Move e ev s (pop s (.rtTimer p))
  | insert {s : Daemon} {src : Source} {dest next : Addr} {hops seqno : U32} (lifetime : U32)
      (state : RtState) (hl : Learned s.host.ipaddr ev 0 src dest next hops seqno lifetime) :
      Move e ev s (rtTableInsert e s dest next hops seqno lifetime state .zero).1
  | update {s : Daemon} {p : Ptr} {src : Source} {next : Addr} {hops seqno : U32} (lifetime : U32)
      (hp : Linked s.rtTbl p)
      (hl : Learned s.host.ipaddr ev (s.rt p).destSeqno src (s.rt p).destAddr next hops seqno
        lifetime) :
      Move e ev s (rtTableUpdate e s p next hops seqno lifetime .valid (s.rt p).flags)
  | seekNew {s : Daemon} (dest : Addr) {seqno : U32} {ttl : Int} (flags : U8) {msec : Int}
      (hnew : seekListCheck s dest = none) (httl : 0 ≤ ttl) (hm : 0 ≤ msec) :
      Move e ev s (seekArm e (seekListInsert s dest seqno ttl flags).1 s.brk msec)
  | seekFail {s : Daemon} {q : Ptr} (hq : q ∈ s.sl) : Move e ev s (Aodv.seekFail e s q)
  | repairStart {s : Daemon} {p : Ptr} (hp : Linked s.rtTbl p)
      (hr : (s.rt p).flags.repair = true) : Move e ev s (repairStart s p)

section

variable {e : Env} {ev : Event}

theorem moves_of_slides {s s' : Daemon} (h : ReflTransGen (Slide e) s s') :
    ReflTransGen (Move e ev) s s' := ReflTransGen.mono (fun _ _ => .slide) _ _ h

theorem moves_helloFire {s : Daemon} {p : Ptr} (hs : WellFormed s)
    (ht : Pending s.timers (.helloTimer p)) :
    ReflTransGen (Move e ev) s (helloTimeout e (pop s (.helloTimer p)) p) := by
  have hp : Linked s.rtTbl p := hs.owned _ ht
  have hpop : Idle s (pop s (.helloTimer p)) := idle_pop hs (by simp) (by simp)
  have htock := hpop.trans (idle_tock hpop.wellFormed)
  have hp' : Linked (pop s (.helloTimer p)).tock.rtTbl p := hp
  have hbreak {s₁ : Daemon} (hl : ReflTransGen (Lb e) (pop s (.helloTimer p)).tock s₁) :
      ReflTransGen (Move e ev) s s₁ :=
    ReflTransGen.head (.slide (.idle htock)) (moves_of_slides (lbs_slides hl htock.wellFormed))
  rw [helloTimeout]
  dsimp only
  split
  next hv =>
    split
    · change ReflTransGen _ s (neighborLinkBreak e (markRepair (pop s (.helloTimer p)).tock p) p)
      have hhop : ((markRepair (pop s (.helloTimer p)).tock p).rt p).hopcnt = (s.rt p).hopcnt := by
        rw [markRepair, rt_setRt_self]
        rfl
      by_cases h1 : (s.rt p).hopcnt = 1
      · exact hbreak (lb_linkBreak_of e hp' (.repair hp' hv.1) (hhop.trans h1))
      · rw [neighborLinkBreak, if_pos (by rwa [hhop])]
        exact .single (.helloMark ht h1 hv.2)
    · exact hbreak (lb_linkBreak e hp')
  · exact .single (.slide (.idle htock))

theorem quiet_moves {s s' : Daemon} (h : Quiet e ev s s') (hs : WellFormed s) :
    ReflTransGen (Move e ev) s s' := by
  have hw := (quiet_sound h hs).wellFormed
  cases h with
  | lb h => exact .single (.slide (lb_slide h hs))
  | updateTimeout hl hp => exact .single (.updateTimeout hl hp)
  | @precursor p r hp hr =>
      have hsame : Idle s (precursorAdd s p (s.rt r).nextHop) := by
        simp only [precursorAdd]
        split
        · exact .frame hs (Nat.le_refl _) rfl rfl rfl rfl (.refl _) (.same rfl)
        · exact .setRt hs ⟨rfl, rfl, rfl, rfl, rfl, rfl, id, rfl⟩ rfl
      exact .single (.slide (.idle hsame))
  | helloArm now time hp hh => exact .single (.helloArm now time hp hh)
  | helloCount cnt now hp =>
      exact .single (.slide (.idle (.setRt hs ⟨rfl, rfl, rfl, rfl, rfl, rfl, id, rfl⟩ rfl)))
  | @dropHello p hp =>
      exact .single (.slide (.idle (idle_pop hs (t := .helloTimer p) (by simp) (by simp))))
  | @dropAck p hp =>
      exact .single (.slide (.idle (idle_pop hs (t := .ackTimer p) (by simp) (by simp))))
  | @armAck p hp =>
      exact .single (.slide (.idle (idle_arm e hs (t := .ackTimer p) nextHopWait hp (by simp)
        (by simp) (by simp))))
  | unidir hp hr =>
      exact .single (.slide (.idle (.setRt hs ⟨rfl, rfl, rfl, rfl, rfl, rfl, fun _ => rfl, rfl⟩ rfl)))
  | unidirBreak | answer =>
      exact .single
        (.slide (.idle (.frame hw (Nat.le_refl _) rfl rfl rfl rfl (.refl _) (.one rfl rfl))))
  | rerrSeqno hp h ht hlen hu => exact .single (.rerrSeqno hp h ht hu)
  | repairTimeout hp hr => exact .single (.repairTimeout hp hr)
  | delete hp hh => exact .single (.delete hp hh)
  | expireIdle hp hi hh => exact .single (.expireIdle hp hi hh)
  | helloFire hp => exact moves_helloFire hs hp
  | dropRecord c =>
      refine .single (.slide (.idle (.frame hw (Nat.le_refl _) rfl rfl rfl rfl ?_ (.same rfl))))
      exact .timerRemove _ (t := .recTimer c) (by simp) (by simp)
  | dropBlacklist c =>
      refine .single (.slide (.idle (.frame hw (Nat.le_refl _) rfl rfl rfl rfl ?_ (.same rfl))))
      exact .timerRemove _ (t := .blTimer c) (by simp) (by simp)
  | blacklist dest =>
      refine .single (.slide (.idle ?_))
      rw [rreqBlacklistInsert] at hw ⊢
      split
      · exact .frame hs (Nat.le_refl _) rfl rfl rfl rfl (.refl _) (.same rfl)
      next hc =>
        rw [hc] at hw
        have hidle : ¬ Pending s.timers (.blTimer s.brk) := by
          intro hp
          obtain ⟨b, hb, hbp⟩ := hs.owned _ hp
          exact Nat.lt_irrefl _ (hbp ▸ hs.blacklistBelow b hb)
        have hsteady := Steady.start (a := e.arch) hs.coherent (e.clock s.tick) .rreqBlacklistTimeout
          (.obj s.brk) blacklistTimeout hidle (by simp) (by simp) (by simp)
        exact .frame hw (Nat.le_succ _) rfl rfl rfl rfl hsteady (.same rfl)
  | armLog msec =>
      exact .single (.slide (.idle (idle_arm e hs (t := .rtLogTimer) msec trivial (by simp)
        (by simp) (by simp))))
  | armWorb msec =>
      exact .single (.slide (.idle (idle_arm e hs (t := .worbTimer) msec trivial (by simp)
        (by simp) (by simp))))
  | rrepWrite m =>
      exact .single (.slide (.idle (.frame hw (Nat.le_refl _) rfl rfl rfl rfl (.refl _) (.same rfl))))
  | rrepSend | rrepAck | relay =>
      exact .single
        (.slide (.idle (.frame hw (Nat.le_refl _) rfl rfl rfl rfl (.refl _) (.one rfl rfl))))

theorem idle_record {s : Daemon} (hs : WellFormed s) (m : RREQ) (src : Addr) :
    Idle s (rreqRecordInsert e (s.observe (.rreqAccepted m src)) m.origAddr m.rreqId) := by
  have hw := (recordInsert_sound e ((Kept.observe s (.rreqAccepted m src)).wellFormed hs)
    m.origAddr m.rreqId).wellFormed
  rw [rreqRecordInsert] at hw ⊢
  split
  · exact .frame ((Kept.observe s _).wellFormed hs) (Nat.le_refl _) rfl rfl rfl rfl (.refl _)
      (.one rfl rfl)
  next hc =>
    rw [hc] at hw
    have hidle : ¬ Pending s.timers (.recTimer s.brk) := by
      intro hp
      obtain ⟨r, hr, hrp⟩ := hs.owned _ hp
      exact Nat.lt_irrefl _ (hrp ▸ hs.recordBelow r hr)
    have hsteady := Steady.start (a := e.arch) hs.coherent (e.clock s.tick) .rreqRecordTimeout
      (.obj s.brk)
      pathDiscoveryTime hidle (by simp) (by simp) (by simp)
    exact .frame hw (Nat.le_succ _) rfl rfl rfl rfl hsteady (.one rfl rfl)

theorem idle_ringArm {s : Daemon} (hs : WellFormed s) {q : Ptr} {ttl msec : Int} (hq : q ∈ s.sl)
    (hm : 0 ≤ msec) (hw : WellFormed (ringArm e s q ttl msec)) : Idle s (ringArm e s q ttl msec) := by
  have hcoh : Coherent (timerRemove s.timers (.seekTimer q)) := hs.coherent.timerRemove _
  have hfits : callee s.timers (.seekTimer q) = _ := hs.fits (.seekTimer q) hq
  have hhandler : ((timerRemove s.timers (.seekTimer q)).timer (.seekTimer q)).handler ≠ none := by
    have hc : callee (timerRemove s.timers (.seekTimer q)) (.seekTimer q) = _ :=
      (callee_timerRemove _ _ _).trans hfits
    rw [(Prod.mk.inj hc).1]
    simp
  have hpend (t : TimerId) : Pending (ringArm e s q ttl msec).timers t ↔
      (t ≠ .seekTimer q ∧ Pending (timerRemove s.timers (.seekTimer q)) t) ∨
        (t = .seekTimer q ∧ 0 ≤ msec ∧ _) := pending_timerSetTimeout hcoh _ _ t msec
  have hother {t : TimerId} (ht : t ≠ .seekTimer q) :
      Pending (ringArm e s q ttl msec).timers t ↔ Pending s.timers t := by
    rw [hpend, pending_timerRemove]
    simp [ht]
  refine ⟨hw, Nat.le_refl _, rfl, rfl, fun p => .refl _, ⟨?_, fun p => hother (by simp), fun p =>
    (hother (by simp)).1, ?_⟩, rfl, ?_, rfl, .same rfl⟩
  · intro p
    change callee (timerSetTimeout _ _ (timerRemove s.timers (.seekTimer q)) _ _) _ = _
    rw [callee_timerSetTimeout, callee_timerRemove]
  · intro k hk
    by_cases he : k = q
    · subst k
      exact (hpend _).2 (.inr ⟨rfl, hm, hhandler⟩)
    · exact (hother (by simpa using he)).2 hk
  · intro k
    change ((s.setSeek q { s.seek q with ttl := ttl }).seek k).destAddr = _
    by_cases he : k = q
    · subst k
      rw [seek_setSeek_self]
    · rw [seek_setSeek_ne s _ he]

theorem fine_moves {s s' : Daemon} (h : Fine e ev s s') (hs : WellFormed s) :
    ReflTransGen (Move e ev) s s' := by
  have hw := (fine_sound h hs).wellFormed
  cases h with
  | quiet h => exact quiet_moves h hs
  | insert lifetime state hl => exact .single (.insert lifetime state hl)
  | update lifetime hp hl => exact .single (.update lifetime hp hl)
  | record h ht hnew => exact .single (.slide (.idle (idle_record hs _ _)))
  | forUs h ht =>
      exact .single
        (.slide (.idle (.frame hw (Nat.le_refl _) rfl rfl rfl rfl (.refl _) (.one rfl rfl))))
  | rreqSend dest seqno ttl flags hseq =>
      refine .single (.slide (.idle ?_))
      rw [Aodv.rreqSend] at hw ⊢
      split
      next hen =>
        rw [if_pos hen] at hw
        exact .frame hw (Nat.le_refl _) rfl rfl rfl rfl (.refl _) (.one rfl rfl)
      · exact .frame hs (Nat.le_refl _) rfl rfl rfl rfl (.refl _) (.same rfl)
  | discovery q found =>
      exact .single
        (.slide (.idle (.frame hw (Nat.le_refl _) rfl rfl rfl rfl (.refl _) (.one rfl rfl))))
  | seekNew dest flags hnew httl hseq hm => exact .single (.seekNew dest flags hnew httl hm)
  | seekRing hq httl hm => exact .single (.slide (.idle (idle_ringArm hs hq hm hw)))
  | @seekCount q hq =>
      refine .single
        (.slide (.idle ⟨hw, Nat.le_refl _, rfl, rfl, fun _ => .refl _, .refl _, rfl, fun k => ?_,
        rfl, .one rfl rfl⟩))
      by_cases he : k = q
      · subst k
        rw [seek_setSeek_self]
      · rw [seek_setSeek_ne _ _ he]
        rfl
  | seekFail hq => exact .single (.seekFail hq)
  | repairStart hp hr => exact .single (.repairStart hp hr)

theorem move_wellFormed {s s' : Daemon} (h : Move e ev s s') (hs : WellFormed s) : WellFormed s' := by
  cases h with
  | slide h => exact slide_wellFormed h hs
  | updateTimeout hl hp => exact (kept_updateTimeout e _ hp).wellFormed hs
  | @helloArm p now time hp hh =>
      have hquiet : Quiet e ev s (helloUpdateTimeout e s p now time) := .helloArm now time hp hh
      exact (quiet_sound hquiet hs).wellFormed
  | @helloMark p ht hh hu =>
      have hpop := ((kept_pop (s := s) (.helloTimer p)).trans (Kept.tock _)).wellFormed hs
      exact (kept_markRepair _ p).wellFormed hpop
  | @rerrSeqno p pkt udest hp h ht hu =>
      have hobs := (Kept.observe s (.rerrSeqno p (s.rt p) udest.2)).wellFormed hs
      have hset : Kept (s.observe (.rerrSeqno p (s.rt p) udest.2)) ((s.observe (.rerrSeqno p (s.rt p)
          udest.2)).setRt p { s.rt p with destSeqno := udest.2 }) := Kept.setRt _ _ _ rfl rfl
      exact hset.wellFormed hobs
  | repairTimeout hp hr => exact (kept_localRepairTimeout e hp).wellFormed hs
  | delete hp hh => exact (delete_sound e hs hp).wellFormed
  | expireIdle hp hi hh => exact (kept_pop _).wellFormed hs
  | insert lifetime state hl => exact (insert_sound e hs _ _ _ _ _ _ _).wellFormed
  | update lifetime hp hl => exact (update_sound e hs hp _ _ _ _ _ _).wellFormed
  | @seekNew dest seqno ttl flags msec hnew httl hm =>
      have hins := wellFormed_seekListInsert hs dest seqno ttl flags hnew httl
      exact (Kept.arm _ (e.clock s.tick) (.seekTimer s.brk) msec List.mem_cons_self).wellFormed hins
  | @seekFail q hq =>
      have hfine : Fine e ev s (Aodv.seekFail e s q) := .seekFail hq
      exact (fine_sound hfine hs).wellFormed
  | @repairStart p hp hr =>
      have hfine : Fine e ev s (Aodv.repairStart s p) := .repairStart hp hr
      exact (fine_sound hfine hs).wellFormed

theorem move_trace {s s' : Daemon} (h : Move e ev s s') : s.trace <:+ s'.trace := by
  cases h with
  | slide h => exact slide_trace h
  | updateTimeout hl hp => exact (updateTimeout_said (P := RouteObs) e s _ _).suffix
  | rerrSeqno | repairStart => exact List.suffix_cons _ _
  | repairTimeout hp hr => exact (repairTimeout_said e s _).suffix
  | delete hp hh => exact (delete_said e s _).suffix
  | insert lifetime state hl => exact (insert_said (l := []) e s _ _ _ _ _ _ _).suffix
  | update lifetime hp hl =>
      exact (List.suffix_cons _ _).trans (update_said e hp _ _ _ _ _ _).suffix
  | @seekFail q hq =>
      have hsaid := noRoute_said e ((pop s (.seekTimer q)).tock.observe (.discoveryFailed q))
        (s.seek q).destAddr
      exact (List.suffix_cons _ _).trans hsaid.suffix
  | helloArm | helloMark | expireIdle | seekNew => exact List.suffix_refl _

theorem coarse_moves {s s' : Daemon} (h : Coarse e ev s s') (hs : WellFormed s) :
    ReflTransGen (Move e ev) s s' := by
  have hruns := coarse_fines h hs
  clear h
  induction hruns with
  | refl => exact .refl
  | tail hrun h ih => exact ih.trans (fine_moves h (fines_sound hrun hs).wellFormed)

theorem idle_takeDue (a : Arch) (now : Timeval) {s : Daemon} (hs : WellFormed s)
    (hq : s.timers.exptq = []) :
    Idle s (takeDue a now s) := by
  refine .frame (wellFormed_takeDue _ now hs hq) (Nat.le_refl _) rfl rfl rfl rfl
    ⟨fun _ => rfl, fun p => ?_, fun p => ?_,
    fun k => ?_⟩ (.same rfl)
  · exact pending_takeDue _ now hq _
  · exact (pending_takeDue _ now hq _).1
  · exact (pending_takeDue _ now hq _).2

end

/-- What holds between two events. -/
structure Resting (s : Daemon) : Prop where
  wellFormed : WellFormed s
  batch : s.timers.exptq = []

theorem Resting.wellFormed_due {s : Daemon} (h : Resting s) (a : Arch) (now : Timeval) :
    WellFormed (takeDue a now s.tock) :=
  wellFormed_takeDue a now ((Kept.tock s).wellFormed h.wellFormed) h.batch

theorem moves_trace {e : Env} {ev : Event} {s s' : Daemon} (h : ReflTransGen (Move e ev) s s') :
    s.trace <:+ s'.trace := by
  induction h with
  | refl => exact List.suffix_refl _
  | tail _ h ih => exact ih.trans (move_trace h)

theorem moves_wellFormed {e : Env} {ev : Event} {s s' : Daemon} (h : ReflTransGen (Move e ev) s s')
    (hs : WellFormed s) : WellFormed s' := by
  induction h with
  | refl => exact hs
  | tail _ h ih => exact move_wellFormed h ih

theorem step_moves {e : Env} {s : Daemon} (hs : Resting s) (ev : Event) :
    ReflTransGen (Move e ev) s (step e s ev) ∧ Resting (step e s ev) := by
  obtain ⟨s₁, hfrom, hrun, hdone⟩ := coarses_step (e := e) hs.wellFormed hs.batch ev
  have hstart : ReflTransGen (Move e ev) s s₁ := by
    rcases hfrom with rfl | ⟨now, rfl⟩
    · exact .refl
    · exact .single (.slide (.idle (idle_takeDue _ now hs.wellFormed hs.batch)))
  have hmoves : ReflTransGen (Move e ev) s (step e s ev) := by
    clear hfrom hdone
    have hs₁ := moves_wellFormed hstart hs.wellFormed
    generalize step e s ev = s₂ at hrun
    induction hrun with
    | refl => exact hstart
    | tail hc h ih => exact ih.trans (coarse_moves h (coarses_sound hc hs₁).wellFormed)
  exact ⟨hmoves, moves_wellFormed hmoves hs.wellFormed, hdone⟩

theorem resting_init (e : Env) (ipaddr broadcast : Addr) (ifindex : Int) :
    Resting (init e ipaddr broadcast ifindex) where
  wellFormed := wellFormed_init e ipaddr broadcast ifindex
  batch := List.sublist_nil.1 (exptq_timerSetTimeout_sublist (e.clock 0)
    (timerInit noTimers .rtLogTimer .printRtTable .null) .rtLogTimer rtLogInterval)

/-- A property that every move keeps while the history meets a condition holds
at the end of an event. -/
theorem step_keeps {e : Env} {C : List Obs → Prop} {J : Daemon → Prop}
    (hC : ∀ tr tr', tr <:+ tr' → C tr' → C tr) {s : Daemon} {ev : Event}
    (hstep : ∀ s s', WellFormed s → C s'.trace → J s → Move e ev s s' → J s')
    (hs : Resting s) (hJ : J s) (hc : C (step e s ev).trace) : J (step e s ev) := by
  obtain ⟨hmoves, _⟩ := step_moves (e := e) hs ev
  have hall : C (step e s ev).trace → J (step e s ev) := by
    clear hc
    generalize step e s ev = s₂ at hmoves
    induction hmoves with
    | refl => exact fun _ => hJ
    | tail hrun h ih =>
        intro hc
        exact hstep _ _ (moves_wellFormed hrun hs.wellFormed) hc (ih (hC _ _ (move_trace h) hc)) h
  exact hall hc

theorem Reachable.events {e : Env} {I : Daemon → Prop}
    (hinit : ∀ ipaddr broadcast ifindex, I (init e ipaddr broadcast ifindex))
    (hstep : ∀ s ev, Resting s → I s → I (step e s ev)) {s : Daemon} (h : Reachable e s) : I s := by
  have hall := Reachable.induction (P := fun s => Resting s ∧ I s) ?_ ?_ h
  · exact hall.2
  · exact fun ipaddr broadcast ifindex =>
      ⟨resting_init e ipaddr broadcast ifindex, hinit ipaddr broadcast ifindex⟩
  · exact fun s ev hs => ⟨(step_moves hs.1 ev).2, hstep s ev hs.1 hs.2⟩

theorem Reachable.moves {e : Env} {C : List Obs → Prop} {J : Daemon → Prop}
    (hC : ∀ tr tr', tr <:+ tr' → C tr' → C tr)
    (hinit : ∀ ipaddr broadcast ifindex, J (init e ipaddr broadcast ifindex))
    (hstep : ∀ ev s s', WellFormed s → C s'.trace → J s → Move e ev s s' → J s')
    {s : Daemon} (h : Reachable e s) (hc : C s.trace) : Resting s ∧ J s := by
  have hall := Reachable.induction (P := fun s => Resting s ∧ (C s.trace → J s)) ?_ ?_ h
  · exact ⟨hall.1, hall.2 hc⟩
  · exact fun ipaddr broadcast ifindex =>
      ⟨resting_init e ipaddr broadcast ifindex, fun _ => hinit ipaddr broadcast ifindex⟩
  · rintro s ev ⟨hs, hJ⟩
    obtain ⟨hmoves, hrest⟩ := step_moves (e := e) hs ev
    refine ⟨hrest, fun hc => step_keeps hC (hstep ev) hs (hJ ?_) hc⟩
    exact hC _ _ (moves_trace hmoves) hc

theorem Reachable.resting {e : Env} {s : Daemon} (h : Reachable e s) : Resting s :=
  (Reachable.moves (C := fun _ => True) (J := fun _ => True) (fun _ _ _ => id)
    (fun _ _ _ => trivial) (fun _ _ _ _ _ _ _ => trivial) h trivial).1

end Aodv
