import Aodv.RingSearch
import Aodv.Searches

namespace Aodv.Discovery

open Lib.Bytes
open Relation

def asks (d : Addr) : Obs → Bool
  | .socketSend (.rreq m) _ _ _ _ => decide (m.destAddr = d)
  | _ => false

def denies (d : Addr) : Obs → Bool
  | .nl (.noRouteFound dest) => decide (dest = d)
  | _ => false

def Unrelated (o : Obs) : Prop := ∀ d, asks d o = false ∧ denies d o = false

section Said

variable {e : Env} {ev : Event} {s s' : Daemon} {p : Ptr}

theorem breaks_unrelated : AdmitsBreak Unrelated where
  nl m hm d := ⟨rfl, by
    cases m with
    | noRouteFound x => exact absurd rfl (hm x)
    | addRoute | delRoute => rfl⟩
  kernelRoute _ _ _ _ _ _ := ⟨rfl, rfl⟩
  down _ _ _ := ⟨rfl, rfl⟩
  rerr _ _ _ _ _ _ _ := ⟨rfl, rfl⟩

theorem quiet_unrelated (h : Quiet e ev s s') (hs : WellFormed s) : Said Unrelated s s' := by
  cases h with
  | lb h => exact lb_told breaks_unrelated h
  | updateTimeout => exact updateTimeout_said e s _ _
  | @precursor p r hp hr =>
      refine .same ?_
      simp only [precursorAdd]
      split <;> rfl
  | unidirBreak | answer | rerrSeqno | rrepSend | rrepAck | relay =>
      exact .one rfl fun _ => ⟨rfl, rfl⟩
  | repairTimeout =>
      exact repairTimeout_told breaks_unrelated.toAdmits breaks_unrelated.rerr e s _
  | delete => exact delete_told breaks_unrelated.toAdmits e s _
  | @helloFire p hp =>
      exact helloTimeout_told breaks_unrelated (s := pop s (.helloTimer p)) (hs.owned _ hp)
  | blacklist dest =>
      refine .same ?_
      rw [rreqBlacklistInsert]
      split <;> rfl
  | helloArm | helloCount | dropHello | dropAck | armAck | unidir | expireIdle | dropRecord
  | dropBlacklist | armLog | armWorb | rrepWrite => exact .same rfl

end Said

structure Aside (s s' : Daemon) : Prop where
  said : Said Unrelated s s'
  brk : s.brk ≤ s'.brk
  sl : s'.sl = s.sl
  seek : s'.seekMem = s.seekMem

/-- The calls that may touch the seek list, or say something about a search, and
whatever the daemon does besides. -/
inductive Turn (e : Env) : Daemon → Daemon → Prop
  | aside {s s' : Daemon} (h : Aside s s') (hw : WellFormed s') : Turn e s s'
  | insert {s : Daemon} (dest next : Addr) (hops seqno lifetime : U32) (state : RtState)
      (flags : RtFlags) : Turn e s (rtTableInsert e s dest next hops seqno lifetime state flags).1
  | update {s : Daemon} {p : Ptr} (hp : Linked s.rtTbl p) (next : Addr) (hops seqno lifetime : U32)
      (state : RtState) (flags : RtFlags) :
      Turn e s (rtTableUpdate e s p next hops seqno lifetime state flags)
  | discover {s : Daemon} (dest : Addr) (flags : U8) : Turn e s (rreqRouteDiscovery e s dest flags)
  | repair {s : Daemon} {p : Ptr} (hp : Linked s.rtTbl p) (src : Addr) :
      Turn e s (rreqLocalRepair e s p src)
  | timeout {s : Daemon} {q : Ptr} (hq : q ∈ s.sl) :
      Turn e s (routeDiscoveryTimeout e (pop s (.seekTimer q)) q)

namespace Aside

variable {s s' : Daemon}

theorem refl : Aside s s := ⟨.same rfl, Nat.le_refl _, rfl, rfl⟩

theorem kept (h : Kept s s') (hsaid : Said Unrelated s s') : Aside s s' :=
  ⟨hsaid, Nat.le_of_eq h.brk.symm, h.sl, h.seek⟩

end Aside

section Turns

variable {e : Env} {ev : Event} {s s' : Daemon} {p : Ptr}

theorem turn_sound (h : Turn e s s') (hs : WellFormed s) : WellFormed s' ∧ s.brk ≤ s'.brk := by
  cases h with
  | aside h hw => exact ⟨hw, h.brk⟩
  | insert dest next hops seqno lifetime state flags =>
      have hsound := insert_sound e hs dest next hops seqno lifetime state flags
      exact ⟨hsound.wellFormed, hsound.brk⟩
  | update hp next hops seqno lifetime state flags =>
      have hsound := update_sound e hs hp next hops seqno lifetime state flags
      exact ⟨hsound.wellFormed, hsound.brk⟩
  | discover dest flags =>
      have hstep : Coarse e .age s _ := .discover dest flags
      exact ⟨(coarse_sound hstep hs).wellFormed, (coarse_sound hstep hs).brk⟩
  | repair hp src =>
      have hstep : Coarse e .age s _ := .repair src hp
      exact ⟨(coarse_sound hstep hs).wellFormed, (coarse_sound hstep hs).brk⟩
  | timeout hq =>
      have hstep : Coarse e .age s _ := .discoveryTimeout hq
      exact ⟨(coarse_sound hstep hs).wellFormed, (coarse_sound hstep hs).brk⟩

theorem turns_sound (h : ReflTransGen (Turn e) s s') (hs : WellFormed s) :
    WellFormed s' ∧ s.brk ≤ s'.brk := by
  induction h with
  | refl => exact ⟨hs, Nat.le_refl _⟩
  | tail _ h ih =>
      obtain ⟨hw, hle⟩ := turn_sound h ih.1
      exact ⟨hw, Nat.le_trans ih.2 hle⟩

theorem aside_quiet (h : Quiet e ev s s') (hs : WellFormed s) : Aside s s' := by
  have hcalm := quiet_calm h hs
  exact ⟨quiet_unrelated h hs, (quiet_sound h hs).brk, hcalm.sl, hcalm.seek⟩

theorem aside_record (e : Env) (s : Daemon) (m : RREQ) (src : Addr) :
    Aside s (rreqRecordInsert e (s.observe (.rreqAccepted m src)) m.origAddr m.rreqId) := by
  have hsaid : ∀ d, asks d (.rreqAccepted m src) = false ∧ denies d (.rreqAccepted m src) = false :=
    fun _ => ⟨rfl, rfl⟩
  rw [rreqRecordInsert]
  split
  · exact ⟨.one rfl hsaid, Nat.le_refl _, rfl, rfl⟩
  · exact ⟨.one rfl hsaid, Nat.le_succ _, rfl, rfl⟩

theorem turns_reverse (e : Env) (s : Daemon) (m : RREQ) (src : Addr) :
    ReflTransGen (Turn e) s (rreqReverse e s m src).1 := by
  rw [rreqReverse]
  dsimp only
  cases hc : rtTableCheck s.rtTbl m.origAddr with
  | none => exact .single (.insert _ _ _ _ _ _ _)
  | some p =>
      dsimp only
      split
      · exact .single (.update (rtTableCheck_some hc).1 _ _ _ _ _ _)
      · exact .refl

theorem coarse_turns (h : Coarse e ev s s') (hs : WellFormed s) : ReflTransGen (Turn e) s s' := by
  have hw := (coarse_sound h hs).wellFormed
  cases h with
  | quiet h => exact .single (.aside (aside_quiet h hs) hw)
  | insert => exact .single (.insert _ _ _ _ _ _ _)
  | update lifetime hp => exact .single (.update hp _ _ _ _ _ _)
  | @accept pkt h ht horig hlen hnew =>
      have hrecord : Fine e ev s _ := .record h ht hnew
      have hfirst := aside_record e s (rreqOf pkt.buf) pkt.src
      refine .head (.aside hfirst (fine_sound hrecord hs).wellFormed) ?_
      exact turns_reverse e _ (rreqOf pkt.buf) pkt.src
  | forUs => exact .single (.aside ⟨.one rfl fun _ => ⟨rfl, rfl⟩, Nat.le_refl _, rfl, rfl⟩ hw)
  | discover dest flags => exact .single (.discover dest flags)
  | repair src hp => exact .single (.repair hp src)
  | discoveryTimeout hq => exact .single (.timeout hq)

/-- An event is a sequence of calls. -/
theorem turns_step (hs : Resting s) (ev : Event) : ReflTransGen (Turn e) s (step e s ev) := by
  obtain ⟨s₁, hfrom, hrun, -⟩ := coarses_step (e := e) hs.wellFormed hs.batch ev
  have hstart : ReflTransGen (Turn e) s s₁ ∧ WellFormed s₁ := by
    rcases hfrom with rfl | ⟨now, rfl⟩
    · exact ⟨.refl, hs.wellFormed⟩
    · have hw := wellFormed_takeDue e.arch now hs.wellFormed hs.batch
      exact ⟨.single (.aside ⟨.same rfl, Nat.le_refl _, rfl, rfl⟩ hw), hw⟩
  generalize step e s ev = s₂ at hrun
  induction hrun with
  | refl => exact hstart.1
  | tail hc h ih => exact ih.trans (coarse_turns h (coarses_sound hc hstart.2).wellFormed)

end Turns

def Asked (s s' : Daemon) (d : Addr) : Prop :=
  ∃ l, s'.trace = l ++ s.trace ∧ (∀ x, l.countP (asks x) = if x = d then 1 else 0) ∧
    ∀ x, l.countP (denies x) = 0

structure Starts (s s' : Daemon) (d : Addr) : Prop where
  asked : Asked s s' d
  new : ∀ q ∈ s.sl, (s.seek q).destAddr ≠ d
  sl : s'.sl = s.brk :: s.sl
  self : (s'.seek s.brk).destAddr = d ∧ (s'.seek s.brk).rreqCnt = 1
  others : ∀ q, q ≠ s.brk → s'.seek q = s.seek q

structure Again (s s' : Daemon) (q : Ptr) : Prop where
  asked : Asked s s' (s.seek q).destAddr
  sl : s'.sl = s.sl
  self : (s'.seek q).destAddr = (s.seek q).destAddr ∧ (s'.seek q).rreqCnt = (s.seek q).rreqCnt + 1
  others : ∀ k, k ≠ q → s'.seek k = s.seek k

def Finds (s s' : Daemon) (p : Ptr) : Prop :=
  Linked s'.rtTbl p ∧ ∃ s₁, Aside s s₁ ∧ s' = routeFound s₁ p

theorem countP_unrelated {l : List Obs} (h : ∀ o ∈ l, Unrelated o) (d : Addr) :
    l.countP (asks d) = 0 ∧ l.countP (denies d) = 0 := by
  constructor
  · apply List.countP_eq_zero.2
    intro o ho
    simp [(h o ho d).1]
  · apply List.countP_eq_zero.2
    intro o ho
    simp [(h o ho d).2]

section Does

variable {e : Env} {s s' : Daemon} {p q : Ptr}

theorem insert_finds (e : Env) (s : Daemon) (dest next : Addr) (hops seqno lifetime : U32)
    (state : RtState) (flags : RtFlags) :
    Aside s (rtTableInsert e s dest next hops seqno lifetime state flags).1 ∨
      Finds s (rtTableInsert e s dest next hops seqno lifetime state flags).1 s.brk := by
  have hsaid : Said Unrelated s (rtTableInsert e s dest next hops seqno lifetime state flags).1 :=
    insert_told breaks_unrelated.toAdmits e s fun _ => ⟨rfl, rfl⟩
  obtain h | ⟨_, s₁, hkept, h⟩ := insert_kept e s dest next hops seqno lifetime state flags
  · left
    rw [h]
    exact .refl
  · right
    rw [h] at hsaid ⊢
    have hlinked : Linked s₁.rtTbl s.brk :=
      (hkept.keys.linked s.brk).2 ((linked_linkEntry _ _ _).2 (.inl rfl))
    refine ⟨?_, s₁, ⟨?_, ?_, hkept.sl, hkept.seek⟩, rfl⟩
    · rw [tbl_routeFound]
      exact hlinked
    · obtain ⟨l, hl, hm⟩ := hsaid
      exact ⟨l, (routeFound_trace s₁ s.brk).symm.trans hl, hm⟩
    · rw [hkept.brk]
      exact Nat.le_succ _

theorem update_finds (hp : Linked s.rtTbl p) (next : Addr) (hops seqno lifetime : U32)
    (state : RtState) (flags : RtFlags) :
    Finds s (rtTableUpdate e s p next hops seqno lifetime state flags) p := by
  have hsaid : Said Unrelated s (rtTableUpdate e s p next hops seqno lifetime state flags) :=
    update_told breaks_unrelated e hp fun _ => ⟨rfl, rfl⟩
  obtain ⟨s₁, hkept, heq⟩ := update_kept e s hp next hops seqno lifetime state flags
  rw [heq] at hsaid ⊢
  refine ⟨?_, s₁, .kept hkept ?_, rfl⟩
  · rw [tbl_routeFound]
    exact (hkept.keys.linked p).2 hp
  · obtain ⟨l, hl, hm⟩ := hsaid
    exact ⟨l, (routeFound_trace s₁ p).symm.trans hl, hm⟩

theorem routeFound_gone (hq : q ∈ s.sl) (hgone : q ∉ (routeFound s p).sl) :
    (s.rt p).state = .valid ∧ (s.rt p).destAddr = (s.seek q).destAddr := by
  rw [routeFound] at hgone
  split at hgone
  next hv =>
    refine ⟨hv, ?_⟩
    cases hc : seekListCheck s (s.rt p).destAddr with
    | none =>
        rw [hc] at hgone
        exact absurd hq hgone
    | some k =>
        have hfound : (s.seek k).destAddr = (s.rt p).destAddr := by
          have hsome := List.find?_some hc
          simpa using hsome
        have hkq : q = k := by
          rw [hc] at hgone
          by_contra hne
          exact hgone (List.mem_filter.2 ⟨hq, by simpa using hne⟩)
        rw [hkq, hfound]
  · exact absurd hq hgone

theorem rreqSend_asked (hen : s.host.enabled = true) (dest : Addr) (seqno : U32) (ttl : Int)
    (flags : U8) : ∃ o, (rreqSend e s dest seqno ttl flags).trace = o :: s.trace ∧
      (∀ x, asks x o = decide (x = dest)) ∧ ∀ x, denies x o = false := by
  rw [rreqSend, if_pos hen]
  refine ⟨_, rfl, fun x => ?_, fun x => rfl⟩
  change decide (dest = x) = decide (x = dest)
  simp [eq_comm]

theorem asked_of {d : Addr} {o : Obs} {l : List Obs} (htrace : s'.trace = l ++ o :: s.trace)
    (hl : ∀ o ∈ l, Unrelated o) (ho : ∀ x, asks x o = decide (x = d)) (hn : ∀ x, denies x o = false) :
    Asked s s' d := by
  refine ⟨l ++ [o], by rw [htrace, List.append_assoc]; rfl, fun x => ?_, fun x => ?_⟩
  · rw [List.countP_append, (countP_unrelated hl x).1, List.countP_singleton, ho x]
    simp
  · rw [List.countP_append, (countP_unrelated hl x).2, List.countP_singleton, hn x]
    simp

theorem starts_open (s' : Daemon) (hen : s.host.enabled = true) {dest : Addr} {seqno : U32}
    {ttl : Int} (flags : U8)
    (hnew : seekListCheck s dest = none) {l : List Obs} (hl : ∀ o ∈ l, Unrelated o)
    (htrace : s'.trace = l ++ (rreqSend e s dest seqno ttl flags).trace) (hsl : s'.sl = s.sl)
    (hseek : s'.seekMem = s.seekMem) (hbrk : s'.brk = s.brk) (msec : Int) :
    Starts s (seekArm e (seekListInsert s' dest seqno ttl flags).1 s'.brk msec) dest := by
  obtain ⟨o, ho, hasks, hdenies⟩ := rreqSend_asked (e := e) hen dest seqno ttl flags
  refine ⟨?_, fun q hq hd => ?_, ?_, ?_, fun q hq => ?_⟩
  · refine asked_of (o := o) (l := l) ?_ hl hasks hdenies
    rw [← ho]
    exact htrace
  · have hnone := List.find?_eq_none.1 hnew q hq
    simp [hd] at hnone
  · change s'.brk :: s'.sl = _
    rw [hbrk, hsl]
  · rw [← hbrk]
    change (Function.update s'.seekMem s'.brk _ s'.brk).destAddr = dest ∧
      (Function.update s'.seekMem s'.brk _ s'.brk).rreqCnt = 1
    rw [Function.update_self]
    exact ⟨rfl, rfl⟩
  · change Function.update s'.seekMem s'.brk _ q = _
    rw [hbrk, Function.update_of_ne hq, hseek]
    rfl

theorem starts_after {d : Addr} {s₁ : Daemon} (ha : Aside s s₁) (hbrk : s₁.brk = s.brk)
    (h : Starts s₁ s' d) : Starts s s' d := by
  have hmem : s₁.seek = s.seek := ha.seek
  obtain ⟨⟨l, hl, hasks, hdenies⟩, hnew, hlist, hself, hothers⟩ := h
  obtain ⟨l₀, hl₀, hm⟩ := ha.said
  rw [ha.sl, hmem] at hnew
  rw [hbrk, ha.sl] at hlist
  rw [hbrk] at hself
  rw [hbrk, hmem] at hothers
  refine ⟨⟨l ++ l₀, ?_, fun x => ?_, fun x => ?_⟩, hnew, hlist, hself, hothers⟩
  · rw [hl, hl₀, List.append_assoc]
  · rw [List.countP_append, (countP_unrelated hm x).1, hasks x, Nat.add_zero]
  · rw [List.countP_append, (countP_unrelated hm x).2, hdenies x]

theorem discoverySend_starts (hen : s.host.enabled = true) {dest : Addr}
    (hnew : seekListCheck s dest = none) (seqno : U32) (ttl : Int) (flags : U8)
    (found : Option RtEntry) : Starts s (discoverySend e s dest seqno ttl flags found) dest := by
  let s₁ := rreqSend e s dest seqno ttl flags
  obtain ⟨-, hsl, hmem, -, hbrk⟩ := rreqSend_frame e s dest seqno ttl flags
  have hmark : ∀ o ∈ [Obs.discovery s₁.brk found], Unrelated o := by
    intro o ho
    rw [List.mem_singleton.1 ho]
    exact fun _ => ⟨rfl, rfl⟩
  exact starts_open (s₁.observe (.discovery s₁.brk found)) hen flags hnew hmark rfl hsl hmem hbrk _

theorem repairSend_starts (hen : s.host.enabled = true) {dest : Addr}
    (hnew : seekListCheck s dest = none) (seqno : U32) (ttl : Int) :
    Starts s (repairSend e s dest seqno ttl) dest := by
  obtain ⟨-, hsl, hmem, -, hbrk⟩ := rreqSend_frame e s dest seqno ttl 0
  exact starts_open (l := []) (rreqSend e s dest seqno ttl 0) hen 0 hnew (by simp) rfl hsl hmem
    hbrk _

theorem discover_does (hs : WellFormed s) (dest : Addr) (flags : U8) :
    Aside s (rreqRouteDiscovery e s dest flags) ∨
    Starts s (rreqRouteDiscovery e s dest flags) dest := by
  have hclock : Aside s s.tock := ⟨.same rfl, Nat.le_refl _, rfl, rfl⟩
  rw [rreqRouteDiscovery]
  dsimp only
  cases hc : seekListCheck s.tock dest with
  | some q => exact .inl hclock
  | none =>
      right
      cases hr : rtTableCheck s.tock.rtTbl dest with
      | none =>
          exact starts_after hclock rfl (discoverySend_starts (s := s.tock) hs.enabled hc _ _ flags
            none)
      | some p =>
          obtain ⟨tq, n, hrefresh⟩ := seekRefresh_eq e s.tock p (e.clock s.tick)
          dsimp only
          rw [hrefresh]
          let s₁ : Daemon := { s.tock with timers := tq, tick := n }
          have hrefreshed : Aside s s₁ := ⟨.same rfl, Nat.le_refl _, rfl, rfl⟩
          exact starts_after hrefreshed rfl (discoverySend_starts (s := s₁) hs.enabled hc _ _ flags _)

theorem repair_does (hs : WellFormed s) (p : Ptr) (src : Addr) :
    Aside s (rreqLocalRepair e s p src) ∨ Starts s (rreqLocalRepair e s p src) (s.rt p).destAddr := by
  rw [rreqLocalRepair]
  split
  · exact .inl .refl
  next hnew =>
    split
    · exact .inl .refl
    · right
      obtain ⟨tq, n, hrefresh⟩ := seekRefresh_eq e (repairStart s.tock p) p (e.clock s.tick)
      dsimp only
      rw [hrefresh]
      let s₁ : Daemon := { repairStart s.tock p with timers := tq, tick := n }
      have hrefreshed : Aside s s₁ := ⟨.one rfl fun _ => ⟨rfl, rfl⟩, Nat.le_refl _, rfl, rfl⟩
      have hnone : seekListCheck s (s.rt p).destAddr = none := by simpa using hnew
      exact starts_after hrefreshed rfl (repairSend_starts (s := s₁) hs.enabled hnone _ _)

theorem seekAgain_again (hs : WellFormed s) (q : Ptr) (now : Timeval) :
    Again s (seekAgain e (pop s (.seekTimer q)).tock q now) q := by
  rw [seekAgain, seekRearm_eq]
  obtain ⟨tq, n, hrefresh⟩ := refreshSought_eq e (ringArm e s q (ringNext e (s.seek q)).1
    (ringNext e (s.seek q)).2) ((pop s (.seekTimer q)).tock.seek q).destAddr now
  rw [hrefresh]
  let s₁ : Daemon := { ringArm e s q (ringNext e (s.seek q)).1 (ringNext e (s.seek q)).2 with
    timers := tq, tick := n }
  have hseek : s₁.seek q = { s.seek q with ttl := (ringNext e (s.seek q)).1 } :=
    seek_setSeek_self (pop s (.seekTimer q)).tock q _
  have hothers (k : Ptr) (hk : k ≠ q) : s₁.seek k = s.seek k := Function.update_of_ne hk _ _
  change Again s (seekSend e s₁ q) q
  let s₂ := rreqSend e s₁ (s₁.seek q).destAddr (s₁.seek q).destSeqno (s₁.seek q).ttl (s₁.seek q).flags
  obtain ⟨o, ho, hasks, hdenies⟩ := rreqSend_asked (e := e) (s := s₁) hs.enabled (s₁.seek q).destAddr
    (s₁.seek q).destSeqno (s₁.seek q).ttl (s₁.seek q).flags
  obtain ⟨-, hsl, hmem, -, -⟩ := rreqSend_frame e s₁ (s₁.seek q).destAddr (s₁.seek q).destSeqno
    (s₁.seek q).ttl (s₁.seek q).flags
  have hmem₂ : s₂.seek = s₁.seek := hmem
  have hself : (seekSend e s₁ q).seek q = { s₂.seek q with rreqCnt := (s₂.seek q).rreqCnt + 1 } :=
    Function.update_self _ _ _
  refine ⟨?_, hsl, ?_, fun k hk => ?_⟩
  · have hd : (s₁.seek q).destAddr = (s.seek q).destAddr := by rw [hseek]
    rw [hd] at hasks
    refine asked_of (o := o) (l := [.discoveryAgain q]) ?_ ?_ hasks hdenies
    · change .discoveryAgain q :: s₂.trace = _
      rw [ho]
      rfl
    · intro o ho
      rw [List.mem_singleton.1 ho]
      exact fun _ => ⟨rfl, rfl⟩
  · rw [hself, hmem₂, hseek]
    exact ⟨rfl, rfl⟩
  · have hother : (seekSend e s₁ q).seek k = s₂.seek k := Function.update_of_ne hk _ _
    rw [hother, hmem₂, hothers k hk]

theorem seekGiveUp_denies (e : Env) (s : Daemon) (q : Ptr) :
    ∃ l, (seekGiveUp e (pop s (.seekTimer q)).tock q).trace = l ++ s.trace ∧
      (∀ x, l.countP (asks x) = 0) ∧
      (∀ x, l.filter (denies x) = if x = (s.seek q).destAddr ∧ e.sendmsg (s.tick + 1) = true
        then [.nl (.noRouteFound x)] else []) ∧
      (seekGiveUp e (pop s (.seekTimer q)).tock q).sl = s.sl.filter (· ≠ q) ∧
      (seekGiveUp e (pop s (.seekTimer q)).tock q).seekMem = s.seekMem := by
  let m : List Obs := if e.sendmsg (s.tick + 1) then [.nl (.noRouteFound (s.seek q).destAddr)] else []
  have hfail : (Aodv.seekFail e s q).trace = m ++ .discoveryFailed q :: s.trace := by
    change (if e.sendmsg (s.tick + 1) then .nl (.noRouteFound (s.seek q).destAddr) ::
      .discoveryFailed q :: s.trace else .discoveryFailed q :: s.trace) = _
    split <;> simp [m, *]
  have hm (x : Addr) : m.countP (asks x) = 0 ∧
      m.filter (denies x) = if x = (s.seek q).destAddr ∧ e.sendmsg (s.tick + 1) = true
        then [.nl (.noRouteFound x)] else [] := by
    by_cases hsend : e.sendmsg (s.tick + 1) = true
    · by_cases hx : x = (s.seek q).destAddr
      · simp [m, hsend, hx, asks, denies]
      · simp [m, hsend, hx, asks, denies, Ne.symm hx]
    · simp [m, hsend]
  obtain ⟨⟨l, hl, hlm⟩, hsl, hmem⟩ : Said Unrelated (Aodv.seekFail e s q)
      (seekGiveUp e (pop s (.seekTimer q)).tock q) ∧
      (seekGiveUp e (pop s (.seekTimer q)).tock q).sl = s.sl.filter (· ≠ q) ∧
      (seekGiveUp e (pop s (.seekTimer q)).tock q).seekMem = s.seekMem := by
    rw [seekGiveUp_eq, repairGiveUp]
    cases hr : rtTableCheck (Aodv.seekFail e s q).rtTbl (s.seek q).destAddr with
    | none => exact ⟨.same rfl, rfl, rfl⟩
    | some p =>
        dsimp only
        split
        · have hkept := kept_localRepairTimeout e (rtTableCheck_some hr).1
          exact ⟨repairTimeout_told breaks_unrelated.toAdmits breaks_unrelated.rerr e _ p,
            hkept.sl, hkept.seek⟩
        · exact ⟨.same rfl, rfl, rfl⟩
  have hfailed : Unrelated (.discoveryFailed q) := fun _ => ⟨rfl, rfl⟩
  refine ⟨l ++ (m ++ [.discoveryFailed q]), ?_, fun x => ?_, fun x => ?_, hsl, hmem⟩
  · rw [hl, hfail]
    simp
  · simp [(countP_unrelated hlm x).1, (hm x).1, (hfailed x).1]
  · have hnone : l.filter (denies x) = [] := by
      apply List.filter_eq_nil_iff.2
      intro o ho
      simp [(hlm o ho x).2]
    simp only [List.filter_append, hnone, (hm x).2, List.filter_cons, (hfailed x).2]
    simp

end Does

/-- The entry q of s waits for an answer. Since s₀, in which it was made, as many
RREQs have been made for its destination as it counts, and the kernel was not told
that there is no route. -/
structure Waiting (s₀ s : Daemon) (q : Ptr) : Prop where
  mem : q ∈ s.sl
  suffix : s₀.trace <:+ s.trace
  asked : ((since s₀ s).countP (asks (s.seek q).destAddr) : Int) = (s.seek q).rreqCnt
  few : (s.seek q).rreqCnt ≤ rreqRetries
  silent : (since s₀ s).countP (denies (s.seek q).destAddr) = 0

/-- What becomes of the entry q of s in a call that leads to s': it waits on; or a
route to its destination is found; or its last RREQ has not been answered. -/
inductive Fate (e : Env) (s₀ s s' : Daemon) (q : Ptr) : Prop
  | waits (h : Waiting s₀ s' q) (hd : (s'.seek q).destAddr = (s.seek q).destAddr)
  | found {p : Ptr}
      (hcall : (∃ dest next hops seqno lifetime state flags,
          s' = (rtTableInsert e s dest next hops seqno lifetime state flags).1) ∨
        ∃ next hops seqno lifetime state flags,
          s' = rtTableUpdate e s p next hops seqno lifetime state flags)
      (hp : Linked s'.rtTbl p) (hd : (s'.rt p).destAddr = (s.seek q).destAddr)
      (hv : (s'.rt p).state = .valid) (hgone : q ∉ s'.sl)
      (hasked : ((since s₀ s').countP (asks (s.seek q).destAddr) : Int) ≤ rreqRetries)
      (hsilent : (since s₀ s').countP (denies (s.seek q).destAddr) = 0)
  | failed (hcall : s' = routeDiscoveryTimeout e (pop s (.seekTimer q)) q) (hgone : q ∉ s'.sl)
      (hasked : ((since s₀ s').countP (asks (s.seek q).destAddr) : Int) = rreqRetries)
      (htold : (since s₀ s').filter (denies (s.seek q).destAddr) =
        if e.sendmsg (s.tick + 1) = true then [.nl (.noRouteFound (s.seek q).destAddr)] else [])

section Waiting

variable {e : Env} {s₀ s s' : Daemon} {p q : Ptr} {l : List Obs}

theorem since_after (h : s₀.trace <:+ s.trace) (hl : s'.trace = l ++ s.trace) :
    s₀.trace <:+ s'.trace ∧ since s₀ s' = l ++ since s₀ s := by
  obtain ⟨l₀, hl₀⟩ := h
  have hall : s'.trace = (l ++ l₀) ++ s₀.trace := by
    rw [hl, ← hl₀, List.append_assoc]
  refine ⟨⟨l ++ l₀, hall.symm⟩, ?_⟩
  rw [since_eq hall, since_eq hl₀.symm]

theorem Waiting.later (h : Waiting s₀ s q) (hl : s'.trace = l ++ s.trace) (hq : q ∈ s'.sl)
    (hd : (s'.seek q).destAddr = (s.seek q).destAddr)
    (hcnt : (s'.seek q).rreqCnt = (s.seek q).rreqCnt + l.countP (asks (s.seek q).destAddr))
    (hfew : (s'.seek q).rreqCnt ≤ rreqRetries) (hdenies : l.countP (denies (s.seek q).destAddr) = 0) :
    Waiting s₀ s' q := by
  obtain ⟨hsuffix, hsince⟩ := since_after h.suffix hl
  refine ⟨hq, hsuffix, ?_, hfew, ?_⟩
  · rw [hd, hsince, List.countP_append, hcnt, ← h.asked, Int.natCast_add, Int.add_comm]
  · rw [hd, hsince, List.countP_append, hdenies, h.silent]

theorem Waiting.unasked (h : Waiting s₀ s q) (hl : s'.trace = l ++ s.trace) (hq : q ∈ s'.sl)
    (hseek : s'.seek q = s.seek q) (hasks : l.countP (asks (s.seek q).destAddr) = 0)
    (hdenies : l.countP (denies (s.seek q).destAddr) = 0) : Waiting s₀ s' q := by
  refine h.later hl hq (by rw [hseek]) ?_ ?_ hdenies
  · rw [hseek, hasks, Int.natCast_zero, Int.add_zero]
  · rw [hseek]
    exact h.few

theorem Waiting.aside (h : Waiting s₀ s q) (ha : Aside s s') :
    Waiting s₀ s' q ∧ (s'.seek q).destAddr = (s.seek q).destAddr := by
  obtain ⟨l, hl, hm⟩ := ha.said
  have hseek : s'.seek = s.seek := ha.seek
  obtain ⟨hasks, hdenies⟩ := countP_unrelated hm (s.seek q).destAddr
  refine ⟨h.unasked hl ?_ (by rw [hseek]) hasks hdenies, by rw [hseek]⟩
  rw [ha.sl]
  exact h.mem

theorem seek_routeFound (s : Daemon) (p q : Ptr) : (routeFound s p).seek q = s.seek q := by
  rw [routeFound]
  split
  · cases seekListCheck s (s.rt p).destAddr <;> rfl
  · rfl

theorem sl_routeFound (s : Daemon) (p : Ptr) : (routeFound s p).sl ⊆ s.sl := by
  rw [routeFound]
  split
  · cases seekListCheck s (s.rt p).destAddr with
    | none => exact List.Subset.refl _
    | some k => exact List.filter_subset_self _
  · exact List.Subset.refl _

theorem Waiting.finds (h : Waiting s₀ s q) (hf : Finds s s' p)
    (hcall : (∃ dest next hops seqno lifetime state flags,
        s' = (rtTableInsert e s dest next hops seqno lifetime state flags).1) ∨
      ∃ next hops seqno lifetime state flags,
        s' = rtTableUpdate e s p next hops seqno lifetime state flags) : Fate e s₀ s s' q := by
  obtain ⟨hp, s₁, ha, heq⟩ := hf
  obtain ⟨h₁, hd⟩ := h.aside ha
  have htrace : s'.trace = [] ++ s₁.trace := by
    rw [heq]
    exact routeFound_trace s₁ p
  have hseek : s'.seek q = s₁.seek q := by
    rw [heq]
    exact seek_routeFound s₁ p q
  by_cases hq : q ∈ s'.sl
  · refine .waits (h₁.unasked htrace hq hseek rfl rfl) ?_
    rw [hseek, hd]
  · obtain ⟨hv, hdest⟩ := routeFound_gone (p := p) h₁.mem (by rw [← heq]; exact hq)
    have hrt : s'.rt p = s₁.rt p := by
      rw [heq]
      exact rt_routeFound s₁ p p
    refine .found hcall hp ?_ ?_ hq ?_ ?_
    · rw [hrt, hdest, hd]
    · rw [hrt, hv]
    · rw [(since_after h₁.suffix htrace).2, ← hd, List.nil_append, h₁.asked]
      exact h₁.few
    · rw [(since_after h₁.suffix htrace).2, ← hd]
      exact h₁.silent

theorem Waiting.starts (h : Waiting s₀ s q) (hs : WellFormed s) {d : Addr} (hst : Starts s s' d) :
    Fate e s₀ s s' q := by
  obtain ⟨l, hl, hasks, hdenies⟩ := hst.asked
  have hne : q ≠ s.brk := Nat.ne_of_lt (hs.seekBelow q h.mem)
  have hseek := hst.others q hne
  refine .waits (h.unasked hl ?_ hseek ?_ (hdenies _)) (by rw [hseek])
  · rw [hst.sl]
    exact List.mem_cons_of_mem _ h.mem
  · rw [hasks, if_neg (hst.new q h.mem)]

theorem Waiting.timeout (h : Waiting s₀ s q) (hs : WellFormed s) {k : Ptr} (hk : k ∈ s.sl) :
    Fate e s₀ s (routeDiscoveryTimeout e (pop s (.seekTimer k)) k) q := by
  have hother (hne : q ≠ k) : (s.seek q).destAddr ≠ (s.seek k).destAddr := fun hd =>
    hne (hs.seekDests q h.mem k hk hd)
  have hcall : routeDiscoveryTimeout e (pop s (.seekTimer k)) k =
      if (s.seek k).rreqCnt < rreqRetries
      then seekAgain e (pop s (.seekTimer k)).tock k (e.clock s.tick)
      else seekGiveUp e (pop s (.seekTimer k)).tock k := rfl
  by_cases hcnt : (s.seek k).rreqCnt < rreqRetries
  · have hagain := seekAgain_again (e := e) hs k (e.clock s.tick)
    rw [hcall, if_pos hcnt]
    obtain ⟨l, hl, hasks, hdenies⟩ := hagain.asked
    have hq := h.mem
    rw [← hagain.sl] at hq
    by_cases hqk : q = k
    · subst hqk
      refine .waits (h.later hl hq hagain.self.1 ?_ ?_ (hdenies _)) hagain.self.1
      · rw [hagain.self.2, hasks, if_pos rfl]
        rfl
      · rw [hagain.self.2]
        exact hcnt
    · have hseek := hagain.others q hqk
      refine .waits (h.unasked hl hq hseek ?_ (hdenies _)) (by rw [hseek])
      rw [hasks, if_neg (hother hqk)]
  · obtain ⟨l, hl, hasks, hdenies, hsl, hmem⟩ := seekGiveUp_denies e s k
    have hseek : (seekGiveUp e (pop s (.seekTimer k)).tock k).seek = s.seek := hmem
    obtain ⟨hsuffix, hsince⟩ := since_after h.suffix hl
    by_cases hqk : q = k
    · subst hqk
      have hlast : (s.seek q).rreqCnt = rreqRetries := Int.le_antisymm h.few (Int.not_lt.1 hcnt)
      have hnone : (since s₀ s).filter (denies (s.seek q).destAddr) = [] := by
        rw [← List.length_eq_zero_iff, ← List.countP_eq_length_filter]
        exact h.silent
      refine .failed rfl ?_ ?_ ?_
      · rw [hcall, if_neg hcnt, hsl]
        simp
      · rw [hcall, if_neg hcnt, hsince, List.countP_append, hasks, Nat.zero_add, h.asked, hlast]
      · rw [hcall, if_neg hcnt, hsince, List.filter_append, hdenies, hnone, List.append_nil]
        simp
    · rw [hcall, if_neg hcnt]
      refine .waits (h.unasked hl ?_ (by rw [hseek]) (hasks _) ?_) (by rw [hseek])
      · rw [hsl]
        exact List.mem_filter.2 ⟨h.mem, by simpa using hqk⟩
      · rw [List.countP_eq_length_filter, hdenies, if_neg fun hboth => hother hqk hboth.1]
        rfl

theorem Waiting.turn (h : Waiting s₀ s q) (hs : WellFormed s) (ht : Turn e s s') :
    Fate e s₀ s s' q := by
  cases ht with
  | aside ha hw =>
      obtain ⟨h', hd⟩ := h.aside ha
      exact .waits h' hd
  | insert dest next hops seqno lifetime state flags =>
      rcases insert_finds e s dest next hops seqno lifetime state flags with ha | hf
      · obtain ⟨h', hd⟩ := h.aside ha
        exact .waits h' hd
      · exact h.finds hf (.inl ⟨dest, next, hops, seqno, lifetime, state, flags, rfl⟩)
  | update hp next hops seqno lifetime state flags =>
      exact h.finds (update_finds hp next hops seqno lifetime state flags)
        (.inr ⟨next, hops, seqno, lifetime, state, flags, rfl⟩)
  | discover dest flags =>
      rcases discover_does (e := e) hs dest flags with ha | hst
      · obtain ⟨h', hd⟩ := h.aside ha
        exact .waits h' hd
      · exact h.starts hs hst
  | @repair p hp src =>
      rcases repair_does (e := e) hs p src with ha | hst
      · obtain ⟨h', hd⟩ := h.aside ha
        exact .waits h' hd
      · exact h.starts hs hst
  | timeout hk => exact h.timeout hs hk

theorem turn_sl (hs : WellFormed s) (ht : Turn e s s') : s'.sl ⊆ s.sl ∨ ∃ d, Starts s s' d := by
  have hfinds {s' : Daemon} {p : Ptr} (hf : Finds s s' p) : s'.sl ⊆ s.sl := by
    obtain ⟨-, s₁, ha, rfl⟩ := hf
    rw [← ha.sl]
    exact sl_routeFound s₁ p
  have hsame {s' : Daemon} (h : s'.sl = s.sl) : s'.sl ⊆ s.sl := by
    rw [h]
    exact List.Subset.refl _
  have haside {s' : Daemon} (ha : Aside s s') : s'.sl ⊆ s.sl := hsame ha.sl
  cases ht with
  | aside ha hw => exact .inl (haside ha)
  | insert dest next hops seqno lifetime state flags =>
      exact .inl ((insert_finds e s dest next hops seqno lifetime state flags).elim haside hfinds)
  | update hp next hops seqno lifetime state flags =>
      exact .inl (hfinds (update_finds hp next hops seqno lifetime state flags))
  | discover dest flags => exact (discover_does hs dest flags).imp haside fun h => ⟨dest, h⟩
  | @repair p hp src => exact (repair_does hs p src).imp haside fun h => ⟨_, h⟩
  | @timeout k hk =>
      left
      rw [routeDiscoveryTimeout]
      split
      · exact hsame (seekAgain_again (e := e) hs k (e.clock s.tick)).sl
      · obtain ⟨l, -, -, -, hsl, -⟩ := seekGiveUp_denies e s k
        exact fun x hx => (List.mem_filter.1 (hsl ▸ hx)).1

theorem waiting_new (hs : WellFormed s₀) (ht : Turn e s₀ s) (hnew : q ∉ s₀.sl) (hq : q ∈ s.sl) :
    Waiting s₀ s q := by
  rcases turn_sl hs ht with hsub | ⟨d, hst⟩
  · exact absurd (hsub hq) hnew
  · obtain ⟨l, hl, hasks, hdenies⟩ := hst.asked
    have hbrk : q = s₀.brk := by
      rw [hst.sl] at hq
      exact (List.mem_cons.1 hq).resolve_right hnew
    subst hbrk
    obtain ⟨hd, hone⟩ := hst.self
    refine ⟨hq, ⟨l, hl.symm⟩, ?_, ?_, ?_⟩
    · rw [since_eq hl, hd, hone, hasks, if_pos rfl]
      rfl
    · rw [hone]
      decide
    · rw [since_eq hl, hdenies]

theorem waiting_turns (h : Waiting s₀ s q) (hs : WellFormed s) (hrun : ReflTransGen (Turn e) s s')
    (hq : q ∈ s'.sl) : Waiting s₀ s' q := by
  induction hrun with
  | refl => exact h
  | @tail s₁ s₂ hfrom ht ih =>
      obtain ⟨hw, hbrk⟩ := turns_sound hfrom hs
      have hbelow : q < s₁.brk := Nat.lt_of_lt_of_le (hs.seekBelow q h.mem) hbrk
      have hold : q ∈ s₁.sl := by
        rcases turn_sl hw ht with hsub | ⟨d, hst⟩
        · exact hsub hq
        · rw [hst.sl] at hq
          exact (List.mem_cons.1 hq).resolve_left (Nat.ne_of_lt hbelow)
      cases (ih hold).turn hw ht with
      | waits h' hd => exact h'
      | found hcall hp hd hv hgone => exact absurd hq hgone
      | failed hcall hgone => exact absurd hq hgone

theorem Fate.bounded (h : Fate e s₀ s s' q) :
    ((since s₀ s').countP (asks (s.seek q).destAddr) : Int) ≤ rreqRetries := by
  cases h with
  | waits h' hd =>
      rw [← hd, h'.asked]
      exact h'.few
  | found hcall hp hd hv hgone hasked => exact hasked
  | failed hcall hgone hasked => exact Int.le_of_eq hasked

end Waiting

theorem reachable_kept {e : Env} {s : Daemon} (h : Reachable e s) :
    (s.sl.map fun q => (s.seek q).destAddr).Nodup ∧ ∀ q ∈ s.sl, Pending s.timers (.seekTimer q) := by
  obtain ⟨hrest, hrun⟩ := Reachable.moves (C := fun _ => True) (J := Kernel.Running)
    (fun _ _ _ => id) (fun _ _ _ q hq => absurd hq List.not_mem_nil)
    (fun _ _ _ hs _ hr hm => Kernel.running_move hr hs hm) h trivial
  have hs := hrest.wellFormed
  refine ⟨?_, hrun⟩
  exact hs.seekNodup.map_on fun q hq q' hq' hd => hs.seekDests q hq q' hq' hd

/-- Every event is a sequence of calls. Between two events no destination has two
entries, and every entry's timer runs. And in every sequence of calls, an entry that
a call makes has at most RREQ_RETRIES RREQs made for it, and goes in one of two ways. -/
theorem discovery_bookkeeping (e : Env) (ipaddr broadcast : Addr) (ifindex : Int) :
    let s := init e ipaddr broadcast ifindex
    (∀ es ev, ReflTransGen (Turn e) (run e s es) (run e s (es ++ [ev]))) ∧
    (∀ es, ((run e s es).sl.map fun q => ((run e s es).seek q).destAddr).Nodup ∧
      ∀ q ∈ (run e s es).sl, Pending (run e s es).timers (.seekTimer q)) ∧
    ∀ s₀ s₁ s₂ s₃ q, ReflTransGen (Turn e) s s₀ → Turn e s₀ s₁ → q ∉ s₀.sl → q ∈ s₁.sl →
      ReflTransGen (Turn e) s₁ s₂ → q ∈ s₂.sl → Turn e s₂ s₃ →
      ((since s₀ s₃).countP (asks (s₂.seek q).destAddr) : Int) ≤ rreqRetries ∧
        Fate e s₀ s₂ s₃ q := by
  intro s
  have hreach (es : List Event) : Reachable e (run e s es) := ⟨ipaddr, broadcast, ifindex, es, rfl⟩
  refine ⟨fun es ev => ?_, fun es => reachable_kept (hreach es), ?_⟩
  · have hlast : run e s (es ++ [ev]) = step e (run e s es) ev := List.foldl_append
    rw [hlast]
    exact turns_step (Reachable.resting (hreach es)) ev
  · intro s₀ s₁ s₂ s₃ q hbefore hmake hnew hq hrun hstill hcall
    obtain ⟨hs₀, -⟩ := turns_sound hbefore (wellFormed_init e ipaddr broadcast ifindex)
    obtain ⟨hs₁, -⟩ := turn_sound hmake hs₀
    obtain ⟨hs₂, -⟩ := turns_sound hrun hs₁
    have hwait := waiting_turns (waiting_new hs₀ hmake hnew hq) hs₁ hrun hstill
    have hfate := hwait.turn hs₂ hcall
    exact ⟨hfate.bounded, hfate⟩

end Aodv.Discovery
