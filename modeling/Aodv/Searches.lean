import Aodv.Ledger
import Aodv.RouteMessages

namespace Aodv.Kernel

open Lib.Bytes Relation

def Sought (s : Daemon) (x : Addr) : Prop := ∃ q ∈ s.sl, (s.seek q).destAddr = x

def Running (s : Daemon) : Prop := ∀ q ∈ s.sl, Pending s.timers (.seekTimer q)

/-- No search begins, ends or loses its timer. -/
structure Calm (s s' : Daemon) : Prop where
  sl : s'.sl = s.sl
  destAddr : ∀ q, (s'.seek q).destAddr = (s.seek q).destAddr
  timers : ∀ q, Pending s.timers (.seekTimer q) → Pending s'.timers (.seekTimer q)

namespace Calm

variable {e : Env} {s s' s'' : Daemon} {p : Ptr}

theorem refl (s : Daemon) : Calm s s := ⟨rfl, fun _ => rfl, fun _ => id⟩

theorem trans (h : Calm s s') (h' : Calm s' s'') : Calm s s'' :=
  ⟨h'.sl.trans h.sl, fun q => (h'.destAddr q).trans (h.destAddr q),
    fun q hq => h'.timers q (h.timers q hq)⟩

theorem idle (h : Idle s s') : Calm s s' := ⟨h.sl, h.sought, h.timers.seeks⟩

theorem kept (h : Kept s s')
    (ht : ∀ q, Pending s.timers (.seekTimer q) → Pending s'.timers (.seekTimer q)) : Calm s s' := by
  refine ⟨h.sl, fun q => ?_, ht⟩
  rw [Daemon.seek, Daemon.seek, h.seek]

theorem running (h : Calm s s') (hr : Running s) : Running s' := by
  intro q hq
  rw [h.sl] at hq
  exact h.timers q (hr q hq)

theorem sought (h : Calm s s') {x : Addr} (hx : Sought s x) : Sought s' x := by
  obtain ⟨q, hq, rfl⟩ := hx
  refine ⟨q, ?_, h.destAddr q⟩
  rw [h.sl]
  exact hq

theorem invalidate (hs : WellFormed s) (hp : Linked s.rtTbl p) (hv : (s.rt p).state = .valid) :
    Calm s (rtTableInvalidate e s p) := by
  refine kept (kept_invalidate e hp) fun q hq => ?_
  rw [pending_invalidate e hs hv]
  exact .inr ⟨hq, by simp, by simp⟩

theorem slide (hs : WellFormed s) (hm : Slide e s s') : Calm s s' := by
  cases hm with
  | idle hi => exact idle hi
  | down hp hv => exact invalidate hs hp hv
  | @repair p hp hv =>
      have hmark : ((markRepair s p).rt p).state = .valid := by
        rw [markRepair, rt_setRt_self]
        exact hv
      have hfirst : Calm s (markRepair s p) := ⟨rfl, fun _ => rfl, fun _ => id⟩
      exact hfirst.trans (invalidate ((kept_markRepair s p).wellFormed hs) hp hmark)

theorem slides (hs : WellFormed s) (hm : ReflTransGen (Slide e) s s') : Calm s s' := by
  induction hm with
  | refl => exact refl s
  | tail hrun hm ih => exact ih.trans (slide (slides_wellFormed hrun hs) hm)

theorem updateTimeout (hs : WellFormed s) (hp : Linked s.rtTbl p) (lifetime : U32) :
    Calm s (rtTableUpdateTimeout e s p lifetime) := by
  refine kept (kept_updateTimeout e lifetime hp) fun q hq => ?_
  exact (pending_updateTimeout_ne e hs p lifetime (by simp)).2 hq

end Calm

section Found

variable {e : Env} {s : Daemon} {p : Ptr}

theorem running_seekListRemove (h : Running s) (o : Option Ptr) : Running (seekListRemove s o) := by
  cases o with
  | none => exact h
  | some q =>
      intro k hk
      obtain ⟨hk, hne⟩ : k ∈ s.sl ∧ k ≠ q := by simpa [seekListRemove] using hk
      rw [seekListRemove, pending_timerRemove]
      exact ⟨h k hk, by simpa using hne⟩

theorem sought_seekListRemove {x : Addr} (h : Sought s x) {q : Ptr} (hne : (s.seek q).destAddr ≠ x) :
    Sought (seekListRemove s (some q)) x := by
  obtain ⟨k, hk, rfl⟩ := h
  refine ⟨k, ?_, rfl⟩
  have hkq : k ≠ q := by
    rintro rfl
    exact hne rfl
  simpa [seekListRemove] using ⟨hk, hkq⟩

theorem running_routeFound (h : Running s) : Running (routeFound s p) := by
  rw [routeFound]
  split
  · exact running_seekListRemove h _
  · exact h

theorem sought_routeFound {x : Addr} (h : Sought s x) :
    Sought (routeFound s p) x ∨ ((s.rt p).state = .valid ∧ (s.rt p).destAddr = x) := by
  rw [routeFound]
  split
  next hv =>
    by_cases hx : (s.rt p).destAddr = x
    · exact .inr ⟨hv, hx⟩
    · left
      cases hc : seekListCheck s (s.rt p).destAddr with
      | none => exact h
      | some q =>
          have hq : (s.seek q).destAddr = (s.rt p).destAddr := by
            have hfound := List.find?_some hc
            simpa using hfound
          exact sought_seekListRemove h (by rwa [hq])
  · exact .inl h

def Finds (s s' : Daemon) (p : Ptr) : Prop := ∃ s₁, Calm s s₁ ∧ s' = routeFound s₁ p

theorem Finds.running {s' : Daemon} (h : Finds s s' p) (hr : Running s) : Running s' := by
  obtain ⟨s₁, hcalm, rfl⟩ := h
  exact running_routeFound (hcalm.running hr)

theorem Finds.sought {s' : Daemon} (h : Finds s s' p) {x : Addr} (hx : Sought s x) :
    Sought s' x ∨ ((s'.rt p).state = .valid ∧ (s'.rt p).destAddr = x) := by
  obtain ⟨s₁, hcalm, rfl⟩ := h
  rw [rt_routeFound]
  exact sought_routeFound (hcalm.sought hx)

theorem finds_insertEntry {r : RtEntry} (hs : WellFormed s) (hr : r.hash = r.destAddr)
    (hnew : ∀ q ∈ s.rtTbl.tbl (hashing r.destAddr), (s.rt q).destAddr ≠ r.destAddr)
    (hops lifetime : U32) : Finds s (insertEntry e s r hops lifetime) s.brk := by
  have hlink : Calm s (linkEntry s r) := ⟨rfl, fun _ => rfl, fun _ => id⟩
  have hopen : Calm (linkEntry s r) (openEntry e (linkEntry s r) s.brk hops lifetime).1 := by
    rw [openEntry]
    split
    · split
      · exact ⟨rfl, fun _ => rfl, fun _ => id⟩
      · exact ⟨rfl, fun _ => rfl, fun _ => id⟩
    · exact ⟨rfl, fun _ => rfl, fun _ => id⟩
  have hcoh := (wellFormed_openEntry e hs hr hnew hops lifetime).coherent
  refine ⟨_, (hlink.trans hopen).trans ?_, rfl⟩
  rw [armEntry]
  split
  · refine ⟨rfl, fun _ => rfl, fun q hq => ?_⟩
    exact (pending_timerSetTimeout hcoh _ _ _ _).2 (.inl ⟨by simp, hq⟩)
  · exact .refl _

theorem finds_updateFinish (hs : WellFormed s) (hp : Linked s.rtTbl p) (next : Addr)
    (hops seqno lifetime : U32) (state : RtState) (flags : RtFlags) :
    Finds s (updateFinish e s p next hops seqno lifetime state flags) p := by
  obtain ⟨s₁, hs₁, heq⟩ := updateFinish_eq e (s := s) (p := p) next hops seqno lifetime state flags
  have hkept := kept_writeUpdate s p next hops seqno flags
  have hwrite : Calm s (writeUpdate s p next hops seqno flags) := .kept hkept fun _ => id
  have hmid : Calm s s₁ := by
    rcases hs₁ with rfl | rfl
    · exact hwrite
    · exact hwrite.trans (.updateTimeout (hkept.wellFormed hs) ((hkept.keys.linked p).2 hp) lifetime)
  exact ⟨_, hmid.trans (.kept (kept_setState s₁ p state) fun _ => id), heq⟩

theorem finds_update (hs : WellFormed s) (hp : Linked s.rtTbl p) (next : Addr)
    (hops seqno lifetime : U32) (flags : RtFlags) :
    Finds s (rtTableUpdate e s p next hops seqno lifetime .valid flags) p := by
  obtain ⟨s₁, f, hbegin, -, -, htimers, hw₁, htbl, hslides, heq⟩ :=
    update_parts e hs hp next hops seqno lifetime .valid flags
  have hfirst : Calm s s₁ := by
    have hkept := kept_updateBegin e (s.observe (.rtUpdate p (s.rt p) next hops seqno lifetime
      .valid flags)) p next hops lifetime .valid flags
    rw [← hbegin] at hkept
    refine .trans (.kept (.observe s _) fun _ => id) (.kept hkept fun q hq => ?_)
    rw [htimers]
    exact hq
  have hp₂ : Linked (updateBreak e s₁ p hops).rtTbl p := by
    rw [slides_linked hslides, Linked, htbl]
    exact hp
  obtain ⟨s₂, hcalm, hfound⟩ := finds_updateFinish (e := e) (slides_wellFormed hslides hw₁) hp₂ next
    hops seqno lifetime .valid f
  exact ⟨s₂, (hfirst.trans (.slides hw₁ hslides)).trans hcalm, heq.trans hfound⟩

end Found

section Moves

variable {e : Env} {ev : Event} {s s' : Daemon}

inductive Seeks (e : Env) (s : Daemon) : Daemon → Prop
  | calm {s' : Daemon} (h : Calm s s') : Seeks e s s'
  | found {s' : Daemon} {p : Ptr} (h : Finds s s' p) (hp : Linked s'.rtTbl p) : Seeks e s s'
  | starts (dest : Addr) (seqno : U32) (ttl : Int) (flags : U8) {msec : Int} (hm : 0 ≤ msec) :
      Seeks e s (seekArm e (seekListInsert s dest seqno ttl flags).1 s.brk msec)
  | fails {q : Ptr} (hq : q ∈ s.sl) : Seeks e s (Aodv.seekFail e s q)

theorem move_seeks (hs : WellFormed s) (hm : Move e ev s s') : Seeks e s s' := by
  cases hm with
  | slide hm => exact .calm (.slide hs hm)
  | updateTimeout hl hp => exact .calm (.updateTimeout hs hp _)
  | @helloArm p now time hp hh =>
      refine .calm ⟨rfl, fun _ => rfl, fun q hq => ?_⟩
      exact (pending_timerSetTimeout hs.coherent _ _ _ _).2 (.inl ⟨by simp, hq⟩)
  | @helloMark p ht hh hu =>
      refine .calm ⟨rfl, fun _ => rfl, fun q hq => ?_⟩
      exact (pending_timerRemove _ _ _).2 ⟨hq, by simp⟩
  | rerrSeqno | repairStart => exact .calm ⟨rfl, fun _ => rfl, fun _ => id⟩
  | repairTimeout hp hr =>
      exact .calm (.kept (kept_localRepairTimeout e hp) fun q hq =>
        (pending_repairTimeout e hs _ _).2 (.inr hq))
  | @delete p hp hh =>
      have hsl : (rtTableDelete e s p).sl = s.sl ∧ (rtTableDelete e s p).seekMem = s.seekMem := by
        rw [rtTableDelete]
        dsimp only
        split <;> exact ⟨rfl, rfl⟩
      refine .calm ⟨hsl.1, fun q => ?_, fun q hq => ?_⟩
      · rw [Daemon.seek, hsl.2, Daemon.seek]
      · rw [timers_delete]
        simpa using hq
  | @expireIdle p hp hi hh =>
      refine .calm ⟨rfl, fun _ => rfl, fun q hq => ?_⟩
      exact (pending_timerRemove _ _ _).2 ⟨hq, by simp⟩
  | @insert src dest next hops seqno lifetime state hl =>
      obtain hi | ⟨hnew, hi⟩ := rtTableInsert_cases e s dest next hops seqno lifetime state .zero
      · rw [hi]
        exact .calm (.refl s)
      · rw [hi]
        have hobs :=
          (Kept.observe s (.rtInsert dest next hops seqno lifetime state .zero)).wellFormed hs
        obtain ⟨s₁, hcalm, hfound⟩ := finds_insertEntry (e := e)
          (r := newEntry dest next hops seqno state .zero) hobs rfl hnew hops lifetime
        refine .found (p := s.brk) ⟨s₁, ⟨hcalm.sl, hcalm.destAddr, hcalm.timers⟩, hfound⟩ ?_
        exact (linked_insertEntry _ _ _ _ _ _).2 (.inl rfl)
  | @update p src next hops seqno lifetime hp hl =>
      refine .found (finds_update hs hp next hops seqno lifetime _) ?_
      obtain ⟨s₁, hkept, heq⟩ := update_kept e s hp next hops seqno lifetime .valid (s.rt p).flags
      rw [heq, tbl_routeFound, hkept.keys.linked]
      exact hp
  | seekNew dest flags hnew httl hm => exact .starts dest _ _ flags hm
  | seekFail hq => exact .fails hq

theorem running_starts (hr : Running s) (hs : WellFormed s) (dest : Addr) (seqno : U32) (ttl : Int)
    (flags : U8) {msec : Int} (hm : 0 ≤ msec) :
    Running (seekArm e (seekListInsert s dest seqno ttl flags).1 s.brk msec) := by
  have hidle : ¬ Pending s.timers (.seekTimer s.brk) := fun hp =>
    Nat.lt_irrefl _ (hs.seekBelow _ (hs.owned _ hp))
  have hcoh := hs.coherent.timerInit (.seekTimer s.brk) .routeDiscoveryTimeout (.obj s.brk) hidle
  intro q hq
  refine (pending_timerSetTimeout hcoh _ _ _ _).2 ?_
  rcases List.mem_cons.1 hq with rfl | hq
  · exact .inr ⟨rfl, hm, by simp [timerInit]⟩
  · have hne : q ≠ s.brk := by
      rintro rfl
      exact hidle (hr s.brk hq)
    exact .inl ⟨by simpa using hne, hr q hq⟩

theorem running_fails (hr : Running s) (q : Ptr) : Running (Aodv.seekFail e s q) := by
  intro k hk
  have hmem : k ∈ s.sl.filter (· ≠ q) := hk
  obtain ⟨hk, hne⟩ : k ∈ s.sl ∧ k ≠ q := by simpa using hmem
  have hpop : Pending (pop s (.seekTimer q)).timers (.seekTimer k) :=
    (pending_timerRemove _ _ _).2 ⟨hr k hk, by simpa using hne⟩
  exact (pending_timerRemove _ _ _).2 ⟨hpop, by simpa using hne⟩

theorem running_move (hr : Running s) (hs : WellFormed s) (hmove : Move e ev s s') :
    Running s' := by
  cases move_seeks hs hmove with
  | calm h => exact h.running hr
  | found h hp => exact h.running hr
  | starts dest seqno ttl flags hm => exact running_starts hr hs dest seqno ttl flags hm
  | @fails q hq => exact running_fails hr q

/-- The daemon has a route to x or searches for one. -/
def Alive (s : Daemon) (x : Addr) : Prop := Sought s x ∨ ∃ n h, Holds s x n h

def About (s s' : Daemon) (x : Addr) : Prop :=
  ∃ l, s'.trace = l ++ s.trace ∧ ∃ m, .nl m ∈ l ∧ destOf m = x

variable {x : Addr}

theorem About.later {s'' : Daemon} (h : About s s' x) (hsuf : s'.trace <:+ s''.trace) :
    About s s'' x := by
  obtain ⟨l, hl, m, hm, hd⟩ := h
  obtain ⟨l', hl'⟩ := hsuf
  refine ⟨l' ++ l, ?_, m, List.mem_append.2 (.inr hm), hd⟩
  rw [← hl', hl, List.append_assoc]

theorem About.earlier {s₀ : Daemon} (h : About s s' x) (hsuf : s₀.trace <:+ s.trace) :
    About s₀ s' x := by
  obtain ⟨l, hl, m, hm, hd⟩ := h
  obtain ⟨l', hl'⟩ := hsuf
  refine ⟨l ++ l', ?_, m, List.mem_append.2 (.inl hm), hd⟩
  rw [hl, ← hl', List.append_assoc]

theorem about_netlinked {l : List Obs} (hsuf : s.trace <:+ s'.trace)
    (hl : netlinked s' = l ++ netlinked s) {m : NlMsg} (hm : .nl m ∈ l) : About s s' (destOf m) := by
  obtain ⟨l', hl'⟩ := hsuf
  have heq : l'.filter isNetlink = l := by
    rw [netlinked, ← hl', List.filter_append] at hl
    exact List.append_cancel_right hl
  refine ⟨l', hl'.symm, m, ?_, rfl⟩
  rw [← heq] at hm
  exact (List.mem_filter.1 hm).1

theorem held_slide (hrel : Reliable e) (hs : WellFormed s) (hm : Slide e s s') {n : Addr} {h : U8}
    (hx : Holds s x n h) : Holds s' x n h ∨ About s s' x := by
  have hdown {s : Daemon} {p : Ptr} (hs : WellFormed s) (hp : Linked s.rtTbl p)
      (hv : (s.rt p).state = .valid) (hx : Holds s x n h) :
      Holds (rtTableInvalidate e s p) x n h ∨ About s (rtTableInvalidate e s p) x := by
    by_cases hd : x = (s.rt p).destAddr
    · subst hd
      right
      exact about_netlinked (m := .delRoute (s.rt p).destAddr (s.rt p).nextHop)
        (invalidate_said e s p).suffix (netlinked_invalidate hrel hv) (by simp [downMsgs])
    · exact .inl ((holds_invalidate hs hp).2 ⟨hd, hx⟩)
  cases hm with
  | idle hi => exact .inl ((holds_idle hi).2 hx)
  | down hp hv => exact hdown hs hp hv hx
  | @repair p hp hv =>
      have hmark : ((markRepair s p).rt p).state = .valid := by
        rw [markRepair, rt_setRt_self]
        exact hv
      exact hdown ((kept_markRepair s p).wellFormed hs) hp hmark (holds_markRepair.2 hx)

theorem held_slides (hrel : Reliable e) (hs : WellFormed s) (hm : ReflTransGen (Slide e) s s')
    {n : Addr} {h : U8} (hx : Holds s x n h) :
    (Holds s' x n h ∨ About s s' x) ∧ s.trace <:+ s'.trace := by
  induction hm with
  | refl => exact ⟨.inl hx, List.suffix_refl _⟩
  | tail hrun hm ih =>
      obtain ⟨hx | hx, hsuf⟩ := ih
      · refine ⟨?_, hsuf.trans (slide_trace hm)⟩
        exact (held_slide hrel (slides_wellFormed hrun hs) hm hx).imp id fun h => h.earlier hsuf
      · exact ⟨.inr (hx.later (slide_trace hm)), hsuf.trans (slide_trace hm)⟩

theorem held_update (hrel : Reliable e) (hs : WellFormed s) {p : Ptr} (hp : Linked s.rtTbl p)
    (next : Addr) (hops seqno lifetime : U32) (flags : RtFlags) {n : Addr} {h : U8}
    (hx : Holds s x n h) :
    (∃ n h, Holds (rtTableUpdate e s p next hops seqno lifetime .valid flags) x n h) ∨
      About s (rtTableUpdate e s p next hops seqno lifetime .valid flags) x := by
  obtain ⟨s₁, f, hbegin, -, hrt, -, hw₁, htbl, hslides, heq⟩ :=
    update_parts e hs hp next hops seqno lifetime .valid flags
  have hsuf : s.trace <:+ s₁.trace := by
    rw [hbegin]
    exact (List.suffix_cons _ _).trans (updateBegin_said e (s.observe _) p next hops lifetime .valid
      flags).suffix
  have hx₁ : Holds s₁ x n h := by
    refine (holds_congr (fun q => by rw [Linked, Linked, htbl]) fun q => ?_).2 hx
    rw [hrt]
    exact .refl _
  have hw₂ := slides_wellFormed hslides hw₁
  have hp₂ : Linked (updateBreak e s₁ p hops).rtTbl p := by
    rw [slides_linked hslides, Linked, htbl]
    exact hp
  obtain ⟨hx₂, hsuf₂⟩ := held_slides hrel hw₁ hslides hx₁
  have hlast := updateFinish_trace e (updateBreak e s₁ p hops) p next hops seqno lifetime .valid f
  rw [heq]
  rcases hx₂ with hx₂ | hx₂
  · left
    by_cases hd : x = ((updateBreak e s₁ p hops).rt p).destAddr
    · exact ⟨_, _, (holds_updateFinish hw₂ hp₂ next hops seqno lifetime f).2 (.inr ⟨hd, rfl, rfl⟩)⟩
    · exact ⟨n, h, (holds_updateFinish hw₂ hp₂ next hops seqno lifetime f).2 (.inl ⟨hd, hx₂⟩)⟩
  · refine .inr ((hx₂.earlier hsuf).later ?_)
    rw [hlast]

theorem held_move (hrel : Reliable e) (ho : Ordered s) (hs : WellFormed s)
    (hmove : Move e ev s s') {n : Addr} {h : U8} (hx : Holds s x n h) :
    (∃ n h, Holds s' x n h) ∨ About s s' x := by
  cases hmove with
  | slide hm => exact (held_slide hrel hs hm hx).imp (fun h => ⟨_, _, h⟩) id
  | @updateTimeout p lifetime hl hp =>
      refine .inl ⟨n, h, (holds_congr (kept_updateTimeout e lifetime hp).keys.linked fun q => ?_).2 hx⟩
      rw [rt_updateTimeout]
      exact .refl _
  | helloArm | helloMark | rerrSeqno =>
      refine .inl ⟨n, h, Iff.mpr ?_ hx⟩
      exact holds_setRt ⟨rfl, rfl, rfl, rfl⟩
  | @repairTimeout p hp hr =>
      refine .inl ⟨n, h, (holds_congr (kept_localRepairTimeout e hp).keys.linked fun q => ?_).2 hx⟩
      rw [rt_repairTimeout]
      split
      next hq =>
        subst q
        exact ⟨rfl, rfl, rfl, rfl⟩
      · exact .refl _
  | delete hp hh => exact .inl ⟨n, h, (holds_delete hp (ho.invalid hp (.inr (by simp [hh])))).2 hx⟩
  | @insert src dest next hops seqno lifetime state hl =>
      obtain hi | ⟨hnew, hi⟩ := rtTableInsert_cases e s dest next hops seqno lifetime state .zero
      · rw [hi]
        exact .inl ⟨n, h, hx⟩
      · rw [hi]
        have hobs :=
          (Kept.observe s (.rtInsert dest next hops seqno lifetime state .zero)).wellFormed hs
        exact .inl ⟨n, h, (holds_insertEntry hobs _ hops lifetime).2 (.inl hx)⟩
  | update lifetime hp hl => exact held_update hrel hs hp _ _ _ _ _ hx
  | expireIdle | seekNew | repairStart | seekFail => exact .inl ⟨n, h, hx⟩

/-- The daemon looks after a destination until it tells the kernel module about it. -/
theorem alive_move (hrel : Reliable e) (ho : Ordered s) (hs : WellFormed s)
    (hmove : Move e ev s s') (hx : Alive s x) : Alive s' x ∨ About s s' x := by
  rcases hx with hx | ⟨n, h, hx⟩
  · cases move_seeks hs hmove with
    | calm hc => exact .inl (.inl (hc.sought hx))
    | @found _ p hf hp =>
        rcases hf.sought hx with hx | ⟨hv, hd⟩
        · exact .inl (.inl hx)
        · exact .inl (.inr ⟨_, _, p, hp, hv, hd, rfl, rfl⟩)
    | starts dest seqno ttl flags hm =>
        obtain ⟨q, hq, hd⟩ := hx
        refine .inl (.inl ⟨q, List.mem_cons_of_mem _ hq, ?_⟩)
        have hne : q ≠ s.brk := Nat.ne_of_lt (hs.seekBelow q hq)
        change (Function.update s.seekMem s.brk _ q).destAddr = x
        rw [Function.update_of_ne hne]
        exact hd
    | @fails q hq =>
        obtain ⟨k, hk, hd⟩ := hx
        by_cases hkq : k = q
        · subst k
          refine .inr ⟨[.nl (.noRouteFound (s.seek q).destAddr), .discoveryFailed q], ?_, _,
            List.mem_cons_self, hd⟩
          change (if e.sendmsg _ then _ else _) = _
          rw [if_pos (hrel _)]
          rfl
        · refine .inl (.inl ⟨k, ?_, hd⟩)
          have hmem : k ∈ s.sl.filter (· ≠ q) := by simpa using ⟨hk, hkq⟩
          exact hmem
  · exact (held_move hrel ho hs hmove hx).imp .inr id

def unmarked : Obs → Bool
  | .nl (.addRoute _ _ _ _ repair _) => !repair
  | _ => true

def Plain (s : Daemon) : Prop := ∀ o ∈ netlinked s, unmarked o = true

theorem Plain.append {l : List Obs} (h : Plain s) (hn : netlinked s' = l ++ netlinked s)
    (hl : ∀ o ∈ l, unmarked o = true) : Plain s' := by
  intro o ho
  rw [hn] at ho
  exact (List.mem_append.1 ho).elim (hl o) (h o)

theorem Plain.same (h : Plain s) (hn : netlinked s' = netlinked s) : Plain s' :=
  h.append (l := []) hn (by simp)

theorem unmarked_downMsgs (r : RtEntry) :
    ∀ o ∈ downMsgs r, unmarked o = true := by simp [downMsgs, unmarked]

theorem unmarked_upMsgs (dest next : Addr) (hops lifetime : U32) {flags : RtFlags} (ifindex : Int)
    (hf : flags.repair = false) :
    ∀ o ∈ upMsgs dest next hops lifetime flags ifindex, unmarked o = true := by
  simp [upMsgs, unmarked, hf]

theorem Plain.slide (h : Plain s) (hrel : Reliable e) (hm : Slide e s s') : Plain s' := by
  cases hm with
  | idle hi => exact h.same (netlinked_idle hi)
  | down hp hv => exact h.append (netlinked_invalidate hrel hv) (unmarked_downMsgs _)
  | @repair p hp hv =>
      have hmark : ((markRepair s p).rt p).state = .valid := by
        rw [markRepair, rt_setRt_self]
        exact hv
      have hfirst : Plain (markRepair s p) := h
      exact hfirst.append (netlinked_invalidate hrel hmark) (unmarked_downMsgs _)

theorem Plain.slides (h : Plain s) (hrel : Reliable e) (hm : ReflTransGen (Slide e) s s') :
    Plain s' := by
  induction hm with
  | refl => exact h
  | tail _ hm ih => exact ih.slide hrel hm

theorem Plain.update (h : Plain s) (hrel : Reliable e) (ho : Ordered s) (hs : WellFormed s) {p : Ptr}
    (hp : Linked s.rtTbl p) (next : Addr) (hops seqno lifetime : U32) :
    Plain (rtTableUpdate e s p next hops seqno lifetime .valid (s.rt p).flags) := by
  obtain ⟨s₁, f, hbegin, -, -, -, -, -, hslides, heq⟩ :=
    update_parts e hs hp next hops seqno lifetime .valid (s.rt p).flags
  have hobs : Plain (s.observe (.rtUpdate p (s.rt p) next hops seqno lifetime .valid
    (s.rt p).flags)) := h
  have hflags := updateBegin_flags e (s.observe (.rtUpdate p (s.rt p) next hops seqno lifetime .valid
    (s.rt p).flags)) p next hops lifetime fun hv => (ho.valid p hp hv).1
  have hfirst : Plain s₁ := by
    have hn := netlinked_updateBegin (s := s.observe (.rtUpdate p (s.rt p) next hops seqno lifetime
      .valid (s.rt p).flags)) (p := p) hrel next hops lifetime (s.rt p).flags
    rw [← hbegin] at hn
    split at hn
    · refine hobs.append hn (unmarked_upMsgs _ _ _ _ _ ?_)
      exact congrArg RtFlags.repair hflags
    · exact hobs.same hn
  rw [heq]
  exact (hfirst.slides hrel hslides).same (netlinked_updateFinish _ _ _ _ _ _)

theorem Plain.move (h : Plain s) (hrel : Reliable e) (ho : Ordered s) (hs : WellFormed s)
    (hmove : Move e ev s s') : Plain s' := by
  cases hmove with
  | slide hm => exact h.slide hrel hm
  | @updateTimeout p lifetime hl hp => exact h.same (netlinked_said (updateTimeout_said e s p lifetime))
  | helloArm | helloMark | rerrSeqno | expireIdle | seekNew | repairStart => exact h
  | repairTimeout hp hr => exact h.append (netlinked_repairTimeout hrel) (unmarked_downMsgs _)
  | delete hp hh => exact h.same (netlinked_delete (ho.invalid hp (.inr (by simp [hh]))))
  | @insert src dest next hops seqno lifetime state hl =>
      obtain hi | ⟨hnew, hi⟩ := rtTableInsert_cases e s dest next hops seqno lifetime state .zero
      · rw [hi]
        exact h
      · rw [hi]
        have hobs : Plain (s.observe (.rtInsert dest next hops seqno lifetime state .zero)) := h
        have hn := netlinked_insertEntry hrel (s.observe (.rtInsert dest next hops seqno lifetime state
          .zero)) (newEntry dest next hops seqno state .zero) hops lifetime
        cases state with
        | valid => exact hobs.append hn (unmarked_upMsgs _ _ _ _ _ rfl)
        | invalid => exact hobs.same hn
  | update lifetime hp hl => exact h.update hrel ho hs hp _ _ _ _
  | @seekFail q hq =>
      apply h.same
      change netlinked (nlSendNoRouteFoundMsg e _ _) = _
      rw [nlSendNoRouteFoundMsg]
      split <;> rfl

theorem running_init (e : Env) (ipaddr broadcast : Addr) (ifindex : Int) :
    Running (init e ipaddr broadcast ifindex) :=
  fun _ hq => absurd hq List.not_mem_nil

theorem Reachable.searches (hrel : Reliable e) (h : Reachable e s) :
    Ordered s ∧ Running s ∧ Plain s := by
  refine (Reachable.moves (C := fun _ => True) (J := fun s => Ordered s ∧ Running s ∧ Plain s)
    (fun _ _ _ => id) ?_ ?_ h trivial).2
  · intro ipaddr broadcast ifindex
    refine ⟨ordered_init e ipaddr broadcast ifindex, running_init e ipaddr broadcast ifindex, ?_⟩
    exact fun o ho => absurd ho List.not_mem_nil
  · rintro ev s s' hs - ⟨ho, hr, hp⟩ hmove
    exact ⟨ho.move hs hmove, running_move hr hs hmove, hp.move hrel ho hs hmove⟩

theorem step_alive (hrel : Reliable e) (h : Reachable e s) (ev : Event) (hx : Alive s x) :
    Alive (step e s ev) x ∨ About s (step e s ev) x := by
  have hrest := Reachable.resting h
  have ho := (Reachable.searches hrel h).1
  obtain ⟨hmoves, -⟩ := step_moves (e := e) hrest ev
  generalize step e s ev = s' at hmoves
  have hall : (Alive s' x ∨ About s s' x) ∧ Ordered s' := by
    induction hmoves with
    | refl => exact ⟨.inl hx, ho⟩
    | tail hrun hmove ih =>
        obtain ⟨hlive | hsaid, ho'⟩ := ih
        · have hw := moves_wellFormed hrun hrest.wellFormed
          refine ⟨?_, ho'.move hw hmove⟩
          exact (alive_move hrel ho' hw hmove hlive).imp id fun h => h.earlier (moves_trace hrun)
        · exact ⟨.inr (hsaid.later (move_trace hmove)),
            ho'.move (moves_wellFormed hrun hrest.wellFormed) hmove⟩
  exact hall.1

theorem sought_routeReq (s : Daemon) (dest : Addr) :
    Sought (step e s (.kernel (.routeReq dest))) dest := by
  change Sought (rreqRouteDiscovery e s dest 0) dest
  have hsend (s : Daemon) (seqno : U32) (ttl : Int) (found : Option RtEntry) :
      Sought (discoverySend e s dest seqno ttl 0 found) dest := by
    rw [discoverySend]
    dsimp only
    generalize (rreqSend e s dest seqno ttl 0).observe _ = s₁
    refine ⟨s₁.brk, List.mem_cons_self, ?_⟩
    change (Function.update s₁.seekMem s₁.brk _ s₁.brk).destAddr = dest
    rw [Function.update_self]
  rw [rreqRouteDiscovery]
  dsimp only
  split
  next q hc =>
    have hfound := List.find?_some hc
    exact ⟨q, List.mem_of_find?_eq_some hc, by simpa using hfound⟩
  · split
    · exact hsend _ _ _ _
    · exact hsend _ _ _ _

end Moves

end Aodv.Kernel
