import Aodv.Replies

namespace Aodv.Requests

open Lib.Bytes Relation

/-- The route of an entry is as it was. -/
structure Untouched (p : Ptr) (s s' : Daemon) : Prop where
  state : (s'.rt p).state = (s.rt p).state
  nextHop : (s'.rt p).nextHop = (s.rt p).nextHop
  hopcnt : (s'.rt p).hopcnt = (s.rt p).hopcnt
  destSeqno : (s'.rt p).destSeqno = (s.rt p).destSeqno

namespace Untouched

variable {s s' s'' : Daemon} {p : Ptr}

theorem of_rt (h : s'.rt p = s.rt p) : Untouched p s s' := by
  constructor <;> rw [h]

theorem trans (h : Untouched p s s') (h' : Untouched p s' s'') : Untouched p s s'' :=
  ⟨h'.state.trans h.state, h'.nextHop.trans h.nextHop, h'.hopcnt.trans h.hopcnt,
    h'.destSeqno.trans h.destSeqno⟩

theorem valid (h : Untouched p s s') (hv : (s.rt p).state = .valid) : (s'.rt p).state = .valid :=
  h.state.trans hv

theorem setRt (s : Daemon) (q : Ptr) {r : RtEntry} (hs : r.state = (s.rt q).state)
    (hn : r.nextHop = (s.rt q).nextHop) (hh : r.hopcnt = (s.rt q).hopcnt)
    (hd : r.destSeqno = (s.rt q).destSeqno) : Untouched p s (s.setRt q r) := by
  constructor
  · exact field_setRt RtEntry.state s hs p
  · exact field_setRt RtEntry.nextHop s hn p
  · exact field_setRt RtEntry.hopcnt s hh p
  · exact field_setRt RtEntry.destSeqno s hd p

theorem precursorAdd (s : Daemon) (q : Ptr) (addr : Addr) :
    Untouched p s (precursorAdd s q addr) := by
  rw [Aodv.precursorAdd]
  split
  · exact of_rt rfl
  · exact setRt s q rfl rfl rfl rfl

end Untouched

section Replies

variable {e : Env} {s s' : Daemon} {p q rev : Ptr}

theorem spares_step (b : RerrBuild) {r : Ptr} (hne : (b.s.rt q).nextHop ≠ (b.s.rt p).destAddr) :
    (linkBreakStep e p b r).s.rt q = b.s.rt q := by
  rw [linkBreakStep]
  split
  next huse =>
    have hqr : q ≠ r := by
      rintro rfl
      exact hne (of_decide_eq_true huse).2.1
    dsimp only
    split
    · exact (rt_invalidate_ne e _ hqr).trans (rt_setRt_ne b.s _ hqr)
    · refine (rt_setRt_ne _ _ hqr).trans ?_
      split
      · rw [rt_rerrList]
        exact rt_invalidate_ne e b.s hqr
      · exact rt_invalidate_ne e b.s hqr
  · rfl

theorem spares_loop (l : List Ptr) {b : RerrBuild} (hb : Building b) (hs : WellFormed b.s)
    (hl : ∀ r ∈ l, Linked b.s.rtTbl r) (hne : (b.s.rt q).nextHop ≠ (b.s.rt p).destAddr) :
    (l.foldl (linkBreakStep e p) b).s.rt q = b.s.rt q := by
  induction l generalizing b with
  | nil => rfl
  | cons r l ih =>
      have hturn := turn_linkBreakStep e p hb (hl r List.mem_cons_self)
      have hslides := lbs_slides hturn.steps hs
      have hstep := spares_step (e := e) b (r := r) hne
      rw [List.foldl_cons, ih hturn.building ((lb_kept hturn.steps).wellFormed hs) _ _, hstep]
      · intro k hk
        exact linked_of_lb hturn.steps (hl k (List.mem_cons_of_mem r hk))
      · rw [hstep, (slides_route hslides p).1]
        exact hne

theorem spares_self (hne : q ≠ p) : (linkBreakSelf e s p).s.rt q = s.rt q := by
  have hlist : (if ((rtTableInvalidate e s p).rt p).nprecursor ≠ 0 ∧
      ((rtTableInvalidate e s p).rt p).flags.repair = false then
        rerrList ⟨rtTableInvalidate e s p, none, 0⟩ false p
      else ⟨rtTableInvalidate e s p, none, 0⟩).s.rt q = s.rt q := by
    split
    · rw [rt_rerrList]
      exact rt_invalidate_ne e s hne
    · exact rt_invalidate_ne e s hne
  rw [linkBreakSelf]
  generalize (if ((rtTableInvalidate e s p).rt p).nprecursor ≠ 0 ∧
      ((rtTableInvalidate e s p).rt p).flags.repair = false then
        rerrList ⟨rtTableInvalidate e s p, none, 0⟩ false p
      else ⟨rtTableInvalidate e s p, none, 0⟩ : RerrBuild) = b at hlist
  split
  · exact hlist
  · exact (rt_setRt_ne _ _ hne).trans hlist

theorem linkBreak_spares (hs : WellFormed s) (hp : Linked s.rtTbl p)
    (hne : q ≠ p) (hnext : (s.rt q).nextHop ≠ (s.rt p).destAddr) :
    (neighborLinkBreak e s p).rt q = s.rt q := by
  have hself := turn_linkBreakSelf e hp
  have hrun : ReflTransGen (Lb e) s (linkBreakSelf e s p).s :=
    ReflTransGen.head (lb_invalidate e hp) hself.steps
  have hw := (lb_kept hrun).wellFormed hs
  have hmem (r : Ptr) (hr : r ∈ (linkBreakSelf e s p).s.linked) :
      Linked (linkBreakSelf e s p).s.rtTbl r := (mem_entries _ r).1 hr
  have hfar : ((linkBreakSelf e s p).s.rt q).nextHop ≠ ((linkBreakSelf e s p).s.rt p).destAddr := by
    rw [spares_self hne, (slides_route (lbs_slides hrun hs) p).1]
    exact hnext
  have hloop := spares_loop (e := e) (p := p) (q := q) (linkBreakSelf e s p).s.linked hself.building hw
    hmem hfar
  rw [neighborLinkBreak]
  split
  · rfl
  · refine Eq.trans ?_ (hloop.trans (spares_self hne))
    rw [linkBreakSend]
    cases ((linkBreakSelf e s p).s.linked.foldl (linkBreakStep e p) (linkBreakSelf e s p)).rerr <;> rfl

/-- The entry of the next hop that rrep_send marks before it breaks the link:
the route is over a unidirectional link, and no acknowledgement is awaited. -/
def marks (s : Daemon) (rev n : Ptr) : Bool :=
  (s.rt rev).flags.unidir && decide (rtTableCheck s.rtTbl (s.rt rev).nextHop = some n ∧
    (s.rt n).state = .valid ∧ (s.timer (.ackTimer n)).used = false)

theorem marks_iff {n : Ptr} : marks s rev n = true ↔ (s.rt rev).flags.unidir = true ∧
    rtTableCheck s.rtTbl (s.rt rev).nextHop = some n ∧ (s.rt n).state = .valid ∧
      (s.timer (.ackTimer n)).used = false := by
  rw [marks, Bool.and_eq_true, decide_eq_true_iff]

theorem breaksLink_marks :
    breaksLink s rev = true ↔ ∃ n, marks s rev n = true ∧ (s.rt n).hopcnt = 1 := by
  constructor
  · intro h
    cases hn : rtTableCheck s.rtTbl (s.rt rev).nextHop with
    | none =>
        rw [breaksLink, hn, Bool.and_false] at h
        cases h
    | some n =>
        obtain ⟨hu, hv, ha, hhop⟩ := (breaksLink_iff hn).1 h
        exact ⟨n, marks_iff.2 ⟨hu, hn, hv, ha⟩, hhop⟩
  · rintro ⟨n, hm, hhop⟩
    obtain ⟨hu, hn, hv, ha⟩ := marks_iff.1 hm
    exact (breaksLink_iff hn).2 ⟨hu, hv, ha, hhop⟩

def marked (s : Daemon) (n : Ptr) : Daemon :=
  pop ((s.observe (.unidirBreak (linkBreakReports s n))).setRt n
    { s.rt n with flags := { (s.rt n).flags with unidir := true } }) (.helloTimer n)

theorem kept_marked (s : Daemon) (n : Ptr) : Kept s (marked s n) := by
  let s₁ := s.observe (.unidirBreak (linkBreakReports s n))
  have hset : Kept s₁ (s₁.setRt n { s.rt n with flags := { (s.rt n).flags with unidir := true } }) :=
    Kept.setRt s₁ n _ rfl rfl
  exact ((Kept.observe s _).trans hset).trans (kept_pop _)

theorem untouched_marked (s : Daemon) (n : Ptr) : Untouched p s (marked s n) := by
  have hset := Untouched.setRt (p := p) (s.observe (.unidirBreak (linkBreakReports s n))) n
    (r := { s.rt n with flags := { (s.rt n).flags with unidir := true } }) rfl rfl rfl rfl
  exact ⟨hset.state, hset.nextHop, hset.hopcnt, hset.destSeqno⟩

def armAck (e : Env) (s : Daemon) (n : Ptr) : Daemon :=
  { s with
    timers := timerSetTimeout e.arch (e.clock s.tick) s.timers (.ackTimer n) nextHopWait
    tick := s.tick + 1 }

theorem unidir_marks {n : Ptr} (hv : (s.rt rev).state = .valid) (hm : marks s rev n = true) :
    rrepUnidir e s rev = armAck e (neighborLinkBreak e (marked s n) n) n := by
  obtain ⟨hu, hn, hvn, ha⟩ := marks_iff.1 hm
  rw [rrepUnidir, if_pos ⟨hv, hu⟩, hn]
  dsimp only
  rw [if_pos ⟨hvn, ha⟩]
  rfl

theorem unidir_same (h : (s.rt rev).state = .valid → ∀ n, marks s rev n = false) :
    rrepUnidir e s rev = s := by
  rw [rrepUnidir]
  split
  next hu =>
    cases hn : rtTableCheck s.rtTbl (s.rt rev).nextHop with
    | none => rfl
    | some n =>
        dsimp only
        split
        next hbreak =>
          have hno := h hu.1 n
          rw [marks_iff.2 ⟨hu.2, hn, hbreak⟩] at hno
          cases hno
        · rfl
  · rfl

/-- rrep_send over rev takes the entry p down. -/
def cuts (s : Daemon) (rev p : Ptr) : Prop :=
  (s.rt rev).state = .valid ∧ breaksLink s rev = true ∧
    ((s.rt p).nextHop = (s.rt rev).nextHop ∨ (s.rt p).destAddr = (s.rt rev).nextHop)

theorem cuts_or_untouched (rev : Ptr) (hs : WellFormed s) (hp : Linked s.rtTbl p) :
    (cuts s rev p ∧ ((rrepUnidir e s rev).rt p).state = .invalid) ∨
      (¬ cuts s rev p ∧ Untouched p s (rrepUnidir e s rev)) := by
  by_cases hany : (s.rt rev).state = .valid ∧ ∃ n, marks s rev n = true
  · obtain ⟨hv, n, hm⟩ := hany
    obtain ⟨hu, hn, hvn, ha⟩ := marks_iff.1 hm
    obtain ⟨hln, hd⟩ := rtTableCheck_some hn
    have hkept := kept_marked s n
    have hw := hkept.wellFormed hs
    have hmark : Untouched p s (marked s n) := untouched_marked s n
    have hhopn : ((marked s n).rt n).hopcnt = (s.rt n).hopcnt := (untouched_marked s n).hopcnt
    have hdn : ((marked s n).rt n).destAddr = (s.rt rev).nextHop :=
      (hkept.keys.destAddr n).trans hd
    have hdp : ((marked s n).rt p).destAddr = (s.rt p).destAddr := hkept.keys.destAddr p
    have hln' := (hkept.keys.linked n).2 hln
    have hp' := (hkept.keys.linked p).2 hp
    have hrt : (rrepUnidir e s rev).rt p = (neighborLinkBreak e (marked s n) n).rt p := by
      rw [unidir_marks hv hm]
      rfl
    have hcuts : cuts s rev p ↔ (s.rt n).hopcnt = 1 ∧
        ((s.rt p).nextHop = (s.rt rev).nextHop ∨ (s.rt p).destAddr = (s.rt rev).nextHop) := by
      rw [cuts, breaksLink_iff hn]
      simp only [hv, hu, hvn, ha, true_and]
    by_cases huse : (s.rt p).nextHop = (s.rt rev).nextHop ∨ (s.rt p).destAddr = (s.rt rev).nextHop
    · by_cases hhop : (s.rt n).hopcnt = 1
      · left
        refine ⟨hcuts.2 ⟨hhop, huse⟩, ?_⟩
        rw [hrt]
        apply linkBreak_takes_down hw hln' (hhopn.trans hhop) hp'
        refine huse.imp (fun h => ?_) fun h => ?_
        · rw [hmark.nextHop, hdn, h]
        · exact hw.table.dests p n hp' hln' (hdp.trans (h.trans hdn.symm))
      · right
        refine ⟨fun h => hhop (hcuts.1 h).1, hmark.trans (.of_rt ?_)⟩
        rw [hrt, neighborLinkBreak, if_pos (by rw [hhopn]; exact hhop)]
    · right
      refine ⟨fun h => huse (hcuts.1 h).2, hmark.trans (.of_rt ?_)⟩
      obtain ⟨hnext, hdest⟩ := not_or.1 huse
      rw [hrt]
      apply linkBreak_spares hw hln'
      · rintro rfl
        exact hdest hd
      · rw [hmark.nextHop, hdn]
        exact hnext
  · right
    have hsame : rrepUnidir e s rev = s := by
      apply unidir_same
      intro hv n
      rw [← Bool.not_eq_true]
      exact fun hm => hany ⟨hv, n, hm⟩
    refine ⟨fun h => ?_, .of_rt (by rw [hsame])⟩
    obtain ⟨n, hm, _⟩ := breaksLink_marks.1 h.2.1
    exact hany ⟨h.1, n, hm⟩

/-- What a reply over rev that breaks no link changes for the next one. -/
structure Replied (s : Daemon) (rev : Ptr) (s' : Daemon) : Prop where
  untouched : ∀ q, Untouched q s s'
  keys : ∀ d, rtTableCheck s'.rtTbl d = rtTableCheck s.rtTbl d
  destAddr : ∀ q, (s'.rt q).destAddr = (s.rt q).destAddr
  unidir : ∀ q, (s'.rt q).flags.unidir = ((s.rt q).flags.unidir || marks s rev q)
  ack : ∀ q, marks s rev q = false →
    (s'.timer (.ackTimer q)).used = (s.timer (.ackTimer q)).used

theorem marks_unique {n : Ptr} (h : marks s rev n = true) (hq : marks s rev q = true) : q = n := by
  obtain ⟨-, hn, -⟩ := marks_iff.1 h
  obtain ⟨-, hn', -⟩ := marks_iff.1 hq
  exact Option.some.inj (hn'.symm.trans hn)

theorem replied_unidir (hs : WellFormed s) (hrev : (s.rt rev).state = .valid)
    (hno : breaksLink s rev = false) : Replied s rev (rrepUnidir e s rev) := by
  by_cases hany : ∃ n, marks s rev n = true
  · obtain ⟨n, hm⟩ := hany
    have hhop : (s.rt n).hopcnt ≠ 1 := by
      intro hhop
      rw [breaksLink_marks.2 ⟨n, hm, hhop⟩] at hno
      cases hno
    have hfar : neighborLinkBreak e (marked s n) n = marked s n := by
      rw [neighborLinkBreak, if_pos]
      rwa [(untouched_marked s n).hopcnt]
    have hkept := kept_marked s n
    rw [unidir_marks hrev hm, hfar]
    refine ⟨?_, ?_, ?_, fun q => ?_, fun q hq => ?_⟩
    · exact fun q => (untouched_marked s n).trans (.of_rt rfl)
    · exact hkept.keys.rtTableCheck
    · exact hkept.keys.destAddr
    · change ((marked s n).rt q).flags.unidir = _
      by_cases hq : q = n
      · subst q
        rw [hm, Bool.or_true]
        exact congrArg (fun r => r.flags.unidir) (rt_setRt_self _ n _)
      · have hnot : marks s rev q = false := by
          rw [← Bool.not_eq_true]
          exact fun h => hq (marks_unique hm h)
        rw [hnot, Bool.or_false]
        exact congrArg (fun r => r.flags.unidir) (rt_setRt_ne _ _ hq)
    · have hne : q ≠ n := by
        rintro rfl
        rw [hm] at hq
        cases hq
      have hcoh := (hkept.wellFormed hs).coherent
      rw [Bool.eq_iff_iff]
      refine ((hcoh.timerSetTimeout _ _ _) _).trans ((pending_timerSetTimeout hcoh _ _ _ _).trans ?_)
      refine Iff.trans ?_ (hs.coherent (.ackTimer q)).symm
      change _ ∧ Pending (timerRemove s.timers (.helloTimer n)) _ ∨ _ ↔ _
      simp [hne]
  · have hnone (q : Ptr) : marks s rev q = false := by
      rw [← Bool.not_eq_true]
      exact fun h => hany ⟨q, h⟩
    rw [unidir_same fun _ => hnone]
    refine ⟨fun q => .of_rt rfl, fun _ => rfl, fun _ => rfl, fun q => ?_, fun _ _ => rfl⟩
    rw [hnone, Bool.or_false]

namespace Replied

theorem precursorAdd (h : Replied s rev s') (q : Ptr) (addr : Addr) :
    Replied s rev (precursorAdd s' q addr) := by
  have hkept := kept_precursorAdd s' q addr
  refine ⟨fun k => (h.untouched k).trans (.precursorAdd s' q addr), fun d => ?_, fun k => ?_,
    fun k => ?_, fun k hk => ?_⟩
  · rw [hkept.keys.rtTableCheck, h.keys]
  · exact (hkept.keys.destAddr k).trans (h.destAddr k)
  · rw [← h.unidir k, Aodv.precursorAdd]
    split
    · rfl
    · apply field_setRt (fun r => r.flags.unidir) s'
      rfl
  · rw [← h.ack k hk, Aodv.precursorAdd]
    split <;> rfl

theorem write (h : Replied s rev s') (buf : Buf) : Replied s rev { s' with sendBuf := buf } :=
  ⟨fun q => (h.untouched q).trans (.of_rt rfl), h.keys, h.destAddr, h.unidir, h.ack⟩

theorem after (c : SendCall) (hs : WellFormed c.s) (hrev : (c.s.rt c.rev).state = .valid)
    (hno : breaksLink c.s c.rev = false) : Replied c.s c.rev (c.after e) := by
  have hsend : Replied c.s c.rev (aodvSocketSend e (c.handed e) (.rrep c.rrep) (c.dest e) rrepSize
      maxTtl) := by
    obtain ⟨hun, hkeys, hdest, hflag, hack⟩ := replied_unidir (e := e) hs hrev hno
    exact ⟨fun q => (hun q).trans (.of_rt rfl), hkeys, hdest, hflag, hack⟩
  unfold SendCall.after rrepSend
  cases c.fwd with
  | none => exact hsend
  | some f => exact (hsend.precursorAdd f _).precursorAdd c.rev _

end Replied

theorem untouched_sent (c : SendCall) : Untouched p (c.handed e) (c.after e) := by
  unfold SendCall.after rrepSend
  cases c.fwd with
  | none => exact .of_rt rfl
  | some f =>
      have hsend : Untouched p (c.handed e) (aodvSocketSend e (c.handed e) (.rrep c.rrep) (c.dest e)
          rrepSize maxTtl) := .of_rt rfl
      exact (hsend.trans (.precursorAdd _ f _)).trans (.precursorAdd _ c.rev _)

theorem after_cuts (c : SendCall) (hs : WellFormed c.s) (hp : Linked c.s.rtTbl p) :
    (cuts c.s c.rev p ∧ ((c.after e).rt p).state = .invalid) ∨
      (¬ cuts c.s c.rev p ∧ Untouched p c.s (c.after e)) := by
  refine (cuts_or_untouched (e := e) c.rev hs hp).imp (fun h => ⟨h.1, ?_⟩) fun h =>
    ⟨h.1, ?_⟩
  · exact (untouched_sent c).state.trans h.2
  · exact h.2.trans (untouched_sent c)

theorem cuts_self (hv : (s.rt p).state = .valid) : cuts s p p ↔ breaksLink s p = true := by
  rw [cuts, eq_self_iff_true, true_or, and_true]
  exact and_iff_right hv

def cutsBack (s : Daemon) (p f : Ptr) : Prop :=
  (s.rt f).state = .valid ∧ ((s.rt f).flags.unidir = true ∨ marks s p f = true) ∧
    ∃ n, rtTableCheck s.rtTbl (s.rt f).nextHop = some n ∧ (s.rt n).state = .valid ∧
      (s.timer (.ackTimer n)).used = false ∧ (s.rt n).hopcnt = 1 ∧
      ((s.rt p).nextHop = (s.rt f).nextHop ∨ (s.rt p).destAddr = (s.rt f).nextHop)

def breaksNext (s : Daemon) (p f : Ptr) : Prop :=
  ((s.rt f).flags.unidir = true ∨ marks s p f = true) ∧
    ∃ n, rtTableCheck s.rtTbl (s.rt f).nextHop = some n ∧ (s.rt n).state = .valid ∧
      (s.timer (.ackTimer n)).used = false ∧ (s.rt n).hopcnt = 1

theorem breaks_replied {f : Ptr} (h : Replied s p s') (hno : breaksLink s p = false) :
    breaksLink s' f = true ↔ breaksNext s p f := by
  have hack {n : Ptr} (hhop : (s.rt n).hopcnt = 1) :
      (s'.timer (.ackTimer n)).used = (s.timer (.ackTimer n)).used := by
    apply h.ack
    rw [← Bool.not_eq_true]
    intro hm
    rw [breaksLink_marks.2 ⟨n, hm, hhop⟩] at hno
    cases hno
  rw [breaksLink_marks, breaksNext]
  simp only [marks_iff, h.keys, h.unidir, (h.untouched _).nextHop, (h.untouched _).state,
    (h.untouched _).hopcnt, Bool.or_eq_true]
  constructor
  · rintro ⟨n, ⟨hu, hn, hv, ha⟩, hhop⟩
    exact ⟨hu, n, hn, hv, hack hhop ▸ ha, hhop⟩
  · rintro ⟨hu, n, hn, hv, ha, hhop⟩
    exact ⟨n, ⟨hu, hn, hv, (hack hhop).trans ha⟩, hhop⟩

theorem cuts_replied {f : Ptr} (h : Replied s p s') (hno : breaksLink s p = false) :
    cuts s' f p ↔ cutsBack s p f := by
  rw [cuts, cutsBack, breaks_replied h hno, (h.untouched f).state, (h.untouched f).nextHop,
    (h.untouched p).nextHop, h.destAddr]
  constructor
  · rintro ⟨hv, ⟨hu, n, hn, hvn, ha, hhop⟩, huse⟩
    exact ⟨hv, hu, n, hn, hvn, ha, hhop, huse⟩
  · rintro ⟨hv, hu, n, hn, hvn, ha, hhop, huse⟩
    exact ⟨hv, ⟨hu, n, hn, hvn, ha, hhop⟩, huse⟩

end Replies

section Answers

variable {e : Env} {s s' : Daemon} {m : RREQ} {p f rev : Ptr}

def answersFrom (s : Daemon) (m : RREQ) : Option Ptr :=
  match rtTableCheck s.rtTbl m.destAddr with
  | none => none
  | some f =>
      if (s.rt f).state = .valid ∧ m.d = false ∧ (s.rt f).destSeqno ≠ 0 ∧
          BitVec.sle m.destSeqno (s.rt f).destSeqno then some f
      else none

theorem answersFrom_some : answersFrom s m = some f ↔
    rtTableCheck s.rtTbl m.destAddr = some f ∧ (s.rt f).state = .valid ∧ m.d = false ∧
      (s.rt f).destSeqno ≠ 0 ∧ BitVec.sle m.destSeqno (s.rt f).destSeqno = true := by
  rw [answersFrom]
  cases hc : rtTableCheck s.rtTbl m.destAddr with
  | none => simp
  | some q =>
      dsimp only
      constructor
      · intro h
        split at h
        next hcond =>
          cases h
          exact ⟨rfl, hcond⟩
        · cases h
      · rintro ⟨hq, hcond⟩
        cases hq
        exact if_pos hcond

theorem route_answers (h : answersFrom s m = some f) (buf : Buf) (len : Nat) (rev : Ptr) (ttl : Int) :
    rreqRoute e s buf len m rev ttl = rreqAnswer e s.tock m rev f (e.clock s.tick) := by
  obtain ⟨hc, hv, hd, hn, hle⟩ := answersFrom_some.1 h
  have hq : (s.tock.rt f).destSeqno ≠ 0 ∧ BitVec.sle m.destSeqno (s.tock.rt f).destSeqno = true :=
    ⟨hn, hle⟩
  rw [rreqRoute, hc]
  dsimp only
  rw [if_pos ⟨hv, hd⟩, if_pos hq]

theorem rt_passOn (buf : Buf) (len : Nat) (fwd : Option Ptr) (ttl : Int) :
    (rreqPassOn e s buf len m fwd ttl).rt = s.rt := by
  unfold rreqPassOn
  split <;> rfl

theorem route_passes (h : answersFrom s m = none) (buf : Buf) (len : Nat) (rev : Ptr) (ttl : Int) :
    (rreqRoute e s buf len m rev ttl).rt = s.rt := by
  rw [rreqRoute]
  cases hc : rtTableCheck s.rtTbl m.destAddr with
  | none => exact rt_passOn buf len none ttl
  | some f =>
      dsimp only
      split
      next hv =>
        split
        next hq =>
          have hsome := answersFrom_some.2 ⟨hc, hv.1, hv.2, hq⟩
          rw [h] at hsome
          cases hsome
        · exact rt_passOn buf len (some f) ttl
      · exact rt_passOn buf len (some f) ttl

/-- The replies to an RREQ over its reverse route p take p itself down. -/
def takesDown (s : Daemon) (m : RREQ) (p : Ptr) : Prop :=
  if m.destAddr = s.host.ipaddr then breaksLink s p = true
  else ∃ f, answersFrom s m = some f ∧
    (breaksLink s p = true ∨ m.g = true ∧ cutsBack s p f)

theorem breaksLink_congr (htbl : s'.rtTbl = s.rtTbl)
    (hack : ∀ n, (s'.timer (.ackTimer n)).used = (s.timer (.ackTimer n)).used) :
    breaksLink s' p = breaksLink s p := by
  have hrt (q : Ptr) : s'.rt q = s.rt q := by simp only [Daemon.rt, htbl]
  rw [Bool.eq_iff_iff, breaksLink_marks, breaksLink_marks]
  simp only [marks_iff, hrt, htbl, hack]

theorem takesDown_congr (htbl : s'.rtTbl = s.rtTbl) (hhost : s'.host = s.host)
    (hack : ∀ n, (s'.timer (.ackTimer n)).used = (s.timer (.ackTimer n)).used) :
    takesDown s' m p ↔ takesDown s m p := by
  have hrt (q : Ptr) : s'.rt q = s.rt q := by simp only [Daemon.rt, htbl]
  have hanswers : answersFrom s' m = answersFrom s m := by
    apply Option.ext
    intro f
    rw [answersFrom_some, answersFrom_some, hrt, htbl]
  have hback (f : Ptr) : cutsBack s' p f ↔ cutsBack s p f := by
    simp only [cutsBack, marks_iff, hrt, htbl, hack]
  simp only [takesDown, hhost, breaksLink_congr htbl hack, hanswers, hback]

theorem replied_second (hs : WellFormed s) (hp : Linked s.rtTbl p) (hf : Linked s.rtTbl f)
    (hv : (s.rt p).state = .valid) (hno : breaksLink s p = false) (now : Timeval) :
    Replied (answerCall e s p f now).s p (secondCall e s p f now).s := by
  have hsound := sound_answer (e := e) hs hp hf now
  have hafter : Replied (answerCall e s p f now).s p ((answerCall e s p f now).after e) :=
    Replied.after (answerCall e s p f now) hsound.wellFormed hv hno
  rw [secondCall]
  generalize (answerCall e s p f now).after e = s₁ at hafter
  exact hafter.write _

theorem answer_untouched (hs : WellFormed s) (hp : Linked s.rtTbl p) (hv : (s.rt p).state = .valid)
    (h : answersFrom s m = some f) (now : Timeval) :
    ((breaksLink s p = true ∨ m.g = true ∧ cutsBack s p f) ∧
        ((rreqAnswer e s m p f now).rt p).state = .invalid) ∨
      (¬ (breaksLink s p = true ∨ m.g = true ∧ cutsBack s p f) ∧
        Untouched p s (rreqAnswer e s m p f now)) := by
  have hf := rtTableCheck_some (answersFrom_some.1 h).1
  have hsound := sound_answer (e := e) hs hp hf.1 now
  have hfirst := after_cuts (e := e) (p := p) (answerCall e s p f now) hsound.wellFormed hsound.rev
  have hcut : cuts (answerCall e s p f now).s p p ↔ breaksLink s p = true := cuts_self hv
  have hstart : Untouched p s (answerCall e s p f now).s := .of_rt rfl
  have hsecond := sound_second (e := e) hs hp hf.1 now
  have hsnd := after_cuts (e := e) (p := p) (secondCall e s p f now) hsecond.wellFormed
    (hsecond.fwd p rfl).1
  have hrt : (secondCall e s p f now).s.rt = ((answerCall e s p f now).after e).rt := by
    rw [secondCall]
    generalize (answerCall e s p f now).after e = s₁
    rfl
  have hwrite : Untouched p ((answerCall e s p f now).after e) (secondCall e s p f now).s :=
    .of_rt (congrFun hrt p)
  rw [rreqAnswer_eq]
  rcases hfirst with ⟨hc, hi⟩ | ⟨hc, hu⟩
  · refine .inl ⟨.inl (hcut.1 hc), ?_⟩
    split
    · rcases hsnd with ⟨-, hi'⟩ | ⟨-, hu'⟩
      · exact hi'
      · exact (hwrite.trans hu').state.trans hi
    · exact hi
  · have hno : breaksLink s p = false := by
      rw [← Bool.not_eq_true]
      exact fun h => hc (hcut.2 h)
    have hreplied := replied_second (e := e) hs hp hf.1 hv hno now
    have hback : cuts (secondCall e s p f now).s f p ↔ cutsBack (answerCall e s p f now).s p f :=
      cuts_replied hreplied hno
    change _ ↔ cutsBack s p f at hback
    by_cases hg : m.g = true
    · rw [if_pos hg]
      rcases hsnd with ⟨hc', hi'⟩ | ⟨hc', hu'⟩
      · exact .inl ⟨.inr ⟨hg, hback.1 hc'⟩, hi'⟩
      · refine .inr ⟨?_, ((hstart.trans hu).trans hwrite).trans hu'⟩
        rintro (hb | ⟨_, hb⟩)
        · exact hc (hcut.2 hb)
        · exact hc' (hback.2 hb)
    · rw [if_neg hg]
      refine .inr ⟨?_, hstart.trans hu⟩
      rintro (hb | ⟨hg', _⟩)
      · exact hc (hcut.2 hb)
      · exact hg hg'

theorem accepted_untouched (hs : WellFormed s) (hp : Linked s.rtTbl p)
    (hv : (s.rt p).state = .valid) (buf : Buf) (len : Nat) (ttl : Int) :
    (takesDown s m p ∧ ((if m.destAddr = s.host.ipaddr then rreqForUs e s m p
        else rreqRoute e s buf len m p ttl).rt p).state = .invalid) ∨
      (¬ takesDown s m p ∧ Untouched p s (if m.destAddr = s.host.ipaddr then rreqForUs e s m p
        else rreqRoute e s buf len m p ttl)) := by
  rw [takesDown]
  split
  · have hsound := sound_forUs hs hp m
    have hself : cuts (forUsCall s m p).s p p ↔ breaksLink s p = true := cuts_self hv
    have hstart : Untouched p s (forUsCall s m p).s := .of_rt rfl
    rw [rreqForUs_eq]
    refine (after_cuts (e := e) (p := p) (forUsCall s m p) hsound.wellFormed hsound.rev).imp
      (fun h => ⟨hself.1 h.1, h.2⟩) fun h => ⟨fun hb => h.1 (hself.2 hb), hstart.trans h.2⟩
  · cases ha : answersFrom s m with
    | none =>
        right
        refine ⟨?_, .of_rt (by rw [route_passes ha])⟩
        rintro ⟨f, hf, _⟩
        cases hf
    | some f =>
        have hkept := Kept.tock s
        have hanswer := answer_untouched (e := e) (s := s.tock) (m := m) (hkept.wellFormed hs) hp hv ha
          (e.clock s.tick)
        rw [route_answers ha]
        refine hanswer.imp (fun h => ⟨⟨f, rfl, h.1⟩, h.2⟩) fun h => ⟨?_, ?_⟩
        · rintro ⟨q, hq, hb⟩
          cases hq
          exact h.1 hb
        · have htock : Untouched p s s.tock := .of_rt rfl
          exact htock.trans h.2

end Answers

end Aodv.Requests
