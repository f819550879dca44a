import Aodv.RrepCalls

namespace Aodv.Requests

open Lib.Bytes Relation

section Breaks

variable {e : Env} {s : Daemon} {p q : Ptr}

theorem rt_rerrList (b : RerrBuild) (nodelete : Bool) (p : Ptr) :
    (rerrList b nodelete p).s.rt = b.s.rt := by
  rw [rerrList]
  cases b.rerr <;> rfl

theorem state_destroy (s : Daemon) (p q : Ptr) :
    ((precursorListDestroy s p).rt q).state = (s.rt q).state := by
  rw [precursorListDestroy]
  by_cases hq : q = p
  · subst q
    rw [rt_setRt_self]
  · rw [rt_setRt_ne _ _ hq]

theorem step_takes_down {b : RerrBuild} (h : usesLink b.s p q = true) :
    ((linkBreakStep e p b q).s.rt q).state = .invalid := by
  rw [linkBreakStep, if_pos h]
  dsimp only
  split
  · exact state_invalidate e _ q
  · rw [state_destroy]
    split
    · rw [rt_rerrList]
      exact state_invalidate e b.s q
    · exact state_invalidate e b.s q

theorem lbs_down {s' : Daemon} (h : ReflTransGen (Lb e) s s') (hs : WellFormed s)
    (hi : (s.rt q).state = .invalid) : (s'.rt q).state = .invalid :=
  (slides_route (lbs_slides h hs) q).2.2.2 hi

theorem loop_takes_down (l : List Ptr) {b : RerrBuild} (hb : Building b) (hs : WellFormed b.s)
    (hl : ∀ r ∈ l, Linked b.s.rtTbl r) (hq : q ∈ l)
    (hnext : (b.s.rt q).nextHop = (b.s.rt p).destAddr)
    (hdest : (b.s.rt q).destAddr ≠ (b.s.rt p).destAddr) :
    ((l.foldl (linkBreakStep e p) b).s.rt q).state = .invalid := by
  induction l generalizing b with
  | nil => exact absurd hq List.not_mem_nil
  | cons r l ih =>
      have hturn := turn_linkBreakStep e p hb (hl r List.mem_cons_self)
      have hs' := (lb_kept hturn.steps).wellFormed hs
      have hslides := lbs_slides hturn.steps hs
      have hl' (k : Ptr) (hk : k ∈ l) : Linked (linkBreakStep e p b r).s.rtTbl k :=
        linked_of_lb hturn.steps (hl k (List.mem_cons_of_mem r hk))
      rw [List.foldl_cons]
      rcases List.mem_cons.1 hq with rfl | hq
      · have hdown : ((linkBreakStep e p b q).s.rt q).state = .invalid := by
          cases hv : (b.s.rt q).state with
          | invalid => exact lbs_down hturn.steps hs hv
          | valid => exact step_takes_down (decide_eq_true ⟨hv, hnext, hdest⟩)
        exact lbs_down (turn_foldl e p l hturn.building hl').steps hs' hdown
      · apply ih hturn.building hs' hl' hq
        · rw [(slides_route hslides q).2.1, (slides_route hslides p).1, hnext]
        · rwa [(slides_route hslides q).1, (slides_route hslides p).1]

theorem linkBreak_takes_down (hs : WellFormed s) (hp : Linked s.rtTbl p)
    (hhop : (s.rt p).hopcnt = 1) (hq : Linked s.rtTbl q)
    (huse : (s.rt q).nextHop = (s.rt p).destAddr ∨ q = p) :
    ((neighborLinkBreak e s p).rt q).state = .invalid := by
  have hw := (kept_invalidate e hp).wellFormed hs
  by_cases hne : q = p
  · subst q
    exact lbs_down (lb_linkBreak_rest e hp hhop) hw (state_invalidate e s p)
  · have hnext : (s.rt q).nextHop = (s.rt p).destAddr := huse.resolve_right hne
    have hdest : (s.rt q).destAddr ≠ (s.rt p).destAddr := fun hd => hne (hs.table.dests q p hq hp hd)
    have hself := turn_linkBreakSelf e hp
    have hrun : ReflTransGen (Lb e) s (linkBreakSelf e s p).s :=
      ReflTransGen.head (lb_invalidate e hp) hself.steps
    have hw' := (lb_kept hrun).wellFormed hs
    have hroute := slides_route (lbs_slides hrun hs)
    have hmem (r : Ptr) (hr : r ∈ (linkBreakSelf e s p).s.linked) :
        Linked (linkBreakSelf e s p).s.rtTbl r := (mem_entries _ r).1 hr
    have hloop := loop_takes_down (e := e) (p := p) (q := q) (linkBreakSelf e s p).s.linked
      hself.building hw' hmem ((mem_entries _ q).2 (linked_of_lb hrun hq))
      (by rw [(hroute q).2.1, (hroute p).1, hnext]) (by rwa [(hroute q).1, (hroute p).1])
    have hturns := turn_foldl e p (linkBreakSelf e s p).s.linked hself.building hmem
    rw [neighborLinkBreak, if_neg (by simpa using hhop)]
    exact lbs_down (lb_send e hturns.building) ((lb_kept hturns.steps).wellFormed hw') hloop

/-- rrep_send takes the link of the next hop down, and with it the reverse route:
the route is over a unidirectional link, and no acknowledgement is awaited. -/
def breaksLink (s : Daemon) (rev : Ptr) : Bool :=
  (s.rt rev).flags.unidir &&
    match rtTableCheck s.rtTbl (s.rt rev).nextHop with
    | none => false
    | some n =>
        decide ((s.rt n).state = .valid ∧ (s.timer (.ackTimer n)).used = false ∧ (s.rt n).hopcnt = 1)

theorem breaksLink_iff {rev n : Ptr} (hn : rtTableCheck s.rtTbl (s.rt rev).nextHop = some n) :
    breaksLink s rev = true ↔ (s.rt rev).flags.unidir = true ∧ (s.rt n).state = .valid ∧
      (s.timer (.ackTimer n)).used = false ∧ (s.rt n).hopcnt = 1 := by
  rw [breaksLink, hn, Bool.and_eq_true, decide_eq_true_iff]

theorem unidirBreak_valid (hs : WellFormed s) {rev n : Ptr} (hrev : Linked s.rtTbl rev)
    (hn : rtTableCheck s.rtTbl (s.rt rev).nextHop = some n) (hv : (s.rt rev).state = .valid) :
    ((neighborLinkBreak e (pop ((s.observe (.unidirBreak (linkBreakReports s n))).setRt n
      { s.rt n with flags := { (s.rt n).flags with unidir := true } }) (.helloTimer n)) n).rt rev).state
        = .valid ↔ (s.rt n).hopcnt ≠ 1 := by
  obtain ⟨hln, hd⟩ := rtTableCheck_some hn
  let s₁ := s.observe (.unidirBreak (linkBreakReports s n))
  let r : RtEntry := { s.rt n with flags := { (s.rt n).flags with unidir := true } }
  let s₂ := s₁.setRt n r
  have hset : Kept s₁ s₂ := Kept.setRt s₁ n _ rfl rfl
  have hmark : Kept s (pop s₂ (.helloTimer n)) := ((Kept.observe s _).trans hset).trans (kept_pop _)
  have hrt (q : Ptr) : (s₂.rt q).state = (s.rt q).state ∧ (s₂.rt q).nextHop = (s.rt q).nextHop ∧
      (s₂.rt q).destAddr = (s.rt q).destAddr ∧ (s₂.rt q).hopcnt = (s.rt q).hopcnt :=
    ⟨field_setRt RtEntry.state s₁ (p := n) (r := r) rfl q,
      field_setRt RtEntry.nextHop s₁ (p := n) (r := r) rfl q,
      field_setRt RtEntry.destAddr s₁ (p := n) (r := r) rfl q,
      field_setRt RtEntry.hopcnt s₁ (p := n) (r := r) rfl q⟩
  change ((neighborLinkBreak e (pop s₂ (.helloTimer n)) n).rt rev).state = .valid ↔ _
  by_cases hhop : (s.rt n).hopcnt = 1
  · have hdown : ((neighborLinkBreak e (pop s₂ (.helloTimer n)) n).rt rev).state = .invalid := by
      apply linkBreak_takes_down (hmark.wellFormed hs) ((hmark.keys.linked n).2 hln)
      · exact (hrt n).2.2.2.trans hhop
      · exact (hmark.keys.linked rev).2 hrev
      · refine .inl ((hrt rev).2.1.trans ?_)
        exact hd.symm.trans (hrt n).2.2.1.symm
    rw [hdown]
    simp [hhop]
  · have hfar : (((pop s₂ (.helloTimer n)).rt n).hopcnt ≠ 1) :=
      fun h => hhop ((hrt n).2.2.2.symm.trans h)
    rw [neighborLinkBreak, if_pos hfar]
    refine iff_of_true ?_ hhop
    exact (hrt rev).1.trans hv

theorem unidir_valid (hs : WellFormed s) {rev : Ptr} (hrev : Linked s.rtTbl rev) :
    ((rrepUnidir e s rev).rt rev).state = .valid ↔
      (s.rt rev).state = .valid ∧ breaksLink s rev = false := by
  rw [rrepUnidir]
  split
  next hu =>
    cases hn : rtTableCheck s.rtTbl (s.rt rev).nextHop with
    | none =>
        have hno : breaksLink s rev = false := by rw [breaksLink, hn, Bool.and_false]
        simp only [hno, and_true]
    | some n =>
        dsimp only
        split
        next hbreak =>
          refine (unidirBreak_valid hs hrev hn hu.1).trans ?_
          rw [← Bool.not_eq_true, breaksLink_iff hn]
          simp only [hu.1, hu.2, hbreak.1, hbreak.2, true_and]
        next hbreak =>
          have hno : breaksLink s rev = false := by
            rw [← Bool.not_eq_true, breaksLink_iff hn]
            exact fun h => hbreak ⟨h.2.1, h.2.2.1⟩
          simp only [hno, and_true]
  next hu =>
    constructor
    · intro hv
      refine ⟨hv, ?_⟩
      have hclean : (s.rt rev).flags.unidir = false := by simpa [hv] using hu
      rw [breaksLink, hclean, Bool.false_and]
    · exact And.left

end Breaks

/-- The RREP for orig is sent to the next hop of the VALID entry for orig. -/
def Follows (s : Daemon) (orig dest : Addr) : Prop :=
  ∃ p, Linked s.rtTbl p ∧ (s.rt p).destAddr = orig ∧ (s.rt p).nextHop = dest ∧
    (s.rt p).state = .valid

section Calls

variable {e : Env} {s : Daemon}

theorem send_follows {c : SendCall} (h : c.Sound) :
    Follows (c.handed e) c.rrep.origAddr (c.dest e) ↔
      (c.s.rt c.rev).state = .valid ∧ breaksLink c.s c.rev = false := by
  have hkept : Kept c.s (c.handed e) := kept_rrepUnidir e
  have hrev := (hkept.keys.linked c.rev).2 h.rev
  have hdest : ((c.handed e).rt c.rev).destAddr = c.rrep.origAddr :=
    (hkept.keys.destAddr c.rev).trans h.orig
  rw [← unidir_valid (e := e) h.wellFormed h.rev]
  constructor
  · rintro ⟨p, hp, hd, -, hv⟩
    have hw := hkept.wellFormed h.wellFormed
    rwa [hw.table.dests p c.rev hp hrev (hd.trans hdest.symm)] at hv
  · intro hv
    exact ⟨c.rev, hrev, hdest, rfl, hv⟩

theorem rrepOf_hopcnt (buf : Buf) (v : U8) :
    (rrepOf (store buf 3 v)).origAddr = (rrepOf buf).origAddr := by
  apply loadLE_congr
  intro i h _
  exact store_apply_of_ne buf 3 v i (by omega)

theorem askAck_route (buf : Buf) (rev : Ptr) (q : Ptr) :
    (rrepAskAck e s buf rev).1.rtTbl.tbl = s.rtTbl.tbl ∧
      ((rrepAskAck e s buf rev).1.rt q).destAddr = (s.rt q).destAddr ∧
      ((rrepAskAck e s buf rev).1.rt q).state = (s.rt q).state ∧
      (rrepOf (rrepAskAck e s buf rev).2).origAddr = (rrepOf buf).origAddr := by
  rw [rrepAskAck]
  cases rrepAckNeighbor s rev with
  | none => exact ⟨rfl, rfl, rfl, rfl⟩
  | some n =>
      dsimp only
      split
      · exact ⟨rfl, rfl, rfl, rfl⟩
      · let r : RtEntry := { s.rt n with flags := { (s.rt n).flags with unidir := true } }
        exact ⟨rfl, field_setRt RtEntry.destAddr s (p := n) (r := r) rfl q,
          field_setRt RtEntry.state s (p := n) (r := r) rfl q, (rrepOf_flags buf _).1⟩

theorem forward_follows {c : ForwardCall} (h : c.Sound) :
    Follows (c.handed e) (rrepOf (c.bytes e)).origAddr (c.dest e) := by
  obtain ⟨htbl, hd, hv, hm⟩ := askAck_route (e := e) (s := c.s) c.buf c.rev c.rev
  refine ⟨c.rev, ?_, ?_, rfl, hv.trans h.valid⟩
  · obtain ⟨i, hi⟩ := h.rev
    refine ⟨i, ?_⟩
    rw [← htbl] at hi
    exact hi
  · refine (hd.trans h.orig).trans (hm.symm.trans ?_)
    exact (rrepOf_hopcnt _ _).symm

end Calls

def rreqVia (id seqno : U32) : Packet :=
  .of (.rreq ⟨false, false, false, false, false, 1, id, 0x0100000a, 0, 0x0300000a, seqno⟩)
    0x0200000a aodvBroadcast 5 (fits_rreq _)

def fresh : Daemon := init plain 0x0100000a 0xff00000a 2

end Aodv.Requests
