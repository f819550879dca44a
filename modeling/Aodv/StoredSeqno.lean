import Aodv.ReverseRoute

namespace Aodv.StoredSeqno

open Lib.Bytes Lib.Serial Requests Heard Relation
open ReverseRoute (Holds HoldsBack SetUp)

/-- The number of p is as it was, or has been counted up as p was taken down. -/
def Drifted (p : Ptr) (s s' : Daemon) : Prop :=
  ((s'.rt p).destSeqno = (s.rt p).destSeqno ∧
      ((s.rt p).state = .invalid → (s'.rt p).state = .invalid)) ∨
    (s.rt p).state = .valid ∧ (s'.rt p).state = .invalid ∧
      (s'.rt p).destSeqno = seqnoIncr (s.rt p).destSeqno

section Moves

variable {e : Env} {ev : Event} {s s' s'' : Daemon} {p q : Ptr}

namespace Drifted

theorem of_eq (hn : (s'.rt p).destSeqno = (s.rt p).destSeqno)
    (hv : (s'.rt p).state = (s.rt p).state) : Drifted p s s' := .inl ⟨hn, hv.trans⟩

theorem of_rt (h : s'.rt p = s.rt p) : Drifted p s s' := of_eq (by rw [h]) (by rw [h])

theorem trans (h : Drifted p s s') (h' : Drifted p s' s'') : Drifted p s s'' := by
  obtain ⟨hn, hi⟩ | ⟨hv, hi, hn⟩ := h
  · obtain ⟨hn', hi'⟩ | ⟨hv', hi', hn'⟩ := h'
    · exact .inl ⟨hn'.trans hn, fun h => hi' (hi h)⟩
    · refine .inr ⟨?_, hi', by rw [hn', hn]⟩
      cases hst : (s.rt p).state with
      | valid => rfl
      | invalid =>
          rw [hi hst] at hv'
          cases hv'
  · obtain ⟨hn', hi'⟩ | ⟨hv', -, -⟩ := h'
    · exact .inr ⟨hv, hi' hi, hn'.trans hn⟩
    · rw [hi] at hv'
      cases hv'

theorem setRt {r : RtEntry} (hn : r.destSeqno = (s.rt q).destSeqno)
    (hv : r.state = (s.rt q).state) : Drifted p s (s.setRt q r) :=
  of_eq (field_setRt RtEntry.destSeqno s hn p) (field_setRt RtEntry.state s hv p)

theorem invalidate (e : Env) (s : Daemon) (q : Ptr) : Drifted p s (rtTableInvalidate e s q) := by
  by_cases hq : p = q
  · subst q
    cases hv : (s.rt p).state with
    | invalid => exact of_rt (by rw [invalidate_invalid e s hv]; rfl)
    | valid =>
        refine .inr ⟨hv, state_invalidate e s p, ?_⟩
        simp only [Daemon.rt, rt_invalidate_valid e hv, Function.update_self]
  · exact of_rt (rt_invalidate_ne e s hq)

theorem slide (h : Slide e s s') : Drifted p s s' := by
  cases h with
  | idle hi => exact of_eq (hi.rt p).destSeqno (hi.rt p).state
  | down => exact invalidate e s _
  | @repair q =>
      have hmark : Drifted p s (markRepair s q) := setRt rfl rfl
      exact hmark.trans (invalidate e _ q)

theorem slides (h : ReflTransGen (Slide e) s s') : Drifted p s s' := by
  induction h with
  | refl => exact of_rt rfl
  | tail _ h ih => exact ih.trans (slide h)

theorem update (hs : WellFormed s) (hq : Linked s.rtTbl q) (hne : p ≠ q) (next : Addr)
    (hops seqno lifetime : U32) (state : RtState) (flags : RtFlags) :
    Drifted p s (rtTableUpdate e s q next hops seqno lifetime state flags) := by
  obtain ⟨s₁, f, -, -, hrt, -, -, -, hslides, heq⟩ :=
    Aodv.update_parts e hs hq next hops seqno lifetime state flags
  have hbegin : Drifted p s s₁ := of_rt (by rw [hrt])
  refine (hbegin.trans (slides hslides)).trans (of_rt ?_)
  rw [heq, rt_updateFinish, if_neg hne]

theorem insert (hp : Linked s.rtTbl p) (hs : WellFormed s) (dest next : Addr)
    (hops seqno lifetime : U32) (state : RtState) (flags : RtFlags) :
    Drifted p s (rtTableInsert e s dest next hops seqno lifetime state flags).1 := by
  obtain hi | ⟨-, hi⟩ := rtTableInsert_cases e s dest next hops seqno lifetime state flags
  · exact of_rt (by rw [hi])
  · refine of_rt ?_
    have hne : p ≠ (s.observe (.rtInsert dest next hops seqno lifetime state flags)).brk := by
      rintro rfl
      exact hs.brk_not_linked hp
    rw [hi]
    exact HashTable.rt_insertEntry_ne _ hops lifetime hne

end Drifted

theorem learned_recv {own dest next : Addr} {old hops seqno lifetime : U32} {src : Source}
    (h : Learned own ev old src dest next hops seqno lifetime) : ∃ pkt, ev = .recv pkt := by
  cases h with
  | neighbor h | rreq h | rrep h | hello h => exact ⟨_, h⟩

theorem linked_move (hm : Move e ev s s') (hs : WellFormed s) (hev : ∀ pkt, ev ≠ .recv pkt)
    (hp : Linked s'.rtTbl p) : Linked s.rtTbl p := by
  obtain ⟨hl, -⟩ | ⟨src, next, hops, seqno, lifetime, hl⟩ := move_keys hm hs hp
  · exact hl
  · obtain ⟨pkt, h⟩ := learned_recv hl
    exact absurd h (hev pkt)

theorem drifted_move (hm : Move e ev s s') (hev : ∀ pkt, ev ≠ .recv pkt)
    (hp : Linked s'.rtTbl p) : Drifted p s s' := by
  cases hm with
  | slide h => exact .slide h
  | @updateTimeout q lifetime => exact .of_rt (by rw [rt_updateTimeout])
  | @helloArm q now time =>
      have hset : Drifted p s (s.setRt q { s.rt q with lastHelloTime := now }) := .setRt rfl rfl
      exact hset
  | @helloMark q ht hh hu =>
      have hset : Drifted p s (markRepair s q) := .setRt rfl rfl
      exact hset
  | rerrSeqno _ h => exact absurd h (hev _)
  | @repairTimeout q hq hr =>
      by_cases hne : p = q
      · refine .of_eq ?_ ?_ <;> rw [rt_repairTimeout, if_pos hne, hne]
      · exact .of_rt (by rw [rt_repairTimeout, if_neg hne])
  | @delete q hq hh => exact .of_rt (rt_delete e s ((linked_delete e s q p).1 hp).2)
  | expireIdle | seekFail | repairStart | seekNew => exact .of_rt rfl
  | insert _ _ hl | update _ _ hl =>
      obtain ⟨pkt, h⟩ := learned_recv hl
      exact absurd h (hev pkt)

theorem drifted_moves (hm : ReflTransGen (Move e ev) s s') (hs : WellFormed s)
    (hev : ∀ pkt, ev ≠ .recv pkt) (hp : Linked s'.rtTbl p) : Drifted p s s' := by
  induction hm with
  | refl => exact .of_rt rfl
  | tail hrun hm ih =>
      have hw := moves_wellFormed hrun hs
      exact (ih (linked_move hm hw hev hp)).trans (drifted_move hm hev hp)

theorem drifted_quiets (h : ReflTransGen (Quiet e .age) s s') (hs : WellFormed s)
    (hp : Linked s'.rtTbl p) : Drifted p s s' := by
  have hmoves : ReflTransGen (Move e .age) s s' := by
    clear hp
    induction h with
    | refl => exact .refl
    | tail hrun h ih => exact ih.trans (quiet_moves h (quiets_sound hrun hs).wellFormed)
  exact drifted_moves hmoves hs (by simp) hp

end Moves

def Later (x n : U32) : Prop := n ≠ 0 ∧ NotOlder x n

section Later

variable {s s' : Daemon} {p : Ptr} {x : U32}

theorem later_refl (hx : x ≠ 0) : Later x x := ⟨hx, notOlder_refl x⟩

theorem later_incr (hx : x ≠ 0) : Later x (seqnoIncr x) :=
  ⟨seqnoIncr_ne_zero hx, (newer_seqnoIncr hx).2⟩

theorem Drifted.later (h : Drifted p s s') (hx : (s.rt p).destSeqno ≠ 0) :
    Later (s.rt p).destSeqno (s'.rt p).destSeqno := by
  obtain ⟨hn, -⟩ | ⟨-, -, hn⟩ := h
  · rw [hn]
    exact later_refl hx
  · rw [hn]
    exact later_incr hx

end Later

section Hellos

variable {e : Env} {s : Daemon} {p : Ptr}

def HelloTakes (e : Env) (r : RtEntry) : Prop :=
  ¬ (r.flags.unidir = true ∧ r.state = .valid ∧ 1 < r.hopcnt) ∧
    ¬ (e.receiveNHellos ≠ 0 ∧ (r.helloCnt.toNat : Int) < e.receiveNHellos - 1)

theorem hello_later (hs : WellFormed s) (hp : Linked s.rtTbl p) (hx : (s.rt p).destSeqno ≠ 0)
    (buf : Buf) (h : (rrepOf buf).destAddr = (s.rt p).destAddr → HelloTakes e (s.rt p) →
      Later (s.rt p).destSeqno (rrepOf buf).destSeqno) :
    Later (s.rt p).destSeqno ((helloProcess e s buf).rt p).destSeqno := by
  have htock : s.tock.rt p = s.rt p := rfl
  have hs' : WellFormed s.tock := (Kept.tock s).wellFormed hs
  have harm (s : Daemon) (q : Ptr) (now : Timeval) (time : Int) :
      ((helloUpdateTimeout e s q now time).rt p).destSeqno = (s.rt p).destSeqno := by
    let s₁ : Daemon := { s with
      timers := timerSetTimeout e.arch (e.clock s.tick) s.timers (.helloTimer q) (time + helloDelay)
      tick := s.tick + 1 }
    exact field_setRt RtEntry.destSeqno s₁ (p := q) (r := { s.rt q with lastHelloTime := now }) rfl p
  rw [helloProcess]
  dsimp only
  cases hc : rtTableCheck s.tock.rtTbl (rrepOf buf).destAddr with
  | none =>
      have hins := Drifted.insert (e := e) (s := s.tock) hp hs' (rrepOf buf).destAddr
        (rrepOf buf).destAddr 1 (rrepOf buf).destSeqno
        (u32 (allowedHelloLoss * helloInterval + routeTimeoutSlack))
        (if e.receiveNHellos ≠ 0 then .invalid else .valid) .zero
      dsimp only
      generalize rtTableInsert e s.tock (rrepOf buf).destAddr (rrepOf buf).destAddr 1
        (rrepOf buf).destSeqno (u32 (allowedHelloLoss * helloInterval + routeTimeoutSlack))
        (if e.receiveNHellos ≠ 0 then .invalid else .valid) .zero = o at hins
      obtain ⟨s₁, _ | q⟩ := o
      · exact hins.later hx
      · have hset : Drifted p s₁ (s₁.setRt q { s₁.rt q with helloCnt := 1 }) := .setRt rfl rfl
        exact (hins.trans hset).later hx
  | some q =>
      obtain ⟨hq, hd⟩ := rtTableCheck_some hc
      dsimp only
      rw [helloKnown]
      dsimp only
      split
      · rw [harm, htock]
        exact later_refl hx
      next hfar =>
        split
        · refine Drifted.later (s := s.tock) (.setRt ?_ ?_) hx <;> rfl
        next hcount =>
          rw [harm]
          by_cases hne : p = q
          · subst q
            rw [(rt_update_self e s.tock p _ _ _ _ _ _).2.2.1]
            exact h hd.symm ⟨hfar, hcount⟩
          · exact (Drifted.update hs' hq hne _ 1 _ _ .valid _).later hx

end Hellos

section Rreps

variable {e : Env} {s : Daemon} {p : Ptr}

theorem rrep_later (hs : WellFormed s) (hp : Linked s.rtTbl p) (hx : (s.rt p).destSeqno ≠ 0)
    (buf : Buf) (len : Nat) (src : Addr) (ttl : Int)
    (h : rrepSize ≤ len → (rrepOf buf).destAddr ≠ s.host.ipaddr →
      (rrepOf buf).destAddr = (s.rt p).destAddr →
      BitVec.slt (s.rt p).destSeqno (rrepOf buf).destSeqno = true →
      Later (s.rt p).destSeqno (rrepOf buf).destSeqno) :
    Later (s.rt p).destSeqno ((rrepProcess e s buf len src ttl).rt p).destSeqno := by
  rw [rrepProcess_eq]
  split
  · exact later_refl hx
  next hlen =>
    split
    · exact later_refl hx
    next hown =>
      rw [rrepRoute]
      dsimp only
      cases hc : rtTableCheck s.rtTbl (rrepOf buf).destAddr with
      | none =>
          have hins := Drifted.insert (e := e) hp hs (rrepOf buf).destAddr src
            ((rrepOf buf).hopcnt.setWidth 32 + 1) (rrepOf buf).destSeqno (rrepOf buf).lifetime .valid
            .zero
          dsimp only
          generalize rtTableInsert e s (rrepOf buf).destAddr src
            ((rrepOf buf).hopcnt.setWidth 32 + 1) (rrepOf buf).destSeqno (rrepOf buf).lifetime .valid
            .zero = o at hins
          obtain ⟨s₁, _ | q⟩ := o
          · exact later_refl hx
          · dsimp only
            rw [(untouched_rrepRest buf len _ _ _ ttl).destSeqno]
            exact hins.later hx
      | some q =>
          obtain ⟨hq, hd⟩ := rtTableCheck_some hc
          dsimp only
          by_cases hfresh : rrepFresher (s.rt q) (rrepOf buf).destSeqno
              ((rrepOf buf).hopcnt.setWidth 32 + 1) = true
          · rw [if_pos hfresh]
            dsimp only
            rw [(untouched_rrepRest buf len _ _ _ ttl).destSeqno]
            by_cases hne : p = q
            · subst q
              rw [(rt_update_self e s p _ _ _ _ _ _).2.2.1]
              by_cases heq : (s.rt p).destSeqno = (rrepOf buf).destSeqno
              · rw [← heq]
                exact later_refl hx
              · rw [rrepFresher_known _ hx heq] at hfresh
                exact h (Nat.le_of_not_lt hlen) hown hd.symm hfresh
            · exact (Drifted.update hs hq hne _ _ _ _ .valid _).later hx
          · rw [if_neg hfresh]
            exact later_refl hx

end Rreps

section Rerrs

variable {e : Env} {s : Daemon} {b : RerrBuild} {p : Ptr} {src d : Addr} {x : U32}
  {nodelete : Bool}

theorem hits_spec {u : Addr × U32} (h : rerrHits s src u = some p) :
    rtTableCheck s.rtTbl u.1 = some p ∧ (s.rt p).state = .valid ∧ (s.rt p).nextHop = src ∧
      BitVec.slt u.2 (s.rt p).destSeqno = false := by
  obtain ⟨a, n⟩ := u
  have hc : rtTableCheck s.rtTbl a = some p := by
    rw [rerrHits] at h
    cases hc : rtTableCheck s.rtTbl a with
    | none =>
        rw [hc] at h
        cases h
    | some q =>
        rw [hc] at h
        dsimp only at h
        split at h
        · exact h
        · cases h
  exact ⟨hc, (hits_iff hc).1 h⟩

def Deaf (s : Daemon) (src : Addr) (p : Ptr) : Prop :=
  ¬ (rtTableCheck s.rtTbl (s.rt p).destAddr = some p ∧ (s.rt p).state = .valid ∧
    (s.rt p).nextHop = src)

theorem loop_deaf (l : List (Addr × U32)) (h : Deaf b.s src p) :
    Requests.Untouched p b.s (l.foldl (rerrStep e nodelete src) b).s := by
  induction l generalizing b with
  | nil => exact .of_rt rfl
  | cons u l ih =>
      have hmiss : rerrHits b.s src u ≠ some p := by
        intro hit
        obtain ⟨hc, hv, hn, -⟩ := hits_spec hit
        rw [← hits_dest hit] at hc
        exact h ⟨hc, hv, hn⟩
      have hstep := untouched_step (e := e) nodelete hmiss
      have hkeys : SameKeys b.s.rtTbl (rerrStep e nodelete src b u).s.rtTbl := keys_step u
      rw [List.foldl_cons]
      refine hstep.trans (ih ?_)
      rintro ⟨hc, hv, hn⟩
      refine h ⟨?_, hstep.state.symm.trans hv, hstep.nextHop.symm.trans hn⟩
      have hdest : ((rerrStep e nodelete src b u).s.rt p).destAddr = (b.s.rt p).destAddr :=
        hkeys.destAddr p
      rwa [hkeys.rtTableCheck, hdest] at hc

theorem loop_kept (l : List (Addr × U32)) (hdest : (b.s.rt p).destAddr = d)
    (hl : ∀ n, (d, n) ∈ l → BitVec.slt n x = false → Later x n)
    (hx : Later x (b.s.rt p).destSeqno) (hge : BitVec.slt (b.s.rt p).destSeqno x = false) :
    Later x ((l.foldl (rerrStep e nodelete src) b).s.rt p).destSeqno := by
  induction l generalizing b with
  | nil => exact hx
  | cons u l ih =>
      have hkeys : SameKeys b.s.rtTbl (rerrStep e nodelete src b u).s.rtTbl := keys_step u
      have hl' (n : U32) (hn : (d, n) ∈ l) := hl n (List.mem_cons_of_mem u hn)
      rw [List.foldl_cons]
      by_cases hit : rerrHits b.s src u = some p
      · obtain ⟨-, -, -, hle⟩ := hits_spec hit
        have hud : u = (d, u.2) := Prod.ext ((hits_dest hit).symm.trans hdest) rfl
        rw [hud] at hit
        have hobeyed : Obeyed nodelete p u.2 (rerrStep e nodelete src b (d, u.2)).s :=
          obeyed_step hit
        have hnumber := hobeyed.destSeqno
        have hge' : BitVec.slt u.2 x = false := by
          rw [BitVec.slt, decide_eq_false_iff_not, Int.not_lt] at hle hge ⊢
          exact Int.le_trans hge hle
        rw [← hud] at hnumber
        refine ih ((hkeys.destAddr p).trans hdest) hl' ?_ ?_
        · rw [hnumber]
          exact hl u.2 (hud ▸ List.mem_cons_self) hge'
        · rw [hnumber]
          exact hge'
      · have hstep := untouched_step (e := e) nodelete hit
        refine ih ((hkeys.destAddr p).trans hdest) hl' ?_ ?_
        · rw [hstep.destSeqno]
          exact hx
        · rw [hstep.destSeqno]
          exact hge

theorem loop_first (l₁ l : List (Addr × U32)) (hdest : (b.s.rt p).destAddr = d)
    (hx : (b.s.rt p).destSeqno = x) (hx0 : x ≠ 0)
    (hold : ∀ u ∈ l₁, u.1 = d → BitVec.slt u.2 x = true)
    (hl : ∀ l₂ n l₃, l₁ ++ l = l₂ ++ (d, n) :: l₃ →
      (∀ u ∈ l₂, u.1 = d → BitVec.slt u.2 x = true) → BitVec.slt n x = false → Later x n) :
    Later x ((l.foldl (rerrStep e false src) b).s.rt p).destSeqno := by
  induction l generalizing b l₁ with
  | nil =>
      rw [List.foldl_nil, hx]
      exact later_refl hx0
  | cons u l ih =>
      by_cases hdeaf : Deaf b.s src p
      · rw [(loop_deaf (u :: l) hdeaf).destSeqno, hx]
        exact later_refl hx0
      obtain ⟨hc, hv, hn⟩ := not_not.1 hdeaf
      rw [hdest] at hc
      rw [List.foldl_cons]
      by_cases hud : u.1 = d ∧ BitVec.slt u.2 x = false
      · have hu : u = (d, u.2) := Prod.ext hud.1 rfl
        have hit : rerrHits b.s src (d, u.2) = some p := (hits_iff hc).2 ⟨hv, hn, hx.symm ▸ hud.2⟩
        have hobeyed : Obeyed false p u.2 (rerrStep e false src b (d, u.2)).s := obeyed_step hit
        rw [← hu] at hobeyed
        have hdown : Deaf (rerrStep e false src b u).s src p := by
          rintro ⟨-, hv', -⟩
          rw [hobeyed.state rfl] at hv'
          cases hv'
        rw [(loop_deaf l hdown).destSeqno, hobeyed.destSeqno]
        exact hl l₁ u.2 l (by rw [← hu]) hold hud.2
      · have hmiss : rerrHits b.s src u ≠ some p := by
          intro hit
          obtain ⟨-, -, -, hge⟩ := hits_spec hit
          exact hud ⟨(hits_dest hit).symm.trans hdest, hx ▸ hge⟩
        have hstep := untouched_step (e := e) false hmiss
        have hkeys : SameKeys b.s.rtTbl (rerrStep e false src b u).s.rtTbl := keys_step u
        refine ih (l₁ ++ [u]) ((hkeys.destAddr p).trans hdest) (hstep.destSeqno.trans hx) ?_ ?_
        · intro v hv' hvd
          rcases List.mem_append.1 hv' with hv' | hv'
          · exact hold v hv' hvd
          · rw [List.mem_singleton.1 hv'] at hvd ⊢
            rw [← Bool.not_eq_false]
            exact fun hge => hud ⟨hvd, hge⟩
        · intro l₂ n l₃ heq
          rw [List.append_assoc] at heq
          exact hl l₂ n l₃ heq

theorem rerr_later (pkt : Packet) (hx : (s.rt p).destSeqno ≠ 0)
    (h : rerrCalcSize (pkt.buf 3) ≤ pkt.len → (s.rt p).state = .valid → (s.rt p).nextHop = pkt.src →
      ∀ l₁ n l₂, listed pkt.buf = l₁ ++ ((s.rt p).destAddr, n) :: l₂ →
        ((pkt.buf 1).getLsbD 0 = false →
          ∀ u ∈ l₁, u.1 = (s.rt p).destAddr → BitVec.slt u.2 (s.rt p).destSeqno = true) →
        BitVec.slt n (s.rt p).destSeqno = false → Later (s.rt p).destSeqno n) :
    Later (s.rt p).destSeqno ((rerrProcess e s pkt.buf pkt.len pkt.src).rt p).destSeqno := by
  rw [rerrProcess]
  split
  · exact later_refl hx
  next hlen =>
    rw [rt_rerrReply]
    by_cases hover : (s.rt p).state = .valid ∧ (s.rt p).nextHop = pkt.src
    · have hall := h (Int.not_lt.1 hlen) hover.1 hover.2
      cases hN : (pkt.buf 1).getLsbD 0 with
      | true =>
          rw [hN] at hall
          refine loop_kept (b := ⟨s, none, 0⟩) (listed pkt.buf) rfl (fun n hn hge => ?_)
            (later_refl hx) ?_
          · obtain ⟨l₁, l₂, heq⟩ := List.append_of_mem hn
            exact hall l₁ n l₂ heq (by rintro ⟨⟩) hge
          · rw [BitVec.slt, decide_eq_false_iff_not]
            exact Int.lt_irrefl _
      | false =>
          rw [hN] at hall
          exact loop_first (b := ⟨s, none, 0⟩) [] (listed pkt.buf) rfl rfl hx
            (fun u hu => absurd hu List.not_mem_nil)
            fun l₂ n l₃ heq hold hge => hall l₂ n l₃ heq (fun _ => hold) hge
    · have hdeaf : Deaf s pkt.src p := fun hd => hover ⟨hd.2.1, hd.2.2⟩
      rw [(loop_deaf (b := ⟨s, none, 0⟩) (listed pkt.buf) hdeaf).destSeqno]
      exact later_refl hx

end Rerrs

section Rreqs

variable {e : Env} {s t t' : Daemon} {p rev : Ptr} {pkt : Packet}

theorem drifted_rest (hw : WellFormed t) (hrev : Foreign t rev) (ht : pkt.buf 0 = aodvRreq)
    (hlen : rreqSize ≤ pkt.len) (hacc : .rreqAccepted (rreqOf pkt.buf) pkt.src ∈ t.trace) (ttl : Int)
    (hp : Linked (rest e t pkt rev ttl).rtTbl p) : Drifted p t (rest e t pkt rev ttl) := by
  rw [rest] at hp ⊢
  split at hp
  next hown =>
    rw [if_pos hown]
    let t₁ : Daemon := { t.observe (.rreqForUs t.host.seqno (rreqOf pkt.buf).destSeqno) with
      host := { t.host with seqno := ownSeqno t.host.seqno (rreqOf pkt.buf).destSeqno } }
    have hforUs : Coarse e (.recv pkt) t t₁ := .forUs rfl ht
    have hw₁ := (coarse_sound hforUs hw).wellFormed
    have hstart : Drifted p t t₁ := .of_rt rfl
    simp only [rreqForUs, rrepCreate_eq] at hp ⊢
    refine hstart.trans (drifted_quiets (quiets_reply hw₁ ⟨hrev.linked, hrev.dest⟩ ?_ (.inl rfl))
      hw₁ hp)
    rintro f ⟨⟩
  next hother =>
    rw [if_neg hother]
    exact drifted_quiets (quiets_route ttl hw ht hlen hacc hrev hother) hw hp

theorem SetUp.spares (h : SetUp s (rreqOf pkt.buf) pkt.src t rev)
    (hholds : Holds s (rreqOf pkt.buf) pkt.src)
    (hback : (rreqOf pkt.buf).g = true → HoldsBack s (rreqOf pkt.buf) pkt.src) :
    ¬ Requests.takesDown t (rreqOf pkt.buf) rev := by
  obtain ⟨-, hno⟩ := h.holds_iff.2 hholds
  rw [Requests.takesDown]
  split
  · rw [hno]
    exact Bool.false_ne_true
  · rintro ⟨f, hf, hb | ⟨hg, hvf, hu, n, hn, hv, ha, hhop, -⟩⟩
    · rw [hno] at hb
      cases hb
    · exact (h.holdsBack_iff hf hno).2 (hback hg) ⟨hu, n, hn, hv, ha, hhop⟩

theorem reverse_drifts (hw : WellFormed t) (hp : Linked t.rtTbl p) {m : RREQ} {src : Addr}
    {o : Option Ptr} (h : rreqReverse e t m src = (t', o)) :
    Drifted p t t' ∨ o = some p ∧ rtTableCheck t.rtTbl m.origAddr = some p ∧
      rreqFresher (t.rt p) m.origSeqno (ReverseRoute.hops m) = true ∧
      (t'.rt p).destSeqno = m.origSeqno ∧ (t'.rt p).state = .valid := by
  rw [rreqReverse] at h
  dsimp only at h
  cases hc : rtTableCheck t.rtTbl m.origAddr with
  | none =>
      rw [hc] at h
      have hins := Drifted.insert (e := e) hp hw m.origAddr src (m.hopcnt.setWidth 32 + 1)
        m.origSeqno (rreqLife (m.hopcnt.setWidth 32 + 1)) .valid .zero
      dsimp only at h
      rw [h] at hins
      exact .inl hins
  | some q =>
      obtain ⟨hq, hd⟩ := rtTableCheck_some hc
      rw [hc] at h
      dsimp only at h
      split at h
      next hfresh =>
        cases h
        by_cases hne : p = q
        · subst q
          obtain ⟨-, -, hn, hv⟩ := rt_update_self e t p src (m.hopcnt.setWidth 32 + 1) m.origSeqno
            (rreqLife (m.hopcnt.setWidth 32 + 1)) .valid (t.rt p).flags
          exact .inr ⟨rfl, rfl, hfresh, hn, hv⟩
        · exact .inl (.update hw hq hne _ _ _ _ .valid _)
      · cases h
        exact .inl (.of_rt rfl)

theorem rreq_later (hs : WellFormed s) (hne : pkt.src ≠ s.host.ipaddr) (ttl : Int)
    (hacc : Accepts (neighborAdd e s pkt.src) pkt)
    (hp : Linked (neighborAdd e s pkt.src).rtTbl p)
    (hp' : Linked (rreqProcess e (neighborAdd e s pkt.src) pkt.buf pkt.len pkt.src ttl).rtTbl p)
    {x : U32} (hx : x ≠ 0) (hnum : ((neighborAdd e s pkt.src).rt p).destSeqno = x)
    (h : (rreqOf pkt.buf).origAddr = ((neighborAdd e s pkt.src).rt p).destAddr →
      BitVec.slt x (rreqOf pkt.buf).origSeqno = true → Later x (rreqOf pkt.buf).origSeqno ∧
        (¬ (Holds s (rreqOf pkt.buf) pkt.src ∧
          ((rreqOf pkt.buf).g = true → HoldsBack s (rreqOf pkt.buf) pkt.src)) →
            NotOlder x (seqnoIncr (rreqOf pkt.buf).origSeqno))) :
    Later x ((rreqProcess e (neighborAdd e s pkt.src) pkt.buf pkt.len pkt.src ttl).rt p).destSeqno := by
  have hsound := coarses_sound (coarses_neighborAdd (e := e) (s := s) (rfl : Event.recv pkt = _) hne) hs
  obtain ⟨htbl, hhost, htrace, hack⟩ := recorded_frame (e := e) hacc
  have hw := wellFormed_recorded e pkt hsound.wellFormed
  have hnotes := ReverseRoute.notes_congr (notes_neighborAdd e hs pkt.src) htbl hack
  have hip : (recorded e (neighborAdd e s pkt.src) pkt).host.ipaddr = s.host.ipaddr := by
    rw [hhost, hsound.ipaddr]
  have hrt : (recorded e (neighborAdd e s pkt.src) pkt).rt p = (neighborAdd e s pkt.src).rt p := by
    simp only [Daemon.rt, htbl]
  rw [← htbl] at hp
  rw [← hrt] at hnum h
  have hmem : .rreqAccepted (rreqOf pkt.buf) pkt.src ∈
      (recorded e (neighborAdd e s pkt.src) pkt).trace := by
    rw [htrace]
    exact List.mem_cons_self
  rw [process_accepted hacc] at hp' ⊢
  generalize recorded e (neighborAdd e s pkt.src) pkt = t at *
  have hsuffix := (Requests.mute_reverse (e := e) (s := t) (rreqOf pkt.buf) pkt.src).suffix
  obtain ⟨t', o, hrev⟩ : ∃ t' o, rreqReverse e t (rreqOf pkt.buf) pkt.src = (t', o) := ⟨_, _, rfl⟩
  rw [hrev] at hp' hsuffix ⊢
  have hdrift := reverse_drifts hw hp hrev
  cases o with
  | none =>
      obtain hd | ⟨ho, -⟩ := hdrift
      · have hlast : (rreqUnrouted e t' pkt.buf pkt.len (rreqOf pkt.buf) ttl).rt = t'.rt := by
          rw [rreqUnrouted]
          split
          · rfl
          · exact Requests.rt_passOn _ _ _ _
        dsimp only
        rw [hlast, ← hnum]
        exact hd.later (hnum.symm ▸ hx)
      · cases ho
  | some rev =>
      dsimp only at hp' hsuffix ⊢
      have hset := ReverseRoute.setUp_reverse hw hip hnotes hrev
      have hforeign : Foreign t' rev := by
        refine ⟨hset.linked, ?_⟩
        rw [hset.dest, hset.ipaddr, ← hsound.ipaddr]
        exact hacc.foreign
      have hrest := drifted_rest hset.wellFormed hforeign hacc.type hacc.length
        (hsuffix.subset hmem) ttl hp'
      obtain hd | ⟨ho, hc, hfresh, hn, hv⟩ := hdrift
      · rw [← hnum]
        exact (hd.trans hrest).later (hnum.symm ▸ hx)
      · cases ho
        by_cases heq : x = (rreqOf pkt.buf).origSeqno
        · rw [← heq] at hn
          rw [← hn] at hx ⊢
          exact hrest.later hx
        · have hlt : BitVec.slt x (rreqOf pkt.buf).origSeqno = true := by
            rw [← hnum] at hx heq ⊢
            rwa [rreqFresher_known _ hx heq] at hfresh
          obtain ⟨hlater, hincr⟩ := h (rtTableCheck_some hc).2.symm hlt
          by_cases hgood : Holds s (rreqOf pkt.buf) pkt.src ∧
              ((rreqOf pkt.buf).g = true → HoldsBack s (rreqOf pkt.buf) pkt.src)
          · obtain ⟨hdown, -⟩ | ⟨-, hsame⟩ :=
              rest_untouched (e := e) pkt hset.wellFormed hset.linked hv ttl
            · exact absurd hdown (SetUp.spares hset hgood.1 hgood.2)
            · rwa [hsame.destSeqno, hn]
          · obtain ⟨hsame, -⟩ | ⟨-, -, hcounted⟩ := hrest
            · rwa [hsame, hn]
            · rw [hcounted, hn]
              exact ⟨seqnoIncr_ne_zero hlater.1, hincr hgood⟩

end Rreqs

/-- No number that the datagram makes a handler store in the entry p goes back: not that
of a HELLO that is taken over, of an RREP or an RREQ that is fresh by the signed
comparison, nor of a record of an RERR from the next hop. The number of an RREQ may be
counted up at once where the reply breaks a link. -/
structure Rises (e : Env) (s : Daemon) (pkt : Packet) (p : Ptr) : Prop where
  hello : isHello pkt = true → (rrepOf pkt.buf).destAddr = (s.rt p).destAddr →
    HelloTakes e (s.rt p) → Later (s.rt p).destSeqno (rrepOf pkt.buf).destSeqno
  rrep : pkt.buf 0 = aodvRrep → isHello pkt = false → rrepSize ≤ pkt.len →
    (rrepOf pkt.buf).destAddr ≠ s.host.ipaddr →
    (rrepOf pkt.buf).destAddr = (s.rt p).destAddr →
    BitVec.slt (s.rt p).destSeqno (rrepOf pkt.buf).destSeqno = true →
    Later (s.rt p).destSeqno (rrepOf pkt.buf).destSeqno
  rreq : Accepts s pkt → (rreqOf pkt.buf).origAddr = (s.rt p).destAddr →
    BitVec.slt (s.rt p).destSeqno (rreqOf pkt.buf).origSeqno = true →
    Later (s.rt p).destSeqno (rreqOf pkt.buf).origSeqno ∧
      (¬ (Holds s (rreqOf pkt.buf) pkt.src ∧
        ((rreqOf pkt.buf).g = true → HoldsBack s (rreqOf pkt.buf) pkt.src)) →
          NotOlder (s.rt p).destSeqno (seqnoIncr (rreqOf pkt.buf).origSeqno))
  rerr : pkt.buf 0 = aodvRerr → rerrCalcSize (pkt.buf 3) ≤ pkt.len →
    ∀ r, noted s pkt.src (s.rt p).destAddr = some r → r.state = .valid → r.nextHop = pkt.src →
    ∀ l₁ n l₂, listed pkt.buf = l₁ ++ ((s.rt p).destAddr, n) :: l₂ →
      ((pkt.buf 1).getLsbD 0 = false →
        ∀ u ∈ l₁, u.1 = (s.rt p).destAddr → BitVec.slt u.2 (s.rt p).destSeqno = true) →
      BitVec.slt n (s.rt p).destSeqno = false → Later (s.rt p).destSeqno n

def Orderly (e : Env) (s : Daemon) (p : Ptr) : Event → Prop
  | .recv pkt => received s.host.ipaddr pkt = true → Rises e s pkt p
  | _ => True

section Events

variable {e : Env} {s : Daemon} {p : Ptr} {pkt : Packet}

theorem heard_entry (e : Env) (hs : WellFormed s) (hp : Linked s.rtTbl p) (src : Addr) :
    Linked (neighborAdd e s src).rtTbl p ∧
      ((neighborAdd e s src).rt p).destAddr = (s.rt p).destAddr ∧
      ((neighborAdd e s src).rt p).destSeqno = (s.rt p).destSeqno ∧
      (HelloTakes e ((neighborAdd e s src).rt p) → HelloTakes e (s.rt p)) ∧
      ∃ r, noted s src (s.rt p).destAddr = some r ∧ SameLink r ((neighborAdd e s src).rt p) := by
  have hnotes := notes_neighborAdd e hs src
  obtain ⟨hl, hd⟩ := hnotes.kept p hp
  obtain ⟨r, hr, hsame⟩ := hnotes.entry p hl
  rw [hd] at hr
  have hentry : entryOf s (s.rt p).destAddr = some p := (entryOf_eq_some hs).2 ⟨hp, rfl⟩
  have hcase : (r = s.rt p ∨ (s.rt p).flags.unidir = false ∧
      r = { s.rt p with state := .valid, nextHop := src, hopcnt := 1 }) := by
    rw [noted, hentry] at hr
    dsimp only at hr
    split at hr
    next h =>
      cases hr
      exact .inr ⟨h.2, rfl⟩
    · cases hr
      exact .inl rfl
  refine ⟨hl, hd, ?_, ?_, r, hr, hsame⟩
  · rw [hsame.destSeqno]
    rcases hcase with rfl | ⟨-, rfl⟩ <;> rfl
  · rw [HelloTakes, HelloTakes, hsame.unidir, hsame.state, hsame.hopcnt, hsame.helloCnt]
    rcases hcase with rfl | ⟨hu, rfl⟩
    · exact id
    · rintro ⟨-, hcount⟩
      refine ⟨fun h => ?_, hcount⟩
      rw [hu] at h
      cases h.1

theorem accepts_heard (hs : WellFormed s) (hne : pkt.src ≠ s.host.ipaddr) :
    Accepts (neighborAdd e s pkt.src) pkt → Accepts s pkt := by
  have hsound := coarses_sound (coarses_neighborAdd (e := e) (s := s) (rfl : Event.recv pkt = _) hne) hs
  have hbooks := Frames.Books.neighborAdd e s pkt.src
  rintro ⟨ht, hforeign, hlen, hblack, hnew⟩
  rw [hsound.ipaddr] at hforeign
  rw [rreqBlacklistCheck, hbooks.blacklists] at hblack
  rw [rreqRecordCheck, hbooks.records] at hnew
  exact ⟨ht, hforeign, hlen, hblack, hnew⟩

theorem package_later (hs : WellFormed s) (hp : Linked s.rtTbl p) (hx : (s.rt p).destSeqno ≠ 0)
    {ttl : U8} (httl : pkt.ttl = some ttl) (hne : pkt.src ≠ s.host.ipaddr) (h : Rises e s pkt p)
    (hp' : Linked (step e s (.recv pkt)).rtTbl p) :
    Later (s.rt p).destSeqno ((step e s (.recv pkt)).rt p).destSeqno := by
  obtain ⟨hl, hd, hn, htakes, r, hr, hsame⟩ := heard_entry e hs hp pkt.src
  have hsound := coarses_sound (coarses_neighborAdd (e := e) (s := s) (rfl : Event.recv pkt = _) hne) hs
  have hw := hsound.wellFormed
  have hx' := hx
  rw [← hn] at hx' ⊢
  have hhello (buf : Buf) (hh : isHello pkt = true) (hbuf : rrepOf buf = rrepOf pkt.buf) :
      Later ((neighborAdd e s pkt.src).rt p).destSeqno
        ((helloProcess e (neighborAdd e s pkt.src) buf).rt p).destSeqno := by
    refine hello_later hw hl hx' buf fun hdest ht => ?_
    rw [hbuf, hd] at hdest
    rw [hn, hbuf]
    exact h.hello hh hdest (htakes ht)
  by_cases hrreq : pkt.buf 0 = aodvRreq
  · rw [Requests.step_rreq httl hne hrreq] at hp' ⊢
    by_cases hacc : Accepts (neighborAdd e s pkt.src) pkt
    · refine rreq_later hs hne ttl.toNat hacc hl hp' hx' rfl fun hdest hlt => ?_
      rw [hd] at hdest
      rw [hn] at hlt ⊢
      exact h.rreq (accepts_heard hs hne hacc) hdest hlt
    · rw [Duplicates.process_refused hrreq hacc]
      exact later_refl hx'
  by_cases hrrep : pkt.buf 0 = aodvRrep
  · rw [Requests.step_rrep httl hne hrrep]
    split
    next hh => exact hhello _ hh rfl
    next hh =>
      refine rrep_later hw hl hx' pkt.buf pkt.len pkt.src ttl.toNat fun hlen hown hdest hlt => ?_
      rw [hd] at hdest
      rw [hsound.ipaddr] at hown
      rw [hn] at hlt ⊢
      exact h.rrep hrrep (Bool.not_eq_true _ ▸ hh) hlen hown hdest hlt
  have hlabel : ¬ (pkt.buf 0 = aodvRrep ∧ (ttl.toNat : Int) = 1 ∧ pkt.dest = aodvBroadcast) :=
    fun hc => hrrep hc.1
  rw [Requests.step_recv httl hne, aodvSocketPackageProcess, if_neg hlabel, if_neg hrreq,
    if_neg hrrep]
  split
  next ht => exact hhello _ (decide_eq_true (.inl ht)) rfl
  · split
    next ht =>
      refine rerr_later pkt hx' fun hlen hv hhop => ?_
      rw [hd, hn]
      exact h.rerr ht hlen r hr (hsame.state.symm.trans hv) (hsame.nextHop.symm.trans hhop)
    · split
      · have hack : (rrepAckProcess (neighborAdd e s pkt.src) pkt.src).rt =
            (neighborAdd e s pkt.src).rt := by
          rw [rrepAckProcess]
          split <;> rfl
        rw [hack]
        exact later_refl hx'
      · exact later_refl hx'

end Events

theorem seqno_never_back {e : Env} {s : Daemon} (h : Reachable e s) (ev : Event) {p : Ptr}
    (hp : Linked s.rtTbl p) (hp' : Linked (step e s ev).rtTbl p) (hx : (s.rt p).destSeqno ≠ 0)
    (hc : Orderly e s p ev) :
    ((step e s ev).rt p).destSeqno ≠ 0 ∧
      NotOlder (s.rt p).destSeqno ((step e s ev).rt p).destSeqno := by
  have hrest := Reachable.resting h
  have hs := hrest.wellFormed
  obtain ⟨hmoves, -⟩ := step_moves (e := e) hrest ev
  cases ev with
  | recv pkt =>
      cases hr : received s.host.ipaddr pkt with
      | false =>
          rw [step_dropped e hs hr]
          exact later_refl hx
      | true =>
          obtain ⟨ttl, httl, hne⟩ : ∃ ttl, pkt.ttl = some ttl ∧ pkt.src ≠ s.host.ipaddr := by
            simpa [received, Option.isSome_iff_exists] using hr
          exact package_later hs hp hx httl hne (hc hr) hp'
  | kernel | age | fire =>
      exact (drifted_moves hmoves hs (by rintro pkt ⟨⟩) hp').later hx

def beacon (seqno : U32) : Packet :=
  .of (.rrep ⟨false, false, 0, 0, 0x0200000a, seqno, 0x0200000a, 2000⟩) 0x0200000a aodvBroadcast 1
    (fits_rrep _)

def afterBeacon : Daemon := step plain (init plain 0x0100000a 0xff00000a 2) (.recv (beacon 5))

theorem seqno_never_back_beacon :
    ((step plain afterBeacon (.recv (beacon 7))).rt 0).destSeqno ≠ 0 ∧
      NotOlder (afterBeacon.rt 0).destSeqno
        ((step plain afterBeacon (.recv (beacon 7))).rt 0).destSeqno := by
  have hkind : (beacon 7).buf 0 ≠ aodvRreq ∧ (beacon 7).buf 0 ≠ aodvRerr ∧
      isHello (beacon 7) = true := by decide +kernel
  have hlater : Later (afterBeacon.rt 0).destSeqno (rrepOf (beacon 7).buf).destSeqno := by
    have hread : (afterBeacon.rt 0).destSeqno = 5 ∧ (rrepOf (beacon 7).buf).destSeqno = 7 := by
      decide +kernel
    rw [hread.1, hread.2]
    exact ⟨by decide, by decide⟩
  refine seqno_never_back ⟨0x0100000a, 0xff00000a, 2, [.recv (beacon 5)], rfl⟩ (.recv (beacon 7))
    ((mem_entries _ 0).1 (by decide +kernel)) ((mem_entries _ 0).1 (by decide +kernel))
    (by decide +kernel) fun _ => ⟨fun _ _ _ => hlater, fun _ hno => ?_, fun hacc => ?_, fun ht => ?_⟩
  · rw [hkind.2.2] at hno
    cases hno
  · exact absurd hacc.type hkind.1
  · exact absurd ht hkind.2.1

/-- A HELLO of the same neighbour with an older number is believed. -/
theorem seqno_goes_back : ¬ ∀ s ev p, Reachable plain s → Linked s.rtTbl p →
    Linked (step plain s ev).rtTbl p → (s.rt p).destSeqno ≠ 0 →
    ((step plain s ev).rt p).destSeqno ≠ 0 ∧
      NotOlder (s.rt p).destSeqno ((step plain s ev).rt p).destSeqno := by
  intro hall
  have hback := hall afterBeacon (.recv (beacon 3)) 0
    ⟨0x0100000a, 0xff00000a, 2, [.recv (beacon 5)], rfl⟩
    ((mem_entries _ 0).1 (by decide +kernel)) ((mem_entries _ 0).1 (by decide +kernel))
    (by decide +kernel)
  have hsee : (afterBeacon.rt 0).destSeqno = 5 ∧
      ((step plain afterBeacon (.recv (beacon 3))).rt 0).destSeqno = 3 := by decide +kernel
  rw [hsee.1, hsee.2] at hback
  revert hback
  decide

end Aodv.StoredSeqno
