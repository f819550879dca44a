import Aodv.Precursors

namespace Aodv.Mesh

open Lib.Bytes Requests Relation

/-- The route over a neighbour of D is one of V, and only neighbours of D are told
when it breaks. -/
structure Met (D : Addr → Prop) (V : Addr → Addr → Prop) (r : RtEntry) : Prop where
  hop : D r.nextHop
  route : V r.nextHop r.destAddr
  told : ∀ a ∈ r.precursors, D a
  count : r.nprecursor = BitVec.ofNat 32 r.precursors.length

def AllMet (D : Addr → Prop) (V : Addr → Addr → Prop) (s : Daemon) : Prop :=
  ∀ p, Linked s.rtTbl p → Met D V (s.rt p)

structure Heard (D : Addr → Prop) (V : Addr → Addr → Prop) (pkt : Packet) : Prop where
  src : D pkt.src ∧ V pkt.src pkt.src
  rreq : pkt.buf 0 = aodvRreq → V pkt.src (rreqOf pkt.buf).origAddr
  rrep : pkt.buf 0 = aodvRrep → V pkt.src (rrepOf pkt.buf).destAddr
  hello : isHello pkt = true →
    D (rrepOf pkt.buf).destAddr ∧ V (rrepOf pkt.buf).destAddr (rrepOf pkt.buf).destAddr

def contact (r : RtEntry) : Addr × Addr × List Addr × U32 :=
  (r.destAddr, r.nextHop, r.precursors, r.nprecursor)

section Entries

variable {D : Addr → Prop} {V : Addr → Addr → Prop} {r r' : RtEntry}

theorem Met.congr (h : Met D V r) (hc : contact r' = contact r) : Met D V r' := by
  simp only [contact, Prod.mk.injEq] at hc
  obtain ⟨hdest, hnext, hlist, hcount⟩ := hc
  refine ⟨?_, ?_, ?_, ?_⟩
  · rw [hnext]
    exact h.hop
  · rw [hnext, hdest]
    exact h.route
  · rw [hlist]
    exact h.told
  · rw [hcount, hlist, h.count]

theorem Met.add (h : Met D V r) {a : Addr} (ha : D a) :
    Met D V { r with precursors := a :: r.precursors, nprecursor := r.nprecursor + 1 } where
  hop := h.hop
  route := h.route
  told := by
    intro b hb
    rcases List.mem_cons.1 hb with rfl | hb
    · exact ha
    · exact h.told b hb
  count := by
    change r.nprecursor + 1 = BitVec.ofNat 32 (r.precursors.length + 1)
    rw [h.count, BitVec.ofNat_add]
    rfl

theorem Met.emptied (h : Met D V r) (hdest : r'.destAddr = r.destAddr)
    (hnext : r'.nextHop = r.nextHop) (hlist : r'.precursors = [])
    (hcount : r'.nprecursor = r.nprecursor - BitVec.ofNat 32 r.precursors.length) : Met D V r' where
  hop := hnext ▸ h.hop
  route := by
    rw [hnext, hdest]
    exact h.route
  told := by
    rw [hlist]
    intro a ha
    cases ha
  count := by
    rw [hcount, hlist, h.count, BitVec.sub_self]
    rfl

theorem Met.first (h : Met D V r) (hone : r.nprecursor = 1) : D (firstPrec r) := by
  have hcount := h.count
  rw [firstPrec]
  cases hl : r.precursors with
  | nil =>
      rw [hone, hl] at hcount
      exact absurd hcount (by decide)
  | cons a l =>
      apply h.told
      rw [hl]
      exact List.mem_cons_self

theorem Heard.learned {own : Addr} {ev : Event} {old : U32} {src : Source} {dest next : Addr}
    {hops seqno lifetime : U32} (h : ∀ pkt, ev = .recv pkt → Heard D V pkt)
    (hl : Learned own ev old src dest next hops seqno lifetime) : D next ∧ V next dest := by
  cases hl with
  | neighbor hev => exact (h _ hev).src
  | rreq hev ht => exact ⟨(h _ hev).src.1, (h _ hev).rreq ht⟩
  | rrep hev ht => exact ⟨(h _ hev).src.1, (h _ hev).rrep ht⟩
  | hello hev ht => exact (h _ hev).hello ht

end Entries

namespace AllMet

variable {D D' : Addr → Prop} {V V' : Addr → Addr → Prop} {e : Env} {s s' : Daemon} {p q : Ptr}

theorem mono (h : AllMet D V s) (hD : ∀ a, D a → D' a) (hV : ∀ n d, V n d → V' n d) :
    AllMet D' V' s :=
  fun p hp => ⟨hD _ (h p hp).hop, hV _ _ (h p hp).route, fun a ha => hD a ((h p hp).told a ha),
    (h p hp).count⟩

theorem frame (h : AllMet D V s) (htbl : s'.rtTbl.tbl = s.rtTbl.tbl)
    (hc : ∀ q, contact (s'.rt q) = contact (s.rt q)) : AllMet D V s' := by
  intro q hq
  rw [Linked, htbl] at hq
  exact (h q hq).congr (hc q)

theorem same (h : AllMet D V s) (htbl : s'.rtTbl = s.rtTbl) : AllMet D V s' := by
  apply h.frame
  · rw [htbl]
  · intro q
    rw [Daemon.rt, htbl]
    rfl

theorem setRt {r : RtEntry} (h : AllMet D V s) (hc : contact r = contact (s.rt p)) :
    AllMet D V (s.setRt p r) := h.frame rfl (field_setRt contact s hc)

theorem apart (h : AllMet D V s) (hk : Kept s s') (hother : ∀ q, q ≠ p → s'.rt q = s.rt q)
    (hself : Met D V (s.rt p) → Met D V (s'.rt p)) : AllMet D V s' := by
  intro q hq
  have hold := h q ((hk.keys.linked q).1 hq)
  by_cases hqp : q = p
  · rw [hqp] at hold ⊢
    exact hself hold
  · rw [hother q hqp]
    exact hold

theorem down (h : AllMet D V s) (hp : Linked s.rtTbl p) (hv : (s.rt p).state = .valid) :
    AllMet D V (rtTableInvalidate e s p) := by
  apply h.apart (p := p) (kept_invalidate e hp)
  · exact fun q hq => rt_invalidate_ne e s hq
  · intro hm
    apply hm.congr
    simp only [Daemon.rt, rt_invalidate_valid e hv, Function.update_self]
    rfl

theorem destroy (h : AllMet D V s) (p : Ptr) : AllMet D V (precursorListDestroy s p) := by
  apply h.apart (p := p) (kept_precursorListDestroy s p)
  · exact fun q hq => rt_setRt_ne s _ hq
  · intro hm
    rw [precursorListDestroy, rt_setRt_self]
    exact hm.emptied rfl rfl rfl rfl

theorem lb (h : AllMet D V s) (hm : Lb e s s') : AllMet D V s' := by
  cases hm with
  | tock | rerrNew | rerrAdd | rerrSend => exact h.same rfl
  | down hp hv => exact h.down hp hv
  | @repair p hp hv =>
      have hmark : AllMet D V (markRepair s p) := h.setRt rfl
      refine hmark.down (((kept_markRepair s p).keys.linked p).2 hp) ?_
      rw [markRepair, rt_setRt_self]
      exact hv
  | @destroy p hp hi => exact h.destroy p

theorem lbs (h : AllMet D V s) (hm : ReflTransGen (Lb e) s s') : AllMet D V s' := by
  induction hm with
  | refl => exact h
  | tail _ hm ih => exact ih.lb hm

theorem precursor (h : AllMet D V s) (p : Ptr) (hq : Linked s.rtTbl q) :
    AllMet D V (precursorAdd s p (s.rt q).nextHop) := by
  have hk := kept_precursorAdd s p (s.rt q).nextHop
  have hhop := (h q hq).hop
  rw [precursorAdd] at hk ⊢
  split
  · exact h
  next hnew =>
    rw [if_neg hnew] at hk
    apply h.apart (p := p) hk
    · exact fun k hk => rt_setRt_ne s _ hk
    · intro hm
      rw [rt_setRt_self]
      exact hm.add hhop

theorem repairTimeout (h : AllMet D V s) (hp : Linked s.rtTbl p) :
    AllMet D V (localRepairTimeout e s p) := by
  apply h.apart (p := p) (kept_localRepairTimeout e hp)
  · intro q hq
    rw [rt_repairTimeout, if_neg hq]
  · intro hm
    rw [rt_repairTimeout, if_pos rfl]
    exact hm.emptied rfl rfl rfl rfl

theorem delete (h : AllMet D V s) (p : Ptr) : AllMet D V (rtTableDelete e s p) := by
  intro q hq
  obtain ⟨hold, hne⟩ := (linked_delete e s p q).1 hq
  rw [rt_delete e s hne]
  exact h q hold

theorem helloFire (h : AllMet D V s) (hp : Linked s.rtTbl p) :
    AllMet D V (helloTimeout e (pop s (.helloTimer p)) p) := by
  have htock : AllMet D V (pop s (.helloTimer p)).tock := h.same rfl
  rw [helloTimeout]
  dsimp only
  split
  · split
    · have hmark : AllMet D V (markRepair (pop s (.helloTimer p)).tock p) := htock.setRt rfl
      exact hmark.lbs (lb_linkBreak e hp)
    · exact htock.lbs (lb_linkBreak e hp)
  · exact htock

theorem quiet {ev : Event} (h : AllMet D V s) (hs : WellFormed s) (hm : Quiet e ev s s') :
    AllMet D V s' := by
  cases hm with
  | lb hm => exact h.lb hm
  | @updateTimeout p lifetime hl hp =>
      obtain ⟨_, _, heq⟩ := updateTimeout_eq e s p lifetime
      rw [heq]
      exact h.same rfl
  | @precursor p q hp hq => exact h.precursor p hq.linked
  | @helloArm p now time =>
      have harm : AllMet D V { s with
          timers := timerSetTimeout e.arch (e.clock s.tick) s.timers (.helloTimer p) (time + helloDelay)
          tick := s.tick + 1 } := h.same rfl
      exact harm.setRt rfl
  | helloCount | unidir => exact h.setRt rfl
  | dropHello | dropAck | armAck | expireIdle | armLog | armWorb | rrepWrite | dropRecord
  | dropBlacklist | unidirBreak | answer | rrepSend | rrepAck | relay => exact h.same rfl
  | @rerrSeqno p pkt udest =>
      have hobs : AllMet D V (s.observe (.rerrSeqno p (s.rt p) udest.2)) := h.same rfl
      exact hobs.setRt rfl
  | repairTimeout hp hr => exact h.repairTimeout hp
  | @delete p => exact h.delete p
  | helloFire hp => exact h.helloFire (hs.owned _ hp)
  | blacklist dest =>
      rw [rreqBlacklistInsert]
      split <;> exact h.same rfl

theorem insert {dest next : Addr} (h : AllMet D V s) (hs : WellFormed s)
    (hnew : D next ∧ V next dest)
    (hops seqno lifetime : U32) (state : RtState) (flags : RtFlags) :
    AllMet D V (rtTableInsert e s dest next hops seqno lifetime state flags).1 := by
  obtain hi | ⟨_, hi⟩ := rtTableInsert_cases e s dest next hops seqno lifetime state flags
  · rw [hi]
    exact h
  · rw [hi]
    let s₀ := s.observe (.rtInsert dest next hops seqno lifetime state flags)
    intro q hq
    rw [rt_insertEntry]
    rcases (linked_insertEntry e s₀ (newEntry dest next hops seqno state flags) hops
      lifetime q).1 hq with rfl | hold
    · rw [rt_linkEntry_self]
      exact ⟨hnew.1, hnew.2, fun a ha => absurd ha List.not_mem_nil, rfl⟩
    · have hne : q ≠ s₀.brk := by
        rintro rfl
        exact hs.brk_not_linked hold
      rw [rt_linkEntry_ne s₀ _ hne]
      exact h q hold

theorem demote (h : AllMet D V s) (hops : U32) (hp : Linked s.rtTbl p) :
    AllMet D V (updateBreak e s p hops) := by
  rw [updateBreak]
  dsimp only
  split
  · have hclear : AllMet D V (s.setRt p { s.rt p with lastHelloTime := ⟨0, 0⟩, helloCnt := 0 }) :=
      h.setRt rfl
    have hpop : AllMet D V (pop (s.setRt p { s.rt p with lastHelloTime := ⟨0, 0⟩, helloCnt := 0 })
        (.helloTimer p)) := hclear.same rfl
    exact hpop.lbs (lb_linkBreak e hp)
  · exact h

theorem start (h : AllMet D V s) (p : Ptr) (next : Addr) (hops lifetime : U32) (state : RtState)
    (flags : RtFlags) : AllMet D V (updateBegin e s p next hops lifetime state flags).1 := by
  apply h.frame (kept_updateBegin e s p next hops lifetime state flags).keys.tbl
  intro q
  rw [(updateBegin_frame e s p next hops lifetime state flags).1]

theorem finish {next : Addr} (h : AllMet D V s) (hp : Linked s.rtTbl p)
    (hnext : D next ∧ V next (s.rt p).destAddr) (hops seqno lifetime : U32) (state : RtState)
    (flags : RtFlags) :
    AllMet D V (updateFinish e s p next hops seqno lifetime state flags) := by
  intro q hq
  rw [Linked, (kept_finish e hp next hops seqno lifetime state flags).2] at hq
  have hold := h q hq
  rw [rt_updateFinish]
  split
  next hqp =>
    rw [hqp] at hold
    exact ⟨hnext.1, hnext.2, hold.told, hold.count⟩
  · exact hold

theorem update {next : Addr} (h : AllMet D V s) (hp : Linked s.rtTbl p)
    (hnext : D next ∧ V next (s.rt p).destAddr) (hops seqno lifetime : U32) (state : RtState)
    (flags : RtFlags) :
    AllMet D V (rtTableUpdate e s p next hops seqno lifetime state flags) := by
  let s₀ := s.observe (.rtUpdate p (s.rt p) next hops seqno lifetime state flags)
  have hobs : AllMet D V s₀ := h.same rfl
  have hbegin := (Kept.observe s (.rtUpdate p (s.rt p) next hops seqno lifetime state flags)).trans
    (kept_updateBegin e s₀ p next hops lifetime state flags)
  have hp₁ := (hbegin.keys.linked p).2 hp
  have hbreak := hbegin.trans (kept_updateBreak e hops hp₁)
  rw [rtTableUpdate]
  dsimp only
  apply ((hobs.start p next hops lifetime state flags).demote hops hp₁).finish
  · exact (hbreak.keys.linked p).2 hp
  · rw [Daemon.rt, hbreak.keys.destAddr]
    exact hnext

theorem fine {ev : Event} (h : AllMet D V s) (hs : WellFormed s)
    (hev : ∀ pkt, ev = .recv pkt → Heard D V pkt) (hm : Fine e ev s s') : AllMet D V s' := by
  cases hm with
  | quiet hm => exact h.quiet hs hm
  | insert lifetime state hl => exact h.insert hs (Heard.learned hev hl) _ _ _ _ _
  | update lifetime hp hl => exact h.update hp (Heard.learned hev hl) _ _ _ _ _
  | record h' ht hnew =>
      rw [rreqRecordInsert]
      split <;> exact h.same rfl
  | rreqSend dest seqno ttl flags =>
      rw [Aodv.rreqSend]
      split <;> exact h.same rfl
  | forUs | discovery | seekCount | repairStart | seekNew | seekRing | seekFail => exact h.same rfl

theorem coarses {ev : Event} (h : AllMet D V s) (hs : WellFormed s)
    (hev : ∀ pkt, ev = .recv pkt → Heard D V pkt) (hm : ReflTransGen (Coarse e ev) s s') :
    AllMet D V s' := by
  have hfines : ReflTransGen (Fine e ev) s s' := by
    induction hm with
    | refl => exact .refl
    | tail hrun hm ih => exact ih.trans (coarse_fines hm (coarses_sound hrun hs).wellFormed)
  clear hm
  induction hfines with
  | refl => exact h
  | tail hrun hm ih => exact ih.fine (fines_sound hrun hs).wellFormed hev hm

theorem quiets {ev : Event} (h : AllMet D V s) (hs : WellFormed s)
    (hm : ReflTransGen (Quiet e ev) s s') : AllMet D V s' := by
  induction hm with
  | refl => exact h
  | tail hrun hm ih => exact ih.quiet (quiets_sound hrun hs).wellFormed hm

end AllMet

variable {D : Addr → Prop} {V : Addr → Addr → Prop} {e : Env} {s : Daemon}

theorem met_step (h : AllMet D V s) (hs : Resting s) {ev : Event}
    (hev : ∀ pkt, ev = .recv pkt → received s.host.ipaddr pkt = true → Heard D V pkt) :
    AllMet D V (step e s ev) := by
  have hrun (heard : ∀ pkt, ev = .recv pkt → Heard D V pkt) : AllMet D V (step e s ev) := by
    obtain ⟨s₁, hfrom, hrun, -⟩ := coarses_step (e := e) hs.wellFormed hs.batch ev
    rcases hfrom with rfl | ⟨now, rfl⟩
    · exact h.coarses hs.wellFormed heard hrun
    · have htake : AllMet D V (takeDue e.arch now s) := h.same rfl
      exact htake.coarses (idle_takeDue _ now hs.wellFormed hs.batch).wellFormed heard hrun
  cases ev with
  | recv pkt =>
      cases hr : received s.host.ipaddr pkt with
      | false =>
          rw [step_dropped e hs.wellFormed hr]
          exact h
      | true =>
          apply hrun
          rintro _ ⟨⟩
          exact hev pkt rfl hr
  | kernel | age | fire =>
      apply hrun
      rintro _ ⟨⟩

theorem met_init (e : Env) (ipaddr broadcast : Addr) (ifindex : Int) :
    AllMet D V (init e ipaddr broadcast ifindex) := by
  rintro p ⟨i, hp⟩
  exact absurd hp List.not_mem_nil

end Aodv.Mesh
