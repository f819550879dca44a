import Aodv.Circular
import Aodv.Lib.Sequences

namespace Aodv.Precursors

open Lib.Bytes Lib.Sequences Requests
open Relation

/-- The counter is that of the list, the list names nobody twice and not the
daemon itself, and a route over the daemon itself leads to nobody else. -/
structure Tidy (own : Addr) (r : RtEntry) : Prop where
  count : r.nprecursor = BitVec.ofNat 32 r.precursors.length
  nodup : r.precursors.Nodup
  others : own ∉ r.precursors
  hop : r.nextHop = own → r.destAddr = own

theorem Tidy.counts {own : Addr} {r : RtEntry} (h : Tidy own r) :
    r.nprecursor.toNat = r.precursors.length := by
  have hlt := length_lt_of_nodup h.nodup h.others
  rw [h.count, BitVec.toNat_ofNat, Nat.mod_eq_of_lt hlt]

theorem tidy_new {own dest next : Addr} (h : next = own → dest = own) (hops seqno : U32)
    (state : RtState) (flags : RtFlags) :
    Tidy own (newEntry dest next hops seqno state flags) where
  count := rfl
  nodup := List.nodup_nil
  others := List.not_mem_nil
  hop := h

def bearing (r : RtEntry) : List Addr × U32 × Addr × Addr × RtState :=
  (r.precursors, r.nprecursor, r.nextHop, r.destAddr, r.state)

theorem Tidy.congr {own : Addr} {r r' : RtEntry} (h : Tidy own r)
    (hl : (r'.precursors, r'.nprecursor, r'.nextHop, r'.destAddr) =
      (r.precursors, r.nprecursor, r.nextHop, r.destAddr)) : Tidy own r' := by
  simp only [Prod.mk.injEq] at hl
  obtain ⟨hlist, hcount, hnext, hdest⟩ := hl
  refine ⟨?_, ?_, ?_, ?_⟩
  · rw [hcount, hlist, h.count]
  · rw [hlist]
    exact h.nodup
  · rw [hlist]
    exact h.others
  · rw [hnext, hdest]
    exact h.hop

theorem Tidy.add {own addr : Addr} {r : RtEntry} (h : Tidy own r) (hne : addr ≠ own)
    (hnew : addr ∉ r.precursors) :
    Tidy own { r with precursors := addr :: r.precursors, nprecursor := r.nprecursor + 1 } where
  count := by
    change r.nprecursor + 1 = BitVec.ofNat 32 (r.precursors.length + 1)
    rw [h.count, BitVec.ofNat_add]
    rfl
  nodup := List.nodup_cons.2 ⟨hnew, h.nodup⟩
  others := by
    intro hmem
    rcases List.mem_cons.1 hmem with rfl | hmem
    · exact hne rfl
    · exact h.others hmem
  hop := h.hop

theorem Tidy.emptied {own : Addr} {r r' : RtEntry} (h : Tidy own r) (hlist : r'.precursors = [])
    (hcount : r'.nprecursor = r.nprecursor - BitVec.ofNat 32 r.precursors.length)
    (hnext : r'.nextHop = r.nextHop) (hdest : r'.destAddr = r.destAddr) : Tidy own r' where
  count := by
    rw [hcount, hlist, h.count, BitVec.sub_self]
    rfl
  nodup := hlist ▸ List.nodup_nil
  others := hlist ▸ List.not_mem_nil
  hop := by
    rw [hnext, hdest]
    exact h.hop

/-- Entry p has gone from VALID to INVALID between the two states. -/
def Down (p : Ptr) (s s' : Daemon) : Prop := ∃ old, .rtInvalidate p old ∈ since s s'

theorem mem_since {s s' s'' : Daemon} (h : s.trace <:+ s'.trace) (h' : s'.trace <:+ s''.trace)
    {o : Obs} : o ∈ since s s'' ↔ o ∈ since s s' ∨ o ∈ since s' s'' := by
  obtain ⟨l, hl⟩ := h
  obtain ⟨l', hl'⟩ := h'
  have hall : s''.trace = (l' ++ l) ++ s.trace := by
    rw [List.append_assoc, hl, hl']
  rw [since_eq hall, since_eq hl.symm, since_eq hl'.symm, List.mem_append, Or.comm]

theorem down_of_suffix {p : Ptr} {old : RtEntry} {s s' : Daemon}
    (h : (.rtInvalidate p old :: s.trace) <:+ s'.trace) : Down p s s' := by
  obtain ⟨l, hl⟩ := h
  have hall : s'.trace = (l ++ [.rtInvalidate p old]) ++ s.trace := by
    rw [← hl, List.append_assoc]
    rfl
  refine ⟨old, ?_⟩
  rw [since_eq hall]
  exact List.mem_append_right l (List.mem_singleton_self _)

def AllTidy (s : Daemon) : Prop := ∀ p, Linked s.rtTbl p → Tidy s.host.ipaddr (s.rt p)

structure Bears (s s' : Daemon) : Prop where
  suffix : s.trace <:+ s'.trace
  tidy : AllTidy s → AllTidy s'
  keep : ∀ p, Linked s.rtTbl p → (s.rt p).state = .valid → ¬ Down p s s' →
    Linked s'.rtTbl p ∧ (s'.rt p).state = .valid ∧ (s.rt p).precursors ⊆ (s'.rt p).precursors

namespace Bears

variable {e : Env} {s s' s'' : Daemon} {p : Ptr}

theorem refl (s : Daemon) : Bears s s :=
  ⟨List.suffix_refl _, id, fun _ hp hv _ => ⟨hp, hv, List.Subset.refl _⟩⟩

theorem trans (h : Bears s s') (h' : Bears s' s'') : Bears s s'' := by
  refine ⟨h.suffix.trans h'.suffix, fun ht => h'.tidy (h.tidy ht), fun p hp hv hd => ?_⟩
  have hfirst : ¬ Down p s s' := fun ⟨old, ho⟩ =>
    hd ⟨old, (mem_since h.suffix h'.suffix).2 (.inl ho)⟩
  have hsecond : ¬ Down p s' s'' := fun ⟨old, ho⟩ =>
    hd ⟨old, (mem_since h.suffix h'.suffix).2 (.inr ho)⟩
  obtain ⟨hp', hv', hl⟩ := h.keep p hp hv hfirst
  obtain ⟨hp'', hv'', hl'⟩ := h'.keep p hp' hv' hsecond
  exact ⟨hp'', hv'', List.Subset.trans hl hl'⟩

theorem frame (hsuf : s.trace <:+ s'.trace) (htbl : s'.rtTbl.tbl = s.rtTbl.tbl)
    (hip : s'.host.ipaddr = s.host.ipaddr) (h : ∀ q, bearing (s'.rt q) = bearing (s.rt q)) :
    Bears s s' := by
  have hlinked (q : Ptr) : Linked s'.rtTbl q ↔ Linked s.rtTbl q := by rw [Linked, Linked, htbl]
  refine ⟨hsuf, fun ht q hq => ?_, fun q hq hv _ => ⟨(hlinked q).2 hq, ?_, ?_⟩⟩
  · rw [hip]
    apply (ht q ((hlinked q).1 hq)).congr
    have hb := h q
    simp only [bearing, Prod.mk.injEq] at hb ⊢
    exact ⟨hb.1, hb.2.1, hb.2.2.1, hb.2.2.2.1⟩
  · exact (congrArg (fun b => b.2.2.2.2) (h q)).trans hv
  · have hl : (s'.rt q).precursors = (s.rt q).precursors := congrArg Prod.fst (h q)
    rw [hl]
    exact List.Subset.refl _

theorem same (htbl : s'.rtTbl = s.rtTbl) (hip : s'.host.ipaddr = s.host.ipaddr)
    (hsuf : s.trace <:+ s'.trace) : Bears s s' :=
  frame hsuf (by rw [htbl]) hip fun q => by rw [Daemon.rt, Daemon.rt, htbl]

theorem setRt {r : RtEntry} (h : bearing r = bearing (s.rt p)) : Bears s (s.setRt p r) :=
  frame (List.suffix_refl _) rfl rfl (field_setRt bearing s h)

theorem apart (hk : Kept s s') (hsuf : s.trace <:+ s'.trace) (h : ∀ q, q ≠ p → s'.rt q = s.rt q)
    (ht : Tidy s.host.ipaddr (s.rt p) → Tidy s.host.ipaddr (s'.rt p))
    (hd : (s.rt p).state = .valid → Down p s s') : Bears s s' := by
  refine ⟨hsuf, fun htidy q hq => ?_, fun q hq hv hno => ?_⟩
  · have hold := htidy q ((hk.keys.linked q).1 hq)
    rw [hk.ipaddr]
    by_cases hqp : q = p
    · rw [hqp] at hold ⊢
      exact ht hold
    · rw [h q hqp]
      exact hold
  · have hqp : q ≠ p := by
      rintro rfl
      exact hno (hd hv)
    rw [h q hqp]
    exact ⟨(hk.keys.linked q).2 hq, hv, List.Subset.refl _⟩

theorem down (hp : Linked s.rtTbl p) (hv : (s.rt p).state = .valid) :
    Bears s (rtTableInvalidate e s p) := by
  have hrt : (rtTableInvalidate e s p).rt p = { s.rt p with
      state := .invalid, helloCnt := 0, destSeqno := seqnoIncr (s.rt p).destSeqno,
      lastHelloTime := ⟨0, 0⟩ } := by
    simp only [Daemon.rt, rt_invalidate_valid e hv, Function.update_self]
  have hsaid := (trace_invalidate e hv).suffix
  apply apart (kept_invalidate e hp)
  · exact (List.suffix_cons _ _).trans hsaid
  · exact fun q hq => rt_invalidate_ne e s hq
  · intro ht
    rw [hrt]
    exact ht.congr rfl
  · exact fun _ => down_of_suffix hsaid

theorem destroy (hi : (s.rt p).state = .invalid) :
    Bears s (precursorListDestroy s p) := by
  apply apart (p := p) (kept_precursorListDestroy s p) (List.suffix_refl _)
  · exact fun q hq => rt_setRt_ne s _ hq
  · intro ht
    rw [precursorListDestroy, rt_setRt_self]
    exact ht.emptied rfl rfl rfl rfl
  · intro hv
    cases hi.symm.trans hv

theorem lb (h : Lb e s s') : Bears s s' := by
  cases h with
  | tock => exact same rfl rfl (List.suffix_refl _)
  | down hp hv => exact down hp hv
  | @repair p hp hv =>
      have hmark : Bears s (markRepair s p) := setRt rfl
      have hv' : ((markRepair s p).rt p).state = .valid := by
        rw [markRepair, rt_setRt_self]
        exact hv
      exact hmark.trans (down (((kept_markRepair s p).keys.linked p).2 hp) hv')
  | destroy hp hi => exact destroy hi
  | rerrNew | rerrAdd => exact same rfl rfl (List.suffix_refl _)
  | rerrSend => exact same rfl rfl (List.suffix_cons _ _)

theorem lbs (h : ReflTransGen (Lb e) s s') : Bears s s' := by
  induction h with
  | refl => exact refl _
  | tail _ h ih => exact ih.trans (lb h)

theorem precursor {r : Ptr} (hr : Foreign s r) :
    Bears s (precursorAdd s p (s.rt r).nextHop) := by
  have hk := kept_precursorAdd s p (s.rt r).nextHop
  rw [precursorAdd] at hk ⊢
  split
  · exact refl s
  next hnew =>
    rw [if_neg hnew] at hk
    refine ⟨List.suffix_refl _, fun ht q hq => ?_, fun q hq hv _ => ⟨hq, ?_⟩⟩
    · have hold := ht q hq
      have hne : (s.rt r).nextHop ≠ s.host.ipaddr := fun h => hr.dest ((ht r hr.linked).hop h)
      by_cases hqp : q = p
      · rw [hqp] at hold ⊢
        rw [rt_setRt_self]
        exact hold.add hne hnew
      · rw [rt_setRt_ne s _ hqp]
        exact hold
    · by_cases hqp : q = p
      · rw [hqp] at hv ⊢
        rw [rt_setRt_self]
        exact ⟨hv, List.subset_cons_self _ _⟩
      · rw [rt_setRt_ne s _ hqp]
        exact ⟨hv, List.Subset.refl _⟩

theorem repairTimeout (ho : Ordered s) (hp : Linked s.rtTbl p)
    (hr : (s.rt p).flags.repair = true ∨
      (callee s.timers (.rtTimer p)).1 = some .localRepairTimeout) :
    Bears s (localRepairTimeout e s p) := by
  have hi : (s.rt p).state = .invalid := by
    apply ho.invalid hp
    apply hr.imp id
    intro h
    rw [h]
    decide
  apply apart (p := p) (kept_localRepairTimeout e hp) (repairTimeout_said e s p).suffix
  · intro q hq
    rw [rt_repairTimeout, if_neg hq]
  · intro ht
    rw [rt_repairTimeout, if_pos rfl]
    exact ht.emptied rfl rfl rfl rfl
  · intro hv
    cases hi.symm.trans hv

theorem delete (ho : Ordered s) (hs : WellFormed s) (hp : Linked s.rtTbl p)
    (hh : (callee s.timers (.rtTimer p)).1 = some .routeDeleteTimeout) :
    Bears s (rtTableDelete e s p) := by
  have hi : (s.rt p).state = .invalid := by
    apply ho.invalid hp
    right
    rw [hh]
    decide
  refine ⟨(delete_said e s p).suffix, fun ht q hq => ?_, fun q hq hv _ => ?_⟩
  · obtain ⟨hold, hne⟩ := (linked_delete e s p q).1 hq
    rw [rt_delete e s hne, (delete_sound e hs hp).ipaddr]
    exact ht q hold
  · have hne : q ≠ p := by
      rintro rfl
      cases hi.symm.trans hv
    rw [rt_delete e s hne]
    exact ⟨(linked_delete e s p q).2 ⟨hq, hne⟩, hv, List.Subset.refl _⟩

theorem helloFire (hs : WellFormed s) (hp : Pending s.timers (.helloTimer p)) :
    Bears s (helloTimeout e (pop s (.helloTimer p)) p) := by
  have hl : Linked s.rtTbl p := hs.owned _ hp
  have htock : Bears s (pop s (.helloTimer p)).tock := same rfl rfl (List.suffix_refl _)
  rw [helloTimeout]
  dsimp only
  split
  · split
    · have hmark : Bears (pop s (.helloTimer p)).tock (markRepair (pop s (.helloTimer p)).tock p) :=
        setRt rfl
      exact (htock.trans hmark).trans (lbs (lb_linkBreak e hl))
    · exact htock.trans (lbs (lb_linkBreak e hl))
  · exact htock

theorem quiet {ev : Event} (h : Quiet e ev s s') (hs : WellFormed s) (ho : Ordered s) :
    Bears s s' := by
  cases h with
  | lb h => exact lb h
  | @updateTimeout p lifetime hl hp =>
      obtain ⟨_, _, heq⟩ := updateTimeout_eq e s p lifetime
      rw [heq]
      exact same rfl rfl (List.suffix_refl _)
  | precursor hp hr => exact precursor hr
  | @helloArm p now time hp hh =>
      have harm : Bears s { s with
          timers := timerSetTimeout e.arch (e.clock s.tick) s.timers (.helloTimer p) (time + helloDelay)
          tick := s.tick + 1 } := same rfl rfl (List.suffix_refl _)
      exact harm.trans (setRt rfl)
  | helloCount | unidir => exact setRt rfl
  | dropHello | dropAck | armAck | expireIdle | armLog | armWorb | rrepWrite | dropRecord
  | dropBlacklist => exact same rfl rfl (List.suffix_refl _)
  | unidirBreak | answer | rrepSend | rrepAck | relay => exact same rfl rfl (List.suffix_cons _ _)
  | @rerrSeqno p pkt udest hp h ht hlen hu =>
      have hobs : Bears s (s.observe (.rerrSeqno p (s.rt p) udest.2)) :=
        same rfl rfl (List.suffix_cons _ _)
      exact hobs.trans (setRt rfl)
  | repairTimeout hp hr => exact repairTimeout ho hp hr
  | delete hp hh => exact delete ho hs hp hh
  | helloFire hp => exact helloFire hs hp
  | blacklist dest =>
      rw [rreqBlacklistInsert]
      split <;> exact same rfl rfl (List.suffix_refl _)

theorem learned_hop {ev : Event} {own : Addr} {old : U32} {src : Source} {dest next : Addr}
    {hops seqno lifetime : U32} (h : Learned own ev old src dest next hops seqno lifetime)
    (hev : ∀ pkt, ev = .recv pkt → pkt.src ≠ own) : next = own → dest = own := by
  intro hown
  cases h with
  | neighbor h => exact absurd hown (hev _ h)
  | rreq h => exact absurd hown (hev _ h)
  | rrep h => exact absurd hown (hev _ h)
  | hello => exact hown

theorem insert {dest next : Addr} (hs : WellFormed s)
    (hhop : next = s.host.ipaddr → dest = s.host.ipaddr) (hops seqno lifetime : U32)
    (state : RtState) : Bears s (rtTableInsert e s dest next hops seqno lifetime state .zero).1 := by
  have hip := (insert_sound e hs dest next hops seqno lifetime state .zero).ipaddr
  have hsuf := (insert_said (l := []) e s dest next hops seqno lifetime state .zero).suffix
  obtain hi | ⟨_, hi⟩ := rtTableInsert_cases e s dest next hops seqno lifetime state .zero
  · rw [hi]
    exact refl s
  · rw [hi] at hip hsuf ⊢
    let s₀ := s.observe (.rtInsert dest next hops seqno lifetime state .zero)
    have hlinked := linked_insertEntry e s₀ (newEntry dest next hops seqno state .zero) hops lifetime
    have hrt := rt_insertEntry e s₀ (newEntry dest next hops seqno state .zero) hops lifetime
    have hne {q : Ptr} (hq : Linked s.rtTbl q) : q ≠ s₀.brk := by
      rintro rfl
      exact hs.brk_not_linked hq
    refine ⟨hsuf, fun ht q hq => ?_, fun q hq hv _ => ?_⟩
    · rw [hip, hrt]
      rcases (hlinked q).1 hq with rfl | hold
      · rw [rt_linkEntry_self]
        exact tidy_new hhop hops seqno state .zero
      · rw [rt_linkEntry_ne s₀ _ (hne hold)]
        exact ht q hold
    · rw [hrt, rt_linkEntry_ne s₀ _ (hne hq)]
      exact ⟨(hlinked q).2 (.inr hq), hv, List.Subset.refl _⟩

theorem demote (hops : U32) (hp : Linked s.rtTbl p) : Bears s (updateBreak e s p hops) := by
  rw [updateBreak]
  dsimp only
  split
  · have hclear : Bears s (s.setRt p { s.rt p with lastHelloTime := ⟨0, 0⟩, helloCnt := 0 }) :=
      setRt rfl
    have hpop : Bears s (pop (s.setRt p { s.rt p with lastHelloTime := ⟨0, 0⟩, helloCnt := 0 })
        (.helloTimer p)) := hclear.trans (same rfl rfl (List.suffix_refl _))
    exact hpop.trans (lbs (lb_linkBreak e hp))
  · exact refl s

theorem start (next : Addr) (hops lifetime seqno : U32) (state : RtState) (flags : RtFlags) :
    Bears s (updateBegin e (s.observe (.rtUpdate p (s.rt p) next hops seqno lifetime state flags)) p
      next hops lifetime state flags).1 := by
  let s₀ := s.observe (.rtUpdate p (s.rt p) next hops seqno lifetime state flags)
  have hobs : Bears s s₀ := same rfl rfl (List.suffix_cons _ _)
  have hkept := kept_updateBegin e s₀ p next hops lifetime state flags
  apply hobs.trans
  apply frame (updateBegin_said e s₀ p next hops lifetime state flags).suffix hkept.keys.tbl
    hkept.ipaddr
  intro q
  rw [(updateBegin_frame e s₀ p next hops lifetime state flags).1]

theorem finish {next : Addr} (hp : Linked s.rtTbl p)
    (hhop : next = s.host.ipaddr → (s.rt p).destAddr = s.host.ipaddr) (hops seqno lifetime : U32)
    (flags : RtFlags) : Bears s (updateFinish e s p next hops seqno lifetime .valid flags) := by
  have hlinked (q : Ptr) :
      Linked (updateFinish e s p next hops seqno lifetime .valid flags).rtTbl q ↔ Linked s.rtTbl q := by
    rw [Linked, Linked, (kept_finish e hp next hops seqno lifetime .valid flags).2]
  have hip : (updateFinish e s p next hops seqno lifetime .valid flags).host.ipaddr =
      s.host.ipaddr := by
    obtain ⟨s₁, hs₁, heq⟩ := updateFinish_eq e (s := s) (p := p) next hops seqno lifetime .valid flags
    have hwrite := kept_writeUpdate s p next hops seqno flags
    rw [heq, seqno_routeFound]
    rcases hs₁ with rfl | rfl
    · exact hwrite.ipaddr
    · exact (kept_updateTimeout e lifetime ((hwrite.keys.linked p).2 hp)).ipaddr
  have hrt := rt_updateFinish e s p
  refine ⟨?_, fun ht q hq => ?_, fun q hq hv _ => ⟨(hlinked q).2 hq, ?_⟩⟩
  · rw [updateFinish_trace]
  · have hold := ht q ((hlinked q).1 hq)
    rw [hip, hrt]
    split
    next hqp =>
      rw [hqp] at hold
      exact ⟨hold.count, hold.nodup, hold.others, hhop⟩
    · exact hold
  · rw [hrt]
    split
    next hqp =>
      rw [hqp]
      exact ⟨rfl, List.Subset.refl _⟩
    · exact ⟨hv, List.Subset.refl _⟩

theorem update {next : Addr} (hp : Linked s.rtTbl p)
    (hhop : next = s.host.ipaddr → (s.rt p).destAddr = s.host.ipaddr) (hops seqno lifetime : U32)
    (flags : RtFlags) : Bears s (rtTableUpdate e s p next hops seqno lifetime .valid flags) := by
  let s₀ := s.observe (.rtUpdate p (s.rt p) next hops seqno lifetime .valid flags)
  have hbegin := Kept.trans (Kept.observe s (.rtUpdate p (s.rt p) next hops seqno lifetime .valid
    flags)) (kept_updateBegin e s₀ p next hops lifetime .valid flags)
  have hp₁ := (hbegin.keys.linked p).2 hp
  have hbreak := hbegin.trans (kept_updateBreak e hops hp₁)
  rw [rtTableUpdate]
  dsimp only
  refine (start next hops lifetime seqno .valid flags).trans ((demote (e := e) hops hp₁).trans ?_)
  apply finish ((hbreak.keys.linked p).2 hp)
  rw [hbreak.ipaddr, Daemon.rt, hbreak.keys.destAddr]
  exact hhop

theorem fine {ev : Event} (h : Fine e ev s s') (hs : WellFormed s) (ho : Ordered s)
    (hev : ∀ pkt, ev = .recv pkt → pkt.src ≠ s.host.ipaddr) : Bears s s' := by
  cases h with
  | quiet h => exact quiet h hs ho
  | insert lifetime state hl => exact insert hs (learned_hop hl hev) _ _ _ _
  | update lifetime hp hl => exact update hp (learned_hop hl hev) _ _ _ _
  | record h ht hnew =>
      rw [rreqRecordInsert]
      split <;> exact same rfl rfl (List.suffix_cons _ _)
  | rreqSend dest seqno ttl flags hs =>
      rw [Aodv.rreqSend]
      split
      · exact same rfl rfl (List.suffix_cons _ _)
      · exact refl s
  | forUs | discovery | seekCount | repairStart => exact same rfl rfl (List.suffix_cons _ _)
  | seekNew | seekRing => exact same rfl rfl (List.suffix_refl _)
  | @seekFail q hq =>
      have hobs : Bears s ((pop s (.seekTimer q)).tock.observe (.discoveryFailed q)) :=
        same rfl rfl (List.suffix_cons _ _)
      refine hobs.trans (same rfl rfl ?_)
      exact (noRoute_said e _ _).suffix

end Bears

section Runs

variable {e : Env} {ev : Event} {s s' : Daemon}

theorem ordered_moves (ho : Ordered s) (hs : WellFormed s) (h : ReflTransGen (Move e ev) s s') :
    Ordered s' := by
  induction h with
  | refl => exact ho
  | tail hrun h ih => exact ih.move (moves_wellFormed hrun hs) h

theorem bears_fines (hs : WellFormed s) (ho : Ordered s)
    (hev : ∀ pkt, ev = .recv pkt → pkt.src ≠ s.host.ipaddr) (h : ReflTransGen (Fine e ev) s s') :
    Bears s s' ∧ Ordered s' := by
  induction h with
  | refl => exact ⟨.refl s, ho⟩
  | tail hrun h ih =>
      have hsound := fines_sound hrun hs
      refine ⟨ih.1.trans (.fine h hsound.wellFormed ih.2 ?_), ?_⟩
      · rw [hsound.ipaddr]
        exact hev
      · exact ordered_moves ih.2 hsound.wellFormed (fine_moves h hsound.wellFormed)

theorem bears_coarses (hs : WellFormed s) (ho : Ordered s)
    (hev : ∀ pkt, ev = .recv pkt → pkt.src ≠ s.host.ipaddr) (h : ReflTransGen (Coarse e ev) s s') :
    Bears s s' ∧ Ordered s' := by
  refine bears_fines (e := e) hs ho hev ?_
  induction h with
  | refl => exact .refl
  | tail hrun h ih => exact ih.trans (coarse_fines h (coarses_sound hrun hs).wellFormed)

theorem bears_step (hs : Resting s) (ho : Ordered s) (ev : Event) : Bears s (step e s ev) := by
  have hrun (hev : ∀ pkt, ev = .recv pkt → pkt.src ≠ s.host.ipaddr) : Bears s (step e s ev) := by
    obtain ⟨s₁, hfrom, hrun, -⟩ := coarses_step (e := e) hs.wellFormed hs.batch ev
    rcases hfrom with rfl | ⟨now, rfl⟩
    · exact (bears_coarses hs.wellFormed ho hev hrun).1
    · have hidle := idle_takeDue e.arch now hs.wellFormed hs.batch
      have htake : Bears s (takeDue e.arch now s) := .same rfl rfl (List.suffix_refl _)
      exact htake.trans (bears_coarses hidle.wellFormed (ho.idle hidle) hev hrun).1
  cases ev with
  | recv pkt =>
      cases hr : received s.host.ipaddr pkt with
      | false =>
          rw [step_dropped e hs.wellFormed hr]
          exact .refl s
      | true =>
          apply hrun
          rintro _ ⟨⟩
          exact (received_iff.1 hr).2
  | kernel | age | fire =>
      apply hrun
      rintro _ ⟨⟩

theorem bears_run (hs : Resting s) (ho : Ordered s) (es : List Event) : Bears s (run e s es) := by
  induction es generalizing s with
  | nil => exact .refl s
  | cons ev es ih =>
      obtain ⟨hmoves, hrest⟩ := step_moves (e := e) hs ev
      exact (bears_step hs ho ev).trans (ih hrest (ordered_moves ho hs.wellFormed hmoves))

theorem allTidy_init (ipaddr broadcast : Addr) (ifindex : Int) :
    AllTidy (init e ipaddr broadcast ifindex) := by
  rintro p ⟨i, hp⟩
  exact absurd hp List.not_mem_nil

end Runs

theorem mem_precursorAdd (s : Daemon) (p : Ptr) (addr : Addr) :
    addr ∈ ((precursorAdd s p addr).rt p).precursors := by
  rw [precursorAdd]
  split
  next h => exact h
  · rw [rt_setRt_self]
    exact List.mem_cons_self

theorem subset_precursorAdd (s : Daemon) (p : Ptr) (addr : Addr) (q : Ptr) :
    (s.rt q).precursors ⊆ ((precursorAdd s p addr).rt q).precursors := by
  rw [precursorAdd]
  split
  · exact List.Subset.refl _
  · by_cases hq : q = p
    · rw [hq, rt_setRt_self]
      exact List.subset_cons_self _ _
    · rw [rt_setRt_ne s _ hq]
      exact List.Subset.refl _

section Calls

variable {e : Env} {s : Daemon} {pkt : Packet} {m : RREQ} {rev fwd f : Ptr}

theorem send_records {c : SendCall} (h : c.fwd = some f) :
    c.dest e ∈ ((c.after e).rt f).precursors := by
  unfold SendCall.after rrepSend
  rw [h]
  exact subset_precursorAdd _ _ _ f (mem_precursorAdd _ f _)

theorem forward_records (c : ForwardCall) : c.dest e ∈ ((c.after e).rt c.fwd).precursors := by
  rw [ForwardCall.after, rrepForward]
  dsimp only
  rw [rt_updateTimeout]
  exact subset_precursorAdd _ _ _ c.fwd (mem_precursorAdd _ c.fwd _)

theorem quiets_first (ev : Event) (now : Timeval) (hs : WellFormed s) (hrev : Foreign s rev)
    (hfwd : Foreign s fwd) :
    ReflTransGen (Quiet e ev) (s.observe (.answer (s.timer (.rtTimer fwd)).timeout now))
      ((answerCall e s rev fwd now).after e) := by
  have hobs : Kept s (s.observe (.answer (s.timer (.rtTimer fwd)).timeout now)) := Kept.observe s _
  apply quiets_reply (hobs.wellFormed hs) (hrev.kept hobs)
  · rintro f ⟨⟩
    exact hfwd.kept hobs
  · exact .inr ⟨_, _, List.mem_cons_self, rfl⟩

theorem quiets_second (ev : Event) (now : Timeval) (hs : WellFormed s) (hrev : Foreign s rev)
    (hfwd : Foreign s fwd) : ReflTransGen (Quiet e ev) ((answerCall e s rev fwd now).after e)
      ((secondCall e s rev fwd now).after e) := by
  have hobs : Kept s (answerCall e s rev fwd now).s := (Kept.observe s _).trans (Kept.write _ _)
  have hkept := hobs.trans (kept_after (e := e) (answerCall e s rev fwd now))
  have hgrow := quiets_trace (quiets_first (e := e) ev now hs hrev hfwd)
    ((Kept.observe s _).wellFormed hs)
  apply quiets_reply (hkept.wellFormed hs) (hfwd.kept hkept)
  · rintro f ⟨⟩
    exact hrev.kept hkept
  · exact .inr ⟨_, _, hgrow.subset List.mem_cons_self, rfl⟩

/-- A call of rrep_send lies on the way through the event, and only the one
about the daemon itself has no forward route. -/
structure OnTheWay (e : Env) (pkt : Packet) (s s' : Daemon) (c : SendCall) : Prop where
  before : ReflTransGen (Coarse e (.recv pkt)) s (c.after e)
  rest : ReflTransGen (Coarse e (.recv pkt)) (c.after e) s'
  own : c.fwd = none → c.rrep.destAddr = s.host.ipaddr

theorem OnTheWay.head {s₀ s' : Daemon} {c : SendCall} (h : OnTheWay e pkt s s' c)
    (hrun : ReflTransGen (Coarse e (.recv pkt)) s₀ s) (hip : s.host.ipaddr = s₀.host.ipaddr) :
    OnTheWay e pkt s₀ s' c :=
  ⟨hrun.trans h.before, h.rest, fun hno => (h.own hno).trans hip⟩

theorem answer_onTheWay (pkt : Packet) (m : RREQ) {n : Nat} (hn : n + 1 = s.tick) (hs : WellFormed s)
    (hrev : Foreign s rev) (hfwd : Foreign s fwd) :
    ∀ c ∈ answerCalls e s m rev fwd (e.clock n),
      OnTheWay e pkt s (rreqAnswer e s m rev fwd (e.clock n)) c := by
  have hmark : Quiet e (.recv pkt) s (s.observe (.answer (s.timer (.rtTimer fwd)).timeout
    (e.clock n))) := .answer hfwd.linked hn
  have hfirst := coarses_of_quiets
    (ReflTransGen.head hmark (quiets_first (.recv pkt) (e.clock n) hs hrev hfwd))
  have hsecond := coarses_of_quiets
    (quiets_second (e := e) (.recv pkt) (e.clock n) hs hrev hfwd)
  intro c hc
  rw [rreqAnswer_eq]
  rcases List.mem_cons.1 hc with rfl | hc
  · refine ⟨hfirst, ?_, by rintro ⟨⟩⟩
    split
    · exact hsecond
    · exact .refl
  · split at hc
    next hg =>
      rw [List.mem_singleton.1 hc, if_pos hg]
      exact ⟨hfirst.trans hsecond, .refl, by rintro ⟨⟩⟩
    · exact absurd hc List.not_mem_nil

theorem accepted_onTheWay (hs : WellFormed s) (ht : pkt.buf 0 = aodvRreq) (hrev : Foreign s rev)
    (ttl : Int) : ∀ c ∈ acceptedCalls e s (rreqOf pkt.buf) rev,
      OnTheWay e pkt s (rest e s pkt rev ttl) c := by
  intro c hc
  rw [acceptedCalls] at hc
  rw [rest]
  split at hc
  next hus =>
    rw [List.mem_singleton.1 hc, if_pos hus]
    exact ⟨coarses_forUs hs rfl ht hrev, .refl, fun _ => rfl⟩
  next hus =>
    rw [if_neg hus, rreqRoute]
    cases hf : rtTableCheck s.rtTbl (rreqOf pkt.buf).destAddr with
    | none =>
        rw [hf] at hc
        exact absurd hc List.not_mem_nil
    | some f =>
        rw [hf] at hc
        dsimp only at hc ⊢
        split at hc
        next hv =>
          rw [if_pos hv]
          split at hc
          next hq =>
            rw [if_pos hq]
            have htick : Kept s s.tock := Kept.tock s
            obtain ⟨hl, hd⟩ := rtTableCheck_some hf
            have hfwd : Foreign s f := ⟨hl, fun h => hus (hd.symm.trans h)⟩
            have hway := answer_onTheWay (e := e) (s := s.tock) pkt (rreqOf pkt.buf) rfl
              (htick.wellFormed hs) (hrev.kept htick) (hfwd.kept htick) c hc
            exact hway.head (.single (.quiet (.lb (.tock s)))) rfl
          · exact absurd hc List.not_mem_nil
        · exact absurd hc List.not_mem_nil

theorem accepts_of_call {c : SendCall} (ht : pkt.buf 0 = aodvRreq)
    (hc : c ∈ rreqCalls e s pkt.buf pkt.len pkt.src) : Accepts s pkt := by
  rw [rreqCalls] at hc
  dsimp only at hc
  split at hc
  · exact absurd hc List.not_mem_nil
  next horig =>
    split at hc
    · exact absurd hc List.not_mem_nil
    next hlen =>
      split at hc
      · exact absurd hc List.not_mem_nil
      next hbl =>
        split at hc
        · exact absurd hc List.not_mem_nil
        next hrec =>
          exact ⟨ht, horig, Nat.le_of_not_lt hlen, by simpa using hbl, by simpa using hrec⟩

theorem rreq_onTheWay (hs : WellFormed s) (ht : pkt.buf 0 = aodvRreq) (ttl : Int) :
    ∀ c ∈ rreqCalls e s pkt.buf pkt.len pkt.src,
      OnTheWay e pkt s (rreqProcess e s pkt.buf pkt.len pkt.src ttl) c := by
  intro c hc
  have ha := accepts_of_call ht hc
  have hacc := Coarse.accept (e := e) (rfl : Event.recv pkt = _) ht ha.foreign ha.length ha.new
  have hsound := coarse_sound hacc hs
  rw [calls_accepted ha] at hc
  rw [process_accepted ha]
  change Coarse e _ s (rreqReverse e (recorded e s pkt) (rreqOf pkt.buf) pkt.src).1 at hacc
  change Sound s (rreqReverse e (recorded e s pkt) (rreqOf pkt.buf) pkt.src).1 at hsound
  obtain ⟨s₁, o, hrev⟩ : ∃ s₁ o, rreqReverse e (recorded e s pkt) (rreqOf pkt.buf) pkt.src =
      (s₁, o) := ⟨_, _, rfl⟩
  rw [hrev] at hc hacc hsound ⊢
  cases o with
  | none => exact absurd hc List.not_mem_nil
  | some rev =>
      have hl : Foreign s₁ rev := by
        refine ⟨linked_reverse hrev, ?_⟩
        rw [dest_reverse hrev, hsound.ipaddr]
        exact ha.foreign
      exact (accepted_onTheWay hsound.wellFormed ht hl ttl c hc).head (.single hacc) hsound.ipaddr

theorem sendCalls_onTheWay (hs : WellFormed s) :
    ∀ c ∈ sendCalls e s pkt, OnTheWay e pkt s (step e s (.recv pkt)) c := by
  intro c hc
  rw [sendCalls] at hc
  split at hc
  next h =>
    obtain ⟨⟨ttl, httl⟩, hne⟩ := received_iff.1 h.1
    have hadd := coarses_neighborAdd (e := e) (s := s) (rfl : Event.recv pkt = _) hne
    have hsound := coarses_sound hadd hs
    rw [step_rreq httl hne h.2]
    exact (rreq_onTheWay hsound.wellFormed h.2 ttl.toNat c hc).head hadd hsound.ipaddr
  · exact absurd hc List.not_mem_nil

theorem rrepCalls_last (ttl : Int) : ∀ c ∈ rrepCalls e s pkt.buf pkt.len pkt.src ttl,
    c.after e = rrepProcess e s pkt.buf pkt.len pkt.src ttl ∧
      (rrepOf c.buf).destAddr ≠ s.host.ipaddr := by
  intro c hc
  rw [rrepCalls] at hc
  rw [rrepProcess]
  dsimp only at hc ⊢
  split at hc
  · exact absurd hc List.not_mem_nil
  next hlen =>
    rw [if_neg hlen]
    split at hc
    · exact absurd hc List.not_mem_nil
    next hne =>
      rw [if_neg hne]
      cases hroute : rrepRoute e s (rrepOf pkt.buf) pkt.src with
      | none =>
          rw [hroute] at hc
          exact absurd hc List.not_mem_nil
      | some o =>
          obtain ⟨s₁, p, wasRepair, wasHopcnt⟩ := o
          rw [hroute] at hc
          dsimp only at hc ⊢
          have hbuf : (rrepOf (if (rrepOf pkt.buf).a then
              store pkt.buf 1 (pkt.buf 1 &&& ~~~(bit true 1)) else pkt.buf)).destAddr =
              (rrepOf pkt.buf).destAddr := by
            split
            · exact (rrepOf_flags pkt.buf _).2
            · rfl
          generalize (if (rrepOf pkt.buf).a then
            store pkt.buf 1 (pkt.buf 1 &&& ~~~(bit true 1)) else pkt.buf) = buf at hc hbuf ⊢
          generalize (if (rrepOf pkt.buf).a then rrepAnswerAck e s₁ p else s₁) = s₂ at hc ⊢
          split at hc
          · exact absurd hc List.not_mem_nil
          next horig =>
            rw [if_neg horig]
            cases hrev : rtTableCheck s.rtTbl (rrepOf pkt.buf).origAddr with
            | none =>
                rw [hrev] at hc
                exact absurd hc List.not_mem_nil
            | some r =>
                rw [hrev] at hc
                dsimp only at hc ⊢
                split at hc
                next hv =>
                  rw [if_pos hv, List.mem_singleton.1 hc]
                  refine ⟨rfl, ?_⟩
                  rw [hbuf]
                  exact hne
                · exact absurd hc List.not_mem_nil

theorem forwardCalls_last (hs : WellFormed s) : ∀ c ∈ forwardCalls e s pkt,
    c.after e = step e s (.recv pkt) ∧ (rrepOf c.buf).destAddr ≠ s.host.ipaddr := by
  intro c hc
  rw [forwardCalls] at hc
  cases httl : pkt.ttl with
  | none =>
      rw [httl] at hc
      exact absurd hc List.not_mem_nil
  | some ttl =>
      rw [httl] at hc
      dsimp only at hc
      split at hc
      next h =>
        have hadd := coarses_neighborAdd (e := e) (s := s) (rfl : Event.recv pkt = _) h.1
        have hnot : ¬ isHello pkt = true := by
          rw [h.2.2]
          decide
        rw [step_rrep httl h.1 h.2.1, if_neg hnot, ← (coarses_sound hadd hs).ipaddr]
        exact rrepCalls_last ttl.toNat c hc
      · exact absurd hc List.not_mem_nil

end Calls

/-- An RREP about dest was handed to next in the call that ended in the state s.
An entry of dest that was VALID then and has not gone INVALID since is VALID in
the state s', with next among its precursors. -/
def Remembers (dest next : Addr) (s s' : Daemon) : Prop :=
  ∀ p, Linked s.rtTbl p → (s.rt p).destAddr = dest → (s.rt p).state = .valid → ¬ Down p s s' →
    Linked s'.rtTbl p ∧ (s'.rt p).state = .valid ∧ next ∈ (s'.rt p).precursors

theorem Remembers.of_bears {s s' : Daemon} {f : Ptr} {next : Addr} (hs : WellFormed s)
    (hf : Linked s.rtTbl f) (hn : next ∈ (s.rt f).precursors) (h : Bears s s') :
    Remembers (s.rt f).destAddr next s s' := by
  intro p hp hd hv hdown
  obtain rfl : p = f := hs.table.dests p f hp hf hd
  obtain ⟨hp', hv', hsub⟩ := h.keep p hp hv hdown
  exact ⟨hp', hv', hsub hn⟩

section Complete

variable {e : Env} {s : Daemon} {pkt : Packet}

theorem send_remembers (hs : Resting s) (ho : Ordered s) (es : List Event) {c : SendCall}
    (hc : c ∈ sendCalls e s pkt) (hne : c.rrep.destAddr ≠ s.host.ipaddr) :
    Remembers c.rrep.destAddr (c.dest e) (c.after e) (run e s (.recv pkt :: es)) := by
  have hsound := sound_sendCalls hs.wellFormed c hc
  have hway := sendCalls_onTheWay hs.wellFormed c hc
  have hkept := kept_after (e := e) c
  have hev : ∀ pkt', Event.recv pkt = .recv pkt' → pkt'.src ≠ s.host.ipaddr := by
    rintro _ ⟨⟩
    rw [sendCalls] at hc
    split at hc
    next h => exact (received_iff.1 h.1).2
    · exact absurd hc List.not_mem_nil
  obtain ⟨-, hmid⟩ := bears_coarses hs.wellFormed ho hev hway.before
  have hafter := coarses_sound hway.before hs.wellFormed
  obtain ⟨hrest, hlast⟩ := bears_coarses hafter.wellFormed hmid (hafter.ipaddr ▸ hev) hway.rest
  have hrun := bears_run (e := e) (step_moves (e := e) hs (.recv pkt)).2 hlast es
  cases hfwd : c.fwd with
  | none => exact absurd (hway.own hfwd) hne
  | some f =>
      obtain ⟨hf, hd⟩ := hsound.fwd f hfwd
      have hsame : ((c.after e).rt f).destAddr = (c.s.rt f).destAddr := hkept.keys.destAddr f
      rw [← hd, ← hsame]
      exact .of_bears hafter.wellFormed ((hkept.keys.linked f).2 hf) (send_records hfwd)
        (hrest.trans hrun)

theorem forward_remembers (hs : Resting s) (ho : Ordered s) (es : List Event) {c : ForwardCall}
    (hc : c ∈ forwardCalls e s pkt) :
    Remembers (rrepOf c.buf).destAddr (c.dest e) (c.after e) (run e s (.recv pkt :: es)) := by
  have hsound := sound_forwardCalls hs.wellFormed c hc
  have hlast := (forwardCalls_last hs.wellFormed c hc).1
  obtain ⟨hmoves, hrest⟩ := step_moves (e := e) hs (.recv pkt)
  have hrun := bears_run (e := e) hrest (ordered_moves ho hs.wellFormed hmoves) es
  have hkept : Kept c.s (c.after e) := kept_rrepForward e c.buf c.len c.fwd c.ttl hsound.rev
  have hsame : ((c.after e).rt c.fwd).destAddr = (c.s.rt c.fwd).destAddr :=
    hkept.keys.destAddr c.fwd
  rw [← hsound.dest, ← hsame]
  change Remembers _ _ _ (run e (step e s (.recv pkt)) es)
  rw [← hlast] at hrun hrest ⊢
  exact .of_bears hrest.wellFormed ((hkept.keys.linked _).2 hsound.fwd) (forward_records c) hrun

end Complete

theorem precursors_complete (e : Env) (ipaddr broadcast : Addr) (ifindex : Int)
    (es : List Event) (pkt : Packet) (es' : List Event) :
    let s := run e (init e ipaddr broadcast ifindex) es
    let s' := run e (init e ipaddr broadcast ifindex) (es ++ .recv pkt :: es')
    (∀ c ∈ sendCalls e s pkt, c.rrep.destAddr ≠ s.host.ipaddr →
      Remembers c.rrep.destAddr (c.dest e) (c.after e) s') ∧
    (∀ c ∈ forwardCalls e s pkt, Remembers (rrepOf c.buf).destAddr (c.dest e) (c.after e) s') ∧
    ∀ p, Linked s'.rtTbl p →
      (s'.rt p).nprecursor.toNat = (s'.rt p).precursors.length ∧ (s'.rt p).precursors.Nodup := by
  intro s s'
  have hreach : Reachable e s := ⟨ipaddr, broadcast, ifindex, es, rfl⟩
  have hs : Resting s := Aodv.Reachable.resting hreach
  have ho : Ordered s := Aodv.Reachable.ordered hreach
  have hrun : s' = run e s (.recv pkt :: es') := by
    simp only [s', s, run, List.foldl_append]
  rw [hrun]
  refine ⟨fun c hc hne => send_remembers hs ho es' hc hne,
    fun c hc => forward_remembers hs ho es' hc, fun p hp => ?_⟩
  have hstart := allTidy_init (e := e) ipaddr broadcast ifindex
  have hinit := bears_run (e := e) (resting_init e ipaddr broadcast ifindex)
    (ordered_init e ipaddr broadcast ifindex) es
  have htidy := (bears_run (e := e) hs ho (.recv pkt :: es')).tidy (hinit.tidy hstart) p hp
  exact ⟨htidy.counts, htidy.nodup⟩

def rreqForSelf : Packet :=
  .of (.rreq ⟨false, false, false, false, false, 1, 1, 0x0100000a, 0, 0x0300000a, 5⟩)
    0x0200000a aodvBroadcast 5 (fits_rreq _)

/-- The RREP about the daemon itself goes out without a precursor for the entry
that a HELLO has set up for its address. -/
theorem own_entry_forgets : ¬ ∀ (e : Env) (s : Daemon) (pkt : Packet), Reachable e s →
    ∀ c ∈ sendCalls e s pkt,
      Remembers c.rrep.destAddr (c.dest e) (c.after e) (step e s (.recv pkt)) := by
  intro hall
  have hsee : (sendCalls plain (greeted 0x0100000a) rreqForSelf).any (fun c =>
      decide (1 ∈ entries (c.after plain).rtTbl) &&
        decide (((c.after plain).rt 1).destAddr = c.rrep.destAddr) &&
        decide (((c.after plain).rt 1).state = .valid) &&
        (since (c.after plain) (step plain (greeted 0x0100000a) (.recv rreqForSelf))).isEmpty &&
        decide (c.dest plain ∉
          ((step plain (greeted 0x0100000a) (.recv rreqForSelf)).rt 1).precursors)) = true := by
    decide +kernel
  obtain ⟨c, hc, h⟩ := List.any_eq_true.1 hsee
  simp only [Bool.and_eq_true, decide_eq_true_eq, List.isEmpty_iff] at h
  obtain ⟨⟨⟨⟨hp, hd⟩, hv⟩, hsince⟩, hno⟩ := h
  have hdown : ¬ Down 1 (c.after plain) (step plain (greeted 0x0100000a) (.recv rreqForSelf)) := by
    rintro ⟨old, ho⟩
    rw [hsince] at ho
    exact absurd ho List.not_mem_nil
  have hreach : Reachable plain (greeted 0x0100000a) := ⟨0x0100000a, 0xff00000a, 2, _, rfl⟩
  exact hno (hall plain _ _ hreach c hc 1 ((mem_entries _ 1).1 hp) hd hv hdown).2.2

end Aodv.Precursors