import Aodv.Routes

namespace Aodv.Expiry

open Lib.Bytes Relation

/-- The entry will be handled when its time has run out. -/
structure Expires (s : Daemon) (p : Ptr) : Prop where
  pending : Pending s.timers (.rtTimer p)
  handler : (callee s.timers (.rtTimer p)).1 = some (fitting (s.rt p))

def Mortal (s : Daemon) : Prop := ∀ p, Linked s.rtTbl p → Expires s p

/-- The calls that keep the timers of the entries running: a VALID entry is
inserted with a positive lifetime, no VALID entry that keeps its link is given a
lifetime that is negative as a long, and no repair is started. -/
def keepsTimer (arch : Arch) : Obs → Bool
  | .rtInsert _ _ _ _ lifetime .valid _ => decide (0 < arch.long lifetime)
  | .rtUpdate _ old _ hops _ lifetime _ _ =>
      decide (old.state = .valid → ¬ (1 < hops ∧ old.hopcnt = 1) → 0 ≤ arch.long lifetime)
  | .localRepair _ => false
  | _ => true

namespace Mortal

variable {e : Env} {ev : Event} {s s' : Daemon} {p : Ptr}

theorem apart (h : Mortal s) (ha : Apart p s s')
    (hl : ∀ q, q ≠ p → Linked s'.rtTbl q → Linked s.rtTbl q)
    (hp : Linked s'.rtTbl p → Expires s' p) : Mortal s' := by
  intro q hq
  by_cases hne : q = p
  · subst q
    exact hp hq
  · have hold := h q (hl q hne hq)
    refine ⟨(ha.timers.route q hne).2 hold.pending, ?_⟩
    rw [ha.timers.callee q hne, ha.rt q hne]
    exact hold.handler

theorem fresh (h : Mortal s) (ha : Apart s.brk s s') (hs : WellFormed s)
    (hl : s'.rtTbl.tbl = s.rtTbl.tbl) : Mortal s' := by
  have hlinked (q : Ptr) : Linked s'.rtTbl q ↔ Linked s.rtTbl q := by rw [Linked, Linked, hl]
  exact h.apart ha (fun q _ hq => (hlinked q).1 hq) fun hq =>
    absurd ((hlinked _).1 hq) hs.brk_not_linked

theorem idle (h : Mortal s) (hi : Idle s s') : Mortal s' := by
  intro q hq
  have hold := h q ((hi.linked q).1 hq)
  refine ⟨(hi.timers.route q).2 hold.pending, ?_⟩
  rw [hi.timers.callee, hold.handler, fitting, fitting, (hi.rt q).state, (hi.rt q).repair]

theorem expires_invalidate (hs : WellFormed s) (hv : (s.rt p).state = .valid) :
    Expires (rtTableInvalidate e s p) p := by
  refine ⟨(pending_invalidate e hs hv _).2 (.inl rfl), ?_⟩
  rw [callee_invalidate e hv, if_pos rfl, fitting, state_invalidate, (rt_invalidate_self e s p).2.1]

theorem slide (h : Mortal s) (hs : WellFormed s) (hm : Slide e s s') : Mortal s' := by
  cases hm with
  | idle hi => exact h.idle hi
  | @down p hp hv =>
      have hlinked := (kept_invalidate e hp).keys.linked
      exact h.apart (apart_invalidate e hs p) (fun q _ hq => (hlinked q).1 hq) fun _ =>
        expires_invalidate hs hv
  | @repair p hp hv =>
      have hmark : ((markRepair s p).rt p).state = .valid := by
        rw [markRepair, rt_setRt_self]
        exact hv
      have hw := (kept_markRepair s p).wellFormed hs
      have hlinked := (kept_invalidate e (s := markRepair s p) hp).keys.linked
      exact h.apart ((Apart.setRt s p _).trans (apart_invalidate e hw p))
        (fun q _ hq => (hlinked q).1 hq) fun _ => expires_invalidate hw hmark

theorem slides (h : Mortal s) (hs : WellFormed s) (hm : ReflTransGen (Slide e) s s') :
    Mortal s' := by
  induction hm with
  | refl => exact h
  | tail hrun hm ih => exact ih.slide (slides_wellFormed hrun hs) hm

theorem update (h : Mortal s) (hs : WellFormed s) (hp : Linked s.rtTbl p) (next : Addr)
    (hops seqno lifetime : U32) (flags : RtFlags)
    (hok : keepsTimer e.arch (.rtUpdate p (s.rt p) next hops seqno lifetime .valid flags) = true) :
    Mortal (rtTableUpdate e s p next hops seqno lifetime .valid flags) := by
  obtain ⟨s₁, f, -, -, hrt, htimers, hw₁, htbl, hslides, heq⟩ :=
    update_parts e hs hp next hops seqno lifetime .valid flags
  have hlinked (q : Ptr) : Linked s₁.rtTbl q ↔ Linked s.rtTbl q := by rw [Linked, Linked, htbl]
  have h₁ : Mortal s₁ := by
    intro q hq
    have hold := h q ((hlinked q).1 hq)
    exact ⟨htimers ▸ hold.pending, by rw [htimers, hrt]; exact hold.handler⟩
  have h₂ := h₁.slides hw₁ hslides
  have hw₂ := slides_wellFormed hslides hw₁
  have hp₂ := (slides_linked hslides p).2 ((hlinked p).2 hp)
  -- a neighbour whose link has just been broken is not VALID any more
  have hlife (hv : ((updateBreak e s₁ p hops).rt p).state = .valid) : 0 ≤ e.arch.long lifetime := by
    by_cases hd : 1 < hops ∧ (s₁.rt p).hopcnt = 1
    · rw [(demoted_down hw₁ ((hlinked p).2 hp) hd).1] at hv
      cases hv
    · rw [updateBreak_same e hd, hrt] at hv
      rw [hrt] at hd
      exact of_decide_eq_true hok hv hd
  obtain ⟨s₃, hkept, heq'⟩ := update_kept e s hp next hops seqno lifetime .valid flags
  have hback (q : Ptr)
      (hq : Linked (rtTableUpdate e s p next hops seqno lifetime .valid flags).rtTbl q) :
      Linked (updateBreak e s₁ p hops).rtTbl q := by
    rw [heq', tbl_routeFound] at hq
    exact (slides_linked hslides q).2 ((hlinked q).2 ((hkept.keys.linked q).1 hq))
  rw [heq] at hback ⊢
  refine h₂.apart (apart_updateFinish e hw₂ _ _ _ _ _ _) (fun q _ hq => hback q hq) fun _ => ?_
  refine ⟨pending_updateFinish e hw₂ hlife (h₂ p hp₂).pending, ?_⟩
  rw [callee_updateFinish, rt_updateFinish, if_pos rfl, fitting]

theorem insert (h : Mortal s) (hs : WellFormed s) (dest next : Addr) (hops seqno lifetime : U32)
    (state : RtState) (hok : keepsTimer e.arch
      (.rtInsert dest next hops seqno lifetime state .zero) = true)
    (hnew : ∀ q ∈ s.rtTbl.tbl (hashing dest), (s.rt q).destAddr ≠ dest) :
    Mortal (insertEntry e (s.observe (.rtInsert dest next hops seqno lifetime state .zero))
      (newEntry dest next hops seqno state .zero) hops lifetime) := by
  let s₀ := s.observe (.rtInsert dest next hops seqno lifetime state .zero)
  have hs₀ : WellFormed s₀ := (Kept.observe s _).wellFormed hs
  let r := newEntry dest next hops seqno state .zero
  have hapart := apart_insertEntry (r := r) e hs₀ rfl hnew hops lifetime
  refine h.apart (p := s.brk) hapart.observed (fun q hq hlq => ?_) fun _ => ⟨?_, ?_⟩
  · exact ((linked_insertEntry e s₀ r hops lifetime q).1 hlq).resolve_left hq
  · refine pending_insertEntry (r := r) e hs₀ rfl hnew fun hv => ?_
    have hvalid : state = .valid := hv
    subst hvalid
    have hpos : 0 < e.arch.long lifetime := of_decide_eq_true hok
    refine ⟨fun hzero => ?_, Int.le_of_lt hpos⟩
    subst hzero
    revert hpos
    cases e.arch <;> decide
  · have hself : (insertEntry e s₀ r hops lifetime).rt s.brk = r :=
      (rt_insertEntry e s₀ r hops lifetime _).trans (rt_linkEntry_self s₀ r)
    exact (callee_insertEntry e hops lifetime).trans (by rw [hself])

theorem move (h : Mortal s) (ho : Ordered s) (hs : WellFormed s)
    (hok : ∀ o ∈ s'.trace, keepsTimer e.arch o = true) (hm : Move e ev s s') : Mortal s' := by
  cases hm with
  | slide hm => exact h.slide hs hm
  | @updateTimeout p lifetime hl hp =>
      have hlinked := (kept_updateTimeout e lifetime hp).keys.linked
      refine h.apart (apart_updateTimeout e hs p lifetime) (fun q _ hq => (hlinked q).1 hq)
        fun _ => ⟨pending_updateTimeout e hs (long_nonneg e (short_lifetime hl)) (h p hp).pending, ?_⟩
      rw [callee_updateTimeout, rt_updateTimeout]
      exact (h p hp).handler
  | @helloArm p now time hp hh =>
      have hother (q : Ptr) : Pending (helloUpdateTimeout e s p now time).timers (.rtTimer q) ↔
          Pending s.timers (.rtTimer q) := by
        change Pending (timerSetTimeout _ _ s.timers _ _) _ ↔ _
        rw [pending_timerSetTimeout hs.coherent]
        simp
      intro q hq
      have hold := h q hq
      refine ⟨(hother q).2 hold.pending, ?_⟩
      change (callee (timerSetTimeout _ _ s.timers _ _) _).1 = _
      rw [callee_timerSetTimeout, hold.handler]
      by_cases hne : q = p
      · subst q
        rw [helloUpdateTimeout, rt_setRt_self]
        rfl
      · rw [helloUpdateTimeout, rt_setRt_ne _ _ hne]
        rfl
  | @helloMark p ht hh hu =>
      rcases ho.hello p ht with h1 | hu'
      · exact absurd h1 hh
      · rw [hu] at hu'
        cases hu'
  | @rerrSeqno p pkt udest hp _ _ _ =>
      refine h.apart (Apart.setRt _ p _).observed (fun q _ hq => hq) fun _ => ⟨(h p hp).pending, ?_⟩
      rw [rt_setRt_self]
      exact (h p hp).handler
  | @repairTimeout p hp hr =>
      have hinv : (s.rt p).state = .invalid := ho.invalid hp (hr.imp id fun hc => by simp [hc])
      have hlinked := (kept_localRepairTimeout e hp).keys.linked
      refine h.apart (apart_repairTimeout e hs p) (fun q _ hq => (hlinked q).1 hq) fun _ => ?_
      refine ⟨(pending_repairTimeout e hs p _).2 (.inl rfl), ?_⟩
      rw [callee_repairTimeout, if_pos rfl, rt_repairTimeout, if_pos rfl, fitting, hinv]
      rfl
  | @delete p hp hh =>
      exact h.apart (apart_delete e s p) (fun q _ hq => ((linked_delete e s p q).1 hq).1)
        fun hl => absurd rfl ((linked_delete e s p p).1 hl).2
  | @expireIdle p hp hi hh =>
      have hfit := (h p hp).handler.symm.trans hh
      rw [fitting, hi] at hfit
      revert hfit
      cases (s.rt p).flags.repair <;> simp [waitHandler]
  | @insert src dest next hops seqno lifetime state hl =>
      obtain hi | ⟨hnew, hi⟩ := rtTableInsert_cases e s dest next hops seqno lifetime state .zero
      · rw [hi]
        exact h
      · rw [hi] at hok ⊢
        have hmem : .rtInsert dest next hops seqno lifetime state .zero ∈ (insertEntry e (s.observe
            (.rtInsert dest next hops seqno lifetime state .zero))
            (newEntry dest next hops seqno state .zero) hops lifetime).trace :=
          (insertEntry_said e _ _ hops lifetime).suffix.subset List.mem_cons_self
        exact h.insert hs dest next hops seqno lifetime state (hok _ hmem) hnew
  | @update p src next hops seqno lifetime hp hl =>
      have hmem := (update_said e hp next hops seqno lifetime .valid
        (s.rt p).flags).suffix.subset List.mem_cons_self
      exact h.update hs hp next hops seqno lifetime (s.rt p).flags (hok _ hmem)
  | @seekNew dest seqno ttl flags msec _ _ _ =>
      exact h.fresh (apart_seekNew e hs dest seqno ttl flags msec) hs rfl
  | @seekFail q _ => exact h.fresh (apart_seekFail e s s.brk q) hs rfl
  | @repairStart p hp hr => cases hok _ List.mem_cons_self

end Mortal

theorem mortal_init (e : Env) (ipaddr broadcast : Addr) (ifindex : Int) :
    Mortal (init e ipaddr broadcast ifindex) := by
  rintro p ⟨i, hp⟩
  exact absurd hp List.not_mem_nil

/-- Every entry that is no gateway's has its timer running, with the handler
that its state asks for. -/
def AllExpire (s : Daemon) : Prop :=
  ∀ p, Linked s.rtTbl p → (s.rt p).flags.inetDest = false →
    Pending s.timers (.rtTimer p) ∧ (s.timer (.rtTimer p)).handler = some (fitting (s.rt p))

theorem entries_expire {e : Env} {s : Daemon} (h : Reachable e s)
    (hc : ∀ o ∈ s.trace, keepsTimer e.arch o = true) : AllExpire s := by
  have hall := Reachable.moves (J := fun s => Ordered s ∧ Mortal s) forall_mem_suffix
    (fun ipaddr broadcast ifindex =>
      ⟨ordered_init e ipaddr broadcast ifindex, mortal_init e ipaddr broadcast ifindex⟩)
    (fun ev s s' hs hok hJ hm => ⟨hJ.1.move hs hm, hJ.2.move hJ.1 hs hok hm⟩) h hc
  intro p hp _
  have hexp := hall.2.2 p hp
  exact ⟨hexp.pending, hexp.handler⟩

def offer (lifetime : U32) : Packet :=
  .of (.rrep ⟨false, false, 0, 1, 0x0900000a, 7, 0x0800000a, lifetime⟩) 0x0200000a 0x0100000a 5
    (fits_rrep _)

/-- A route that is learned and then lost to its neighbour's silence. -/
theorem entries_expire_offer :
    AllExpire (run plain (init plain 0x0100000a 0xff00000a 2)
      [.recv (offer 6000), .fire (.rtTimer 0)]) :=
  entries_expire ⟨_, _, _, _, rfl⟩ (by decide +kernel)

/-- A route with lifetime zero is VALID for ever. -/
theorem entry_immortal : ¬ ∀ s, Reachable plain s → AllExpire s := by
  intro hall
  let s := run plain (init plain 0x0100000a 0xff00000a 2) [.recv (offer 0)]
  have hentry : 1 ∈ s.linked ∧ (s.rt 1).flags.inetDest = false ∧
      ¬ Pending s.timers (.rtTimer 1) := by decide +kernel
  have hexp := hall s ⟨_, _, _, _, rfl⟩ 1 ((mem_entries _ 1).1 hentry.1) hentry.2.1
  exact hentry.2.2 hexp.1

end Aodv.Expiry
