import Aodv.Effects

namespace Aodv

open Lib.Bytes Relation

theorem apart_seekNew (e : Env) {s : Daemon} (hs : WellFormed s) (dest : Addr) (seqno : U32)
    (ttl : Int) (flags : U8) (msec : Int) :
    Apart s.brk s (seekArm e (seekListInsert s dest seqno ttl flags).1 s.brk msec) := by
  have hidle : ¬ Pending s.timers (.seekTimer s.brk) := fun hp =>
    Nat.lt_irrefl _ (hs.seekBelow _ (hs.owned _ hp))
  have hinit : Near s.brk s.timers (timerInit s.timers (.seekTimer s.brk) .routeDiscoveryTimeout
      (.obj s.brk)) := .timerInit _ _ _ (by simp)
  exact .frame rfl (hinit.trans (.timerSetTimeout (hs.coherent.timerInit _ _ _ hidle) _ _ (by simp)))

theorem apart_seekFail (e : Env) (s : Daemon) (p q : Ptr) : Apart p s (Aodv.seekFail e s q) :=
  .frame rfl ((Near.timerRemove s.timers (t := .seekTimer q) (by simp)).trans
    (.timerRemove _ (t := .seekTimer q) (by simp)))

theorem learned_hops {own : Addr} {ev : Event} {old : U32} {src : Source} {dest next : Addr}
    {hops seqno lifetime : U32} (h : Learned own ev old src dest next hops seqno lifetime)
    (hle : ¬ 1 < hops) : hops = 1 := by
  have hbyte (b : U8) (hb : ¬ 1 < b.setWidth 32 + 1) : b.setWidth 32 + 1 = (1 : U32) := by
    revert b
    decide
  cases h with
  | neighbor | hello => rfl
  | rreq | rrep => exact hbyte _ hle

/-- A VALID entry is not in repair and runs out by expiring; the hello timer
runs only for neighbours and over unidirectional links. -/
structure Ordered (s : Daemon) : Prop where
  valid : ∀ p, Linked s.rtTbl p → (s.rt p).state = .valid →
    (s.rt p).flags.repair = false ∧
      (callee s.timers (.rtTimer p)).1 = some .routeExpireTimeout
  hello : ∀ p, Pending s.timers (.helloTimer p) →
    (s.rt p).hopcnt = 1 ∨ (s.rt p).flags.unidir = true

namespace Ordered

variable {e : Env} {ev : Event} {s s' : Daemon} {p : Ptr}

theorem invalid (h : Ordered s) (hp : Linked s.rtTbl p)
    (hr : (s.rt p).flags.repair = true ∨
      (callee s.timers (.rtTimer p)).1 ≠ some .routeExpireTimeout) :
    (s.rt p).state = .invalid := by
  cases hv : (s.rt p).state with
  | invalid => rfl
  | valid =>
      obtain ⟨hrep, hcall⟩ := h.valid p hp hv
      rcases hr with hr | hr
      · rw [hrep] at hr
        cases hr
      · exact absurd hcall hr

theorem apart (h : Ordered s) (ha : Apart p s s')
    (hl : ∀ q, q ≠ p → Linked s'.rtTbl q → Linked s.rtTbl q)
    (hv : Linked s'.rtTbl p → (s'.rt p).state = .valid → (s'.rt p).flags.repair = false ∧
      (callee s'.timers (.rtTimer p)).1 = some .routeExpireTimeout)
    (hh : Pending s'.timers (.helloTimer p) →
      (s'.rt p).hopcnt = 1 ∨ (s'.rt p).flags.unidir = true) : Ordered s' := by
  refine ⟨fun q hq hvq => ?_, fun q hpq => ?_⟩
  · by_cases hne : q = p
    · subst q
      exact hv hq hvq
    · rw [ha.rt q hne] at hvq ⊢
      rw [ha.timers.callee q hne]
      exact h.valid q (hl q hne hq) hvq
  · by_cases hne : q = p
    · subst q
      exact hh hpq
    · rw [ha.rt q hne]
      exact h.hello q (ha.timers.hello q hne hpq)

theorem fresh (h : Ordered s) (ha : Apart s.brk s s') (hs : WellFormed s) (hw : WellFormed s')
    (hl : s'.rtTbl.tbl = s.rtTbl.tbl) : Ordered s' := by
  have hlinked (q : Ptr) : Linked s'.rtTbl q ↔ Linked s.rtTbl q := by rw [Linked, Linked, hl]
  refine h.apart ha (fun q _ hq => (hlinked q).1 hq) (fun hq => ?_) fun hp => ?_
  · exact absurd ((hlinked _).1 hq) hs.brk_not_linked
  · exact absurd ((hlinked _).1 (hw.owned (.helloTimer s.brk) hp)) hs.brk_not_linked

theorem idle (h : Ordered s) (hi : Idle s s') : Ordered s' := by
  refine ⟨fun q hq hv => ?_, fun q hp => ?_⟩
  · rw [(hi.rt q).state] at hv
    rw [(hi.rt q).repair, hi.timers.callee]
    exact h.valid q ((hi.linked q).1 hq) hv
  · rw [(hi.rt q).hopcnt]
    exact (h.hello q (hi.timers.hello q hp)).imp id (hi.rt q).unidir

theorem invalidate (h : Ordered s) (hp : Linked s.rtTbl p)
    (ha : Apart p s s') (hl : ∀ q, Linked s'.rtTbl q ↔ Linked s.rtTbl q)
    (hv : (s'.rt p).state = .valid) (hw : WellFormed s') : Ordered (rtTableInvalidate e s' p) := by
  have hlinked := (kept_invalidate e ((hl p).2 hp)).keys.linked
  refine h.apart (ha.trans (apart_invalidate e hw p)) (fun q _ hq => (hl q).1 ((hlinked q).1 hq))
    (fun _ hvalid => ?_) fun hpend => ?_
  · rw [state_invalidate] at hvalid
    cases hvalid
  · rw [pending_invalidate e hw hv] at hpend
    simp at hpend

theorem slide (h : Ordered s) (hs : WellFormed s) (hm : Slide e s s') : Ordered s' := by
  cases hm with
  | idle hi => exact h.idle hi
  | @down p hp hv =>
      exact h.invalidate hp (.frame rfl (.refl p _)) (fun _ => Iff.rfl) hv hs
  | @repair p hp hv =>
      have hmark : ((markRepair s p).rt p).state = .valid := by
        rw [markRepair, rt_setRt_self]
        exact hv
      exact h.invalidate hp (Apart.setRt s p _) (kept_markRepair s p).keys.linked hmark
        ((kept_markRepair s p).wellFormed hs)

theorem slides (h : Ordered s) (hs : WellFormed s) (hm : ReflTransGen (Slide e) s s') :
    Ordered s' := by
  induction hm with
  | refl => exact h
  | tail hrun hm ih => exact ih.slide (slides_wellFormed hrun hs) hm

end Ordered

theorem demoted_down {e : Env} {s : Daemon} (hs : WellFormed s) {p : Ptr} {hops : U32}
    (hp : Linked s.rtTbl p) (h : 1 < hops ∧ (s.rt p).hopcnt = 1) :
    ((updateBreak e s p hops).rt p).state = .invalid ∧
      ¬ Pending (updateBreak e s p hops).timers (.helloTimer p) := by
  obtain ⟨s₁, hidle, hno, hrest⟩ := updateBreak_demoted e hs hp h
  have hp₁ := (hidle.linked p).2 hp
  have hw := (kept_invalidate e hp₁).wellFormed hidle.wellFormed
  refine ⟨(slides_route hrest p).2.2.2 (state_invalidate e s₁ p), fun hh => ?_⟩
  have hback := slides_hello hrest hw p hh
  cases hv : (s₁.rt p).state with
  | invalid =>
      rw [invalidate_invalid e s₁ hv] at hback
      exact hno hback
  | valid =>
      rw [pending_invalidate e hidle.wellFormed hv] at hback
      simp at hback

theorem update_parts (e : Env) {s : Daemon} (hs : WellFormed s) {p : Ptr} (hp : Linked s.rtTbl p)
    (next : Addr) (hops seqno lifetime : U32) (state : RtState) (flags : RtFlags) :
    ∃ s₁ f, s₁ = (updateBegin e (s.observe (.rtUpdate p (s.rt p) next hops seqno lifetime state
        flags)) p next hops lifetime state flags).1 ∧
      f = (updateBegin e (s.observe (.rtUpdate p (s.rt p) next hops seqno lifetime state flags)) p
        next hops lifetime state flags).2 ∧
      s₁.rt = s.rt ∧ s₁.timers = s.timers ∧ WellFormed s₁ ∧ s₁.rtTbl.tbl = s.rtTbl.tbl ∧
      ReflTransGen (Slide e) s₁ (updateBreak e s₁ p hops) ∧
      rtTableUpdate e s p next hops seqno lifetime state flags =
        updateFinish e (updateBreak e s₁ p hops) p next hops seqno lifetime state f := by
  let o : Obs := .rtUpdate p (s.rt p) next hops seqno lifetime state flags
  have hobs := (Kept.observe s o).wellFormed hs
  have hkept := kept_updateBegin e (s.observe o) p next hops lifetime state flags
  have hw := hkept.wellFormed hobs
  obtain ⟨hrt, htimers⟩ := updateBegin_frame e (s.observe o) p next hops lifetime state flags
  exact ⟨_, _, rfl, rfl, hrt, htimers, hw, hkept.keys.tbl,
    updateBreak_slides e hops ((hkept.keys.linked p).2 hp) hw, rfl⟩

namespace Ordered

variable {e : Env} {ev : Event} {s s' : Daemon} {p : Ptr}

theorem update (h : Ordered s) (hs : WellFormed s) {src : Source} {next : Addr} {hops seqno : U32}
    (lifetime : U32) (hp : Linked s.rtTbl p)
    (hl : Learned s.host.ipaddr ev (s.rt p).destSeqno src (s.rt p).destAddr next hops seqno
      lifetime) :
    Ordered (rtTableUpdate e s p next hops seqno lifetime .valid (s.rt p).flags) := by
  obtain ⟨s₁, f, hbegin, hf, hrt, htimers, hw₁, htbl, hslides, heq⟩ :=
    update_parts e hs hp next hops seqno lifetime .valid (s.rt p).flags
  have hlinked (q : Ptr) : Linked s₁.rtTbl q ↔ Linked s.rtTbl q := by rw [Linked, Linked, htbl]
  have hflags : f = { (s.rt p).flags with repair := false } :=
    hf.trans (updateBegin_flags e _ p next hops lifetime fun hv => (h.valid p hp hv).1)
  have h₁ : Ordered s₁ := by
    refine ⟨fun q hq hv => ?_, fun q hq => ?_⟩
    · rw [hrt] at hv ⊢
      rw [htimers]
      exact h.valid q ((hlinked q).1 hq) hv
    · rw [htimers] at hq
      rw [hrt]
      exact h.hello q hq
  have h₂ := h₁.slides hw₁ hslides
  have hw₂ := slides_wellFormed hslides hw₁
  rw [heq]
  have hafter := rt_updateFinish e (updateBreak e s₁ p hops) p p next hops seqno lifetime .valid f
  rw [if_pos rfl] at hafter
  refine h₂.apart (apart_updateFinish e hw₂ _ _ _ _ _ _) (fun q _ hq => ?_) (fun _ _ => ?_)
    fun hh => ?_
  · have hfinal := (update_sound e hs hp next hops seqno lifetime .valid (s.rt p).flags).wellFormed
    obtain ⟨s₃, hkept, heq'⟩ := update_kept e s hp next hops seqno lifetime .valid (s.rt p).flags
    rw [← heq, heq', tbl_routeFound] at hq
    exact (slides_linked hslides q).2 ((hlinked q).2 ((hkept.keys.linked q).1 hq))
  · rw [hafter, hflags]
    exact ⟨rfl, callee_updateFinish e _ _ _ _ _ _⟩
  · rw [hafter]
    have hback := hello_updateFinish e hw₂ _ _ _ _ _ _ hh
    by_cases hd : 1 < hops ∧ (s.rt p).hopcnt = 1
    · have hd₁ : 1 < hops ∧ (s₁.rt p).hopcnt = 1 := by rwa [hrt]
      exact absurd hback (demoted_down hw₁ ((hlinked p).2 hp) hd₁).2
    · have hd₁ : ¬ (1 < hops ∧ (s₁.rt p).hopcnt = 1) := by rwa [hrt]
      rw [updateBreak_same e hd₁, htimers] at hback
      rcases h.hello p hback with h1 | hu
      · have hone : hops = 1 := learned_hops hl fun hlt => hd ⟨hlt, h1⟩
        subst hone
        exact .inl rfl
      · rw [hflags]
        exact .inr hu

theorem move (h : Ordered s) (hs : WellFormed s) (hm : Move e ev s s') : Ordered s' := by
  have hw := move_wellFormed hm hs
  cases hm with
  | slide hm => exact h.slide hs hm
  | @updateTimeout p lifetime hl hp =>
      have hlinked := (kept_updateTimeout e lifetime hp).keys.linked
      refine h.apart (apart_updateTimeout e hs p lifetime) (fun q _ hq => (hlinked q).1 hq)
        (fun _ hv => ?_) fun hh => ?_
      · rw [rt_updateTimeout] at hv ⊢
        rw [callee_updateTimeout]
        exact h.valid p hp hv
      · rw [rt_updateTimeout]
        exact h.hello p ((pending_updateTimeout_ne e hs p lifetime (by simp)).1 hh)
  | @helloArm p now time hp hh =>
      have harm : Apart p s (helloUpdateTimeout e s p now time) := by
        refine Apart.trans ?_ (Apart.setRt _ p _)
        exact .frame rfl (.timerSetTimeout hs.coherent _ _ (by simpa using fun r hr => Ne.symm hr))
      have hself : (helloUpdateTimeout e s p now time).rt p =
          { s.rt p with lastHelloTime := now } := rt_setRt_self _ p _
      refine h.apart harm (fun q _ hq => hq) (fun _ hv => ?_) fun _ => ?_
      · rw [hself] at hv ⊢
        change _ ∧ (callee (timerSetTimeout _ _ s.timers _ _) _).1 = _
        rw [callee_timerSetTimeout]
        exact h.valid p hp hv
      · rw [hself]
        exact hh
  | @helloMark p ht hh hu =>
      rcases h.hello p ht with h1 | hu'
      · exact absurd h1 hh
      · rw [hu] at hu'
        cases hu'
  | @rerrSeqno p pkt udest hp _ _ _ =>
      refine h.apart (Apart.setRt _ p _).observed (fun q _ hq => hq) (fun _ hv => ?_) fun hh => ?_
      · rw [rt_setRt_self] at hv ⊢
        exact h.valid p hp hv
      · rw [rt_setRt_self]
        exact h.hello p hh
  | @repairTimeout p hp hr =>
      have hinv : (s.rt p).state = .invalid := h.invalid hp (hr.imp id fun hc => by simp [hc])
      have hlinked := (kept_localRepairTimeout e hp).keys.linked
      refine h.apart (apart_repairTimeout e hs p) (fun q _ hq => (hlinked q).1 hq)
        (fun _ hv => ?_) fun hh => ?_
      · rw [rt_repairTimeout, if_pos rfl] at hv
        cases hinv.symm.trans hv
      · rw [rt_repairTimeout, if_pos rfl]
        exact h.hello p (((pending_repairTimeout e hs p _).1 hh).resolve_left (by simp))
  | @delete p hp hh =>
      refine h.apart (apart_delete e s p) (fun q _ hq => ((linked_delete e s p q).1 hq).1)
        (fun hl => absurd rfl ((linked_delete e s p p).1 hl).2) fun hpend => ?_
      rw [timers_delete] at hpend
      simp at hpend
  | @expireIdle p hp hi hh =>
      refine h.apart (apart_pop s p) (fun q _ hq => hq) (fun _ hv => ?_) fun hpend => ?_
      · cases hi.symm.trans hv
      · exact h.hello p ((pending_timerRemove _ _ _).1 hpend).1
  | @insert src dest next hops seqno lifetime state hl =>
      obtain hi | ⟨hnew, hi⟩ := rtTableInsert_cases e s dest next hops seqno lifetime state .zero
      · rw [hi]
        exact h
      · rw [hi]
        let s₀ := s.observe (.rtInsert dest next hops seqno lifetime state .zero)
        have hs₀ : WellFormed s₀ := (Kept.observe s _).wellFormed hs
        have hself : (insertEntry e s₀ (newEntry dest next hops seqno state .zero) hops lifetime).rt
            s.brk = newEntry dest next hops seqno state .zero :=
          (rt_insertEntry e s₀ _ hops lifetime _).trans (rt_linkEntry_self s₀ _)
        have hapart := apart_insertEntry (r := newEntry dest next hops seqno state .zero) e hs₀ rfl
          hnew hops lifetime
        refine h.apart (p := s.brk) hapart.observed (fun q hq hlq => ?_) (fun _ hv => ?_)
          fun hpend => ?_
        · exact ((linked_insertEntry e s₀ _ hops lifetime q).1 hlq).resolve_left hq
        · rw [hself] at hv ⊢
          have hcall := callee_insertEntry (s := s₀) (r := newEntry dest next hops seqno state .zero)
            e hops lifetime
          rw [fitting, hv] at hcall
          exact ⟨rfl, hcall⟩
        · exact absurd hpend (hello_insertEntry (r := newEntry dest next hops seqno state .zero)
            e hs₀ rfl hnew hops lifetime)
  | @update p src next hops seqno lifetime hp hl => exact h.update hs lifetime hp hl
  | @seekNew dest seqno ttl flags msec _ _ _ =>
      exact h.fresh (apart_seekNew e hs dest seqno ttl flags msec) hs hw rfl
  | @seekFail q _ => exact h.fresh (apart_seekFail e s s.brk q) hs hw rfl
  | @repairStart p hp hr =>
      have hinv := h.invalid hp (.inl hr)
      refine h.apart (p := p) (.frame rfl (.setHandler _ p _)) (fun q _ hq => hq) (fun _ hv => ?_)
        fun hpend => h.hello p hpend
      cases hinv.symm.trans hv

end Ordered

theorem ordered_init (e : Env) (ipaddr broadcast : Addr) (ifindex : Int) :
    Ordered (init e ipaddr broadcast ifindex) := by
  have hno (p : Ptr) : ¬ Linked (init e ipaddr broadcast ifindex).rtTbl p := by
    rintro ⟨i, hp⟩
    exact List.not_mem_nil hp
  exact ⟨fun p hp => absurd hp (hno p), fun p hp =>
    absurd ((wellFormed_init e ipaddr broadcast ifindex).owned (.helloTimer p) hp) (hno p)⟩

theorem Reachable.ordered {e : Env} {s : Daemon} (h : Reachable e s) : Ordered s :=
  (Reachable.moves (C := fun _ => True) (J := Ordered) (fun _ _ _ => id) (ordered_init e)
    (fun _ _ _ hs _ hJ hm => hJ.move hs hm) h trivial).2

end Aodv
