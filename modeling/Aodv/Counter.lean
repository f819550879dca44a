import Aodv.Lib.Sequences
import Aodv.Routes

namespace Aodv.Counter

open Lib.Bytes Lib.Sequences Relation

def isValid (r : RtEntry) : Bool := decide (r.state = .valid)

def active (t : RoutingTable) : Nat := (entries t).countP fun p => isValid (t.rtMem p)

theorem active_congr {t t' : RoutingTable} (htbl : t'.tbl = t.tbl)
    (h : ∀ p, (t'.rtMem p).state = (t.rtMem p).state) : active t' = active t := by
  simp only [active, entries, htbl, isValid, h]

theorem active_change {t t' : RoutingTable} {brk : Ptr} (ht : TableWf t brk) {p : Ptr}
    (hp : Linked t p) (htbl : t'.tbl = t.tbl) (h : ∀ q, q ≠ p → t'.rtMem q = t.rtMem q) :
    active t' + (isValid (t.rtMem p)).toNat = active t + (isValid (t'.rtMem p)).toNat := by
  have hentries : entries t' = entries t := by simp only [entries, htbl]
  rw [active, hentries]
  refine countP_change (f := fun q => isValid (t.rtMem q)) (g := fun q => isValid (t'.rtMem q))
    ht.entries_nodup ((mem_entries t p).2 hp) fun q _ hq => ?_
  rw [h q hq]

theorem active_insert {t t' : RoutingTable} {brk brk' : Ptr} (ht : TableWf t brk)
    (ht' : TableWf t' brk') {p : Ptr} (hp : ¬ Linked t p)
    (hl : ∀ q, Linked t' q ↔ q = p ∨ Linked t q) (h : ∀ q, q ≠ p → t'.rtMem q = t.rtMem q) :
    active t' = active t + (isValid (t'.rtMem p)).toNat := by
  refine countP_insert ht.entries_nodup ht'.entries_nodup ?_ ?_ ?_
  · rwa [mem_entries]
  · intro q
    rw [mem_entries, mem_entries]
    exact hl q
  · intro q hq
    have hne : q ≠ p := by
      rintro rfl
      exact hp ((mem_entries t q).1 hq)
    rw [h q hne]

/-- The counter is k ahead of the number of VALID entries. -/
def Ahead (k : U32) (s : Daemon) : Prop := s.rtTbl.numActive = BitVec.ofNat 32 (active s.rtTbl) + k

def Counted (s : Daemon) : Prop := s.rtTbl.numActive = BitVec.ofNat 32 (active s.rtTbl)

theorem ahead_zero {s : Daemon} : Ahead 0 s ↔ Counted s := by
  simp [Ahead, Counted]

/-- By how much an update puts the counter off: a neighbour that becomes a
farther node is counted down by its link break, and only a change from INVALID
to VALID is counted up. -/
def drift (old : RtEntry) (hops : U32) (state : RtState) : U32 :=
  match old.state, state with
  | .invalid, _ => 0
  | .valid, .valid => if 1 < hops ∧ old.hopcnt = 1 then -1 else 0
  | .valid, .invalid => if 1 < hops ∧ old.hopcnt = 1 then 0 else 1

/-- The updates that keep the counter right. -/
def keepsCount : Obs → Bool
  | .rtUpdate _ old _ hops _ _ state _ => decide (drift old hops state = 0)
  | _ => true

section Calls

variable {e : Env} {k : U32} {s s' : Daemon} {p : Ptr}

theorem Ahead.congr (h : Ahead k s) (htbl : s'.rtTbl.tbl = s.rtTbl.tbl)
    (hn : s'.rtTbl.numActive = s.rtTbl.numActive)
    (hst : ∀ p, (s'.rt p).state = (s.rt p).state) : Ahead k s' := by
  rw [Ahead, hn, active_congr htbl hst]
  exact h

theorem Ahead.idle (h : Ahead k s) (hi : Idle s s') : Ahead k s' :=
  h.congr hi.tbl hi.numActive fun p => (hi.rt p).state

def weight : RtState → U32
  | .invalid => 0
  | .valid => 1

theorem ofNat_isValid (r : RtEntry) : BitVec.ofNat 32 (isValid r).toNat = weight r.state := by
  rw [isValid]
  cases r.state <;> rfl

theorem Ahead.change {k' : U32} (h : Ahead k s) (hs : WellFormed s) (hp : Linked s.rtTbl p)
    (htbl : s'.rtTbl.tbl = s.rtTbl.tbl) (hother : ∀ q, q ≠ p → s'.rt q = s.rt q)
    (hn : s'.rtTbl.numActive + weight (s.rt p).state + k =
      s.rtTbl.numActive + weight (s'.rt p).state + k') : Ahead k' s' := by
  have hact := congrArg (BitVec.ofNat 32) (active_change hs.table hp htbl hother)
  simp only [BitVec.ofNat_add, ofNat_isValid] at hact
  rw [Ahead] at h ⊢
  change _ + weight (s.rt p).state = _ + weight (s'.rt p).state at hact
  grind

theorem Ahead.invalidate (h : Ahead k s) (hs : WellFormed s) (hp : Linked s.rtTbl p) :
    Ahead k (rtTableInvalidate e s p) := by
  cases hv : (s.rt p).state with
  | invalid =>
      rw [invalidate_invalid e s hv]
      exact h.congr rfl rfl fun _ => rfl
  | valid =>
      refine h.change hs hp (kept_invalidate e hp).keys.tbl (fun q hq => rt_invalidate_ne e s hq) ?_
      rw [state_invalidate, hv, rt_invalidate_valid e hv]
      change s.rtTbl.numActive - 1 + 1 + k = s.rtTbl.numActive + 0 + k
      grind

theorem Ahead.slide (h : Ahead k s) (hs : WellFormed s) (hm : Slide e s s') : Ahead k s' := by
  cases hm with
  | idle hi => exact h.idle hi
  | down hp hv => exact h.invalidate hs hp
  | @repair p hp hv =>
      have hmark : Ahead k (markRepair s p) := by
        refine h.congr rfl rfl fun q => ?_
        by_cases hq : q = p
        · subst q
          rw [markRepair, rt_setRt_self]
        · rw [markRepair, rt_setRt_ne s _ hq]
      exact hmark.invalidate ((kept_markRepair s p).wellFormed hs) hp

theorem Ahead.slides (h : Ahead k s) (hs : WellFormed s) (hm : ReflTransGen (Slide e) s s') :
    Ahead k s' := by
  induction hm with
  | refl => exact h
  | tail hrun hm ih => exact ih.slide (slides_wellFormed hrun hs) hm

theorem Ahead.delete (h : Ahead k s) (hs : WellFormed s) (hp : Linked s.rtTbl p) :
    Ahead k (rtTableDelete e s p) := by
  have hback (q : Ptr) : Linked s.rtTbl q ↔ q = p ∨ Linked (rtTableDelete e s p).rtTbl q := by
    rw [linked_delete]
    constructor
    · intro hq
      by_cases he : q = p
      · exact .inl he
      · exact .inr ⟨hq, he⟩
    · rintro (rfl | hq)
      · exact hp
      · exact hq.1
  have hact := active_insert (wellFormed_delete e hs hp).table hs.table
    (fun hl => ((linked_delete e s p p).1 hl).2 rfl) hback fun q hq => (rt_delete e s hq).symm
  have hstate : ((precursorListDestroy { s with rtTbl := listRemove s.rtTbl p } p).rt p).state =
      (s.rt p).state := by
    rw [precursorListDestroy, rt_setRt_self]
    rfl
  rw [Ahead] at h ⊢
  rw [hact, BitVec.ofNat_add, ofNat_isValid] at h
  change s.rtTbl.numActive = _ + weight (s.rt p).state + k at h
  have hnum : (rtTableDelete e s p).rtTbl.numActive =
      s.rtTbl.numActive - weight (s.rt p).state := by
    simp only [rtTableDelete]
    cases hv : (s.rt p).state with
    | invalid =>
        simp only [hstate.trans hv]
        exact (BitVec.sub_zero _).symm
    | valid =>
        simp only [hstate.trans hv]
        rfl
  rw [hnum]
  grind

theorem numActive_insertEntry (e : Env) (s : Daemon) (r : RtEntry) (hops lifetime : U32) :
    (insertEntry e s r hops lifetime).rtTbl.numActive =
      s.rtTbl.numActive + weight r.state := by
  have harm (s : Daemon) (l : U32) : (armEntry e s s.brk l).rtTbl = s.rtTbl := by
    rw [armEntry]
    split <;> rfl
  have hopen : (openEntry e (linkEntry s r) s.brk hops lifetime).1.rtTbl.numActive =
      s.rtTbl.numActive + weight r.state := by
    rw [openEntry, rt_linkEntry_self]
    cases r.state with
    | invalid =>
        dsimp only
        split <;> exact (BitVec.add_zero _).symm
    | valid => rfl
  rw [insertEntry, tbl_routeFound, armEntry]
  split <;> exact hopen

theorem Ahead.insert (h : Ahead k s) (hs : WellFormed s) (dest next : Addr)
    (hops seqno lifetime : U32) (state : RtState) (flags : RtFlags) :
    Ahead k (rtTableInsert e s dest next hops seqno lifetime state flags).1 := by
  obtain hi | ⟨hnew, hi⟩ := rtTableInsert_cases e s dest next hops seqno lifetime state flags
  · rw [hi]
    exact h
  · have hfinal := (insert_sound e hs dest next hops seqno lifetime state flags).wellFormed
    rw [hi] at hfinal ⊢
    let r := newEntry dest next hops seqno state flags
    let s₀ := s.observe (.rtInsert dest next hops seqno lifetime state flags)
    have hrt (q : Ptr) : (insertEntry e s₀ r hops lifetime).rt q = (linkEntry s₀ r).rt q :=
      rt_insertEntry e s₀ r hops lifetime q
    have hact := active_insert (p := s.brk) hs.table hfinal.table hs.brk_not_linked
      (linked_insertEntry e s₀ r hops lifetime) fun q hq =>
        (hrt q).trans (rt_linkEntry_ne s₀ r hq)
    have hself : (insertEntry e s₀ r hops lifetime).rt s.brk = r :=
      (hrt s.brk).trans (rt_linkEntry_self s₀ r)
    change active (insertEntry e s₀ r hops lifetime).rtTbl =
      active s.rtTbl + (isValid ((insertEntry e s₀ r hops lifetime).rt s.brk)).toNat at hact
    rw [hself] at hact
    rw [Ahead] at h ⊢
    change (insertEntry e s₀ r hops lifetime).rtTbl.numActive =
      BitVec.ofNat 32 (active (insertEntry e s₀ r hops lifetime).rtTbl) + k
    rw [numActive_insertEntry, hact, BitVec.ofNat_add, ofNat_isValid]
    change s.rtTbl.numActive + _ = _
    rw [h]
    grind

theorem drift_balance (n k : U32) (old : RtEntry) (hops : U32) (state : RtState) :
    n + weight (if 1 < hops ∧ old.hopcnt = 1 then .invalid else old.state) +
        (k + (if old.state = .invalid ∧ state = .valid then 1 else 0)) =
      n + weight state + (k + drift old hops state) := by
  unfold drift
  generalize old.state = st
  by_cases hd : 1 < hops ∧ old.hopcnt = 1
  · rw [if_pos hd]
    cases st <;> cases state
    · simp [weight]
    · simp only [weight, and_self, if_true]
      grind
    · simp only [weight, if_pos hd]
      simp
    · simp only [weight, if_pos hd]
      grind
  · rw [if_neg hd]
    cases st <;> cases state
    · simp [weight]
    · simp only [weight, and_self, if_true]
      grind
    · simp only [weight, if_neg hd]
      grind
    · simp only [weight, if_neg hd]
      simp

theorem numActive_updateFinish (e : Env) (s : Daemon) (p : Ptr) (next : Addr)
    (hops seqno lifetime : U32) (state : RtState) (flags : RtFlags) :
    (updateFinish e s p next hops seqno lifetime state flags).rtTbl.numActive =
        s.rtTbl.numActive ∧
      (updateFinish e s p next hops seqno lifetime state flags).rtTbl.tbl = s.rtTbl.tbl := by
  obtain ⟨s₁, hs₁, heq⟩ := updateFinish_eq e (s := s) (p := p) next hops seqno lifetime state flags
  rw [heq, tbl_routeFound]
  rcases hs₁ with rfl | rfl
  · exact ⟨rfl, rfl⟩
  · obtain ⟨q, n, h⟩ := updateTimeout_eq e (writeUpdate s p next hops seqno flags) p lifetime
    rw [h]
    exact ⟨rfl, rfl⟩

/-- The counter is raised before anything else, by an update from INVALID to VALID. -/
theorem ahead_updateBegin (h : Ahead k s) (next : Addr) (hops lifetime : U32) (state : RtState)
    (flags : RtFlags) :
    Ahead (k + (if (s.rt p).state = .invalid ∧ state = .valid then 1 else 0))
      (updateBegin e s p next hops lifetime state flags).1 := by
  rw [updateBegin]
  dsimp only
  split
  · rw [Ahead] at h ⊢
    change s.rtTbl.numActive + 1 = BitVec.ofNat 32 (active s.rtTbl) + (k + 1)
    rw [h]
    grind
  · have hsame : k + 0 = k := by simp
    rw [hsame]
    split
    · exact h.congr rfl rfl fun _ => rfl
    · exact h

theorem Ahead.update (h : Ahead k s) (hs : WellFormed s) (hp : Linked s.rtTbl p) (next : Addr)
    (hops seqno lifetime : U32) (state : RtState) (flags : RtFlags) :
    Ahead (k + drift (s.rt p) hops state)
      (rtTableUpdate e s p next hops seqno lifetime state flags) := by
  obtain ⟨s₁, f, hbegin, -, hrt, -, hw₁, htbl, hslides, heq⟩ :=
    Aodv.update_parts e hs hp next hops seqno lifetime state flags
  have hobs : Ahead k (s.observe (.rtUpdate p (s.rt p) next hops seqno lifetime state flags)) :=
    h.congr rfl rfl fun _ => rfl
  have h₁ : Ahead (k + (if (s.rt p).state = .invalid ∧ state = .valid then 1 else 0)) s₁ := by
    rw [hbegin]
    exact ahead_updateBegin hobs next hops lifetime state flags
  have hp₁ : Linked s₁.rtTbl p := by rw [Linked, htbl]; exact hp
  have h₂ := h₁.slides hw₁ hslides
  obtain ⟨hnum, htbl₂⟩ := numActive_updateFinish e (updateBreak e s₁ p hops) p next hops seqno
    lifetime state f
  rw [heq]
  refine h₂.change (slides_wellFormed hslides hw₁) ((slides_linked hslides p).2 hp₁) htbl₂
    (fun q hq => by rw [rt_updateFinish, if_neg hq]) ?_
  rw [hnum, rt_updateFinish, if_pos rfl]
  have hrtp : s₁.rt p = s.rt p := congrFun hrt p
  have hbreak : ((updateBreak e s₁ p hops).rt p).state =
      if 1 < hops ∧ (s.rt p).hopcnt = 1 then .invalid else (s.rt p).state := by
    split
    next hd => exact (Aodv.demoted_down hw₁ hp₁ (hrtp ▸ hd)).1
    next hd => rw [updateBreak_same e (hrtp ▸ hd), hrtp]
  rw [hbreak]
  exact drift_balance _ k (s.rt p) hops state

theorem Ahead.setRt (h : Ahead k s) {r : RtEntry} (hr : r.state = (s.rt p).state) :
    Ahead k (s.setRt p r) := by
  refine h.congr rfl rfl fun q => ?_
  by_cases hq : q = p
  · subst q
    rw [rt_setRt_self, hr]
  · rw [rt_setRt_ne s r hq]

theorem Ahead.repairTimeout (h : Ahead k s) (hp : Linked s.rtTbl p) :
    Ahead k (localRepairTimeout e s p) := by
  have hreport : (repairReport e (repairOver e s p) p).rtTbl = (repairOver e s p).rtTbl := by
    rw [repairReport]
    dsimp only
    split <;> rfl
  refine h.congr (kept_localRepairTimeout e hp).keys.tbl ?_ fun q => ?_
  · change (repairReport e (repairOver e s p) p).rtTbl.numActive = _
    rw [hreport]
    rfl
  · rw [rt_repairTimeout]
    by_cases hq : q = p
    · subst q
      rw [if_pos rfl]
    · rw [if_neg hq]

end Calls

theorem Counted.move {e : Env} {ev : Event} {s s' : Daemon} (h : Counted s) (hs : WellFormed s)
    (hok : ∀ o ∈ s'.trace, keepsCount o = true) (hm : Move e ev s s') : Counted s' := by
  have h0 : Ahead 0 s := ahead_zero.2 h
  refine ahead_zero.1 ?_
  cases hm with
  | slide hm => exact h0.slide hs hm
  | @updateTimeout p lifetime hl hp =>
      obtain ⟨q, n, heq⟩ := updateTimeout_eq e s p lifetime
      rw [heq]
      exact h0.congr rfl rfl fun _ => rfl
  | @helloArm p now time hp hh =>
      have harm : Ahead 0 { s with
          timers := timerSetTimeout e.arch (e.clock s.tick) s.timers (.helloTimer p) (time + helloDelay)
          tick := s.tick + 1 } := h0.congr rfl rfl fun _ => rfl
      exact harm.setRt rfl
  | @helloMark p ht hh hu =>
      have hpop : Ahead 0 (pop s (.helloTimer p)).tock := h0.congr rfl rfl fun _ => rfl
      exact hpop.setRt rfl
  | @rerrSeqno p pkt udest hp _ _ _ =>
      have hobs : Ahead 0 (s.observe (.rerrSeqno p (s.rt p) udest.2)) :=
        h0.congr rfl rfl fun _ => rfl
      exact hobs.setRt rfl
  | repairTimeout hp hr => exact h0.repairTimeout hp
  | delete hp hh => exact h0.delete hs hp
  | insert lifetime state hl => exact h0.insert hs _ _ _ _ _ _ _
  | @update p src next hops seqno lifetime hp hl =>
      have hmem := (update_said e hp next hops seqno lifetime .valid
        (s.rt p).flags).suffix.subset List.mem_cons_self
      have hdrift : drift (s.rt p) hops .valid = 0 := of_decide_eq_true (hok _ hmem)
      have hall := h0.update (e := e) hs hp next hops seqno lifetime .valid (s.rt p).flags
      rwa [hdrift] at hall
  | expireIdle | seekNew | repairStart => exact h0.congr rfl rfl fun _ => rfl
  | seekFail => exact h0.congr rfl rfl fun _ => rfl

/-- One call of the table's interface, on an entry that is in the table, or one
event of the main loop. -/
inductive Call (e : Env) : Daemon → Daemon → Prop
  | event {s : Daemon} (ev : Event) : Call e s (step e s ev)
  | insert {s : Daemon} (dest next : Addr) (hops seqno lifetime : U32) (state : RtState)
      (flags : RtFlags) : Call e s (rtTableInsert e s dest next hops seqno lifetime state flags).1
  | update {s : Daemon} {p : Ptr} (hp : Linked s.rtTbl p) (next : Addr)
      (hops seqno lifetime : U32) (state : RtState) (flags : RtFlags) :
      Call e s (rtTableUpdate e s p next hops seqno lifetime state flags)
  | invalidate {s : Daemon} {p : Ptr} (hp : Linked s.rtTbl p) : Call e s (rtTableInvalidate e s p)
  | delete {s : Daemon} {p : Ptr} (hp : Linked s.rtTbl p) : Call e s (rtTableDelete e s p)
  | linkBreak {s : Daemon} {p : Ptr} (hp : Linked s.rtTbl p) : Call e s (neighborLinkBreak e s p)

theorem Resting.sound {s s' : Daemon} (hs : Resting s) (h : Sound s s') : Resting s' := by
  have hbatch := h.batch
  rw [hs.batch] at hbatch
  exact ⟨h.wellFormed, List.sublist_nil.1 hbatch⟩

theorem call_resting {e : Env} {s s' : Daemon} (h : Call e s s') (hs : Resting s) :
    Resting s' := by
  cases h with
  | event ev => exact (step_moves hs ev).2
  | insert => exact Resting.sound hs (insert_sound e hs.wellFormed _ _ _ _ _ _ _)
  | update hp => exact Resting.sound hs (update_sound e hs.wellFormed hp _ _ _ _ _ _)
  | invalidate hp => exact Resting.sound hs ((kept_invalidate e hp).sound hs.wellFormed)
  | delete hp => exact Resting.sound hs (delete_sound e hs.wellFormed hp)
  | linkBreak hp => exact Resting.sound hs ((lb_kept (lb_linkBreak e hp)).sound hs.wellFormed)

theorem call_trace {e : Env} {s s' : Daemon} (h : Call e s s') (hs : Resting s) :
    s.trace <:+ s'.trace := by
  cases h with
  | event ev => exact moves_trace (step_moves hs ev).1
  | insert => exact (insert_said (l := []) e s _ _ _ _ _ _ _).suffix
  | update hp => exact (List.suffix_cons _ _).trans (update_said e hp _ _ _ _ _ _).suffix
  | invalidate hp => exact (invalidate_said e s _).suffix
  | delete hp => exact (delete_said e s _).suffix
  | linkBreak hp => exact (linkBreak_said e hp).suffix

theorem Counted.call {e : Env} {s s' : Daemon} (h : Counted s) (hs : Resting s)
    (hok : ∀ o ∈ s'.trace, keepsCount o = true) (hc : Call e s s') : Counted s' := by
  have h0 : Ahead 0 s := ahead_zero.2 h
  cases hc with
  | event ev =>
      exact step_keeps (e := e) (J := Counted) forall_mem_suffix
        (fun s s' hw hok hJ hm => hJ.move hw hok hm) hs h hok
  | insert => exact ahead_zero.1 (h0.insert hs.wellFormed _ _ _ _ _ _ _)
  | @update p hp next hops seqno lifetime state flags =>
      have hmem := (update_said e hp next hops seqno lifetime state
        flags).suffix.subset List.mem_cons_self
      have hdrift : drift (s.rt p) hops state = 0 := of_decide_eq_true (hok _ hmem)
      have hall := h0.update (e := e) hs.wellFormed hp next hops seqno lifetime state flags
      rw [hdrift] at hall
      exact ahead_zero.1 hall
  | invalidate hp => exact ahead_zero.1 (h0.invalidate hs.wellFormed hp)
  | delete hp => exact ahead_zero.1 (h0.delete hs.wellFormed hp)
  | linkBreak hp =>
      exact ahead_zero.1 (h0.slides hs.wellFormed
        (lbs_slides (lb_linkBreak e hp) hs.wellFormed))

/-- The states any sequence of calls leads to. -/
def CallReachable (e : Env) (s : Daemon) : Prop :=
  ∃ ipaddr broadcast ifindex, ReflTransGen (Call e) (init e ipaddr broadcast ifindex) s

theorem Reachable.calls {e : Env} {s : Daemon} (h : Reachable e s) : CallReachable e s := by
  obtain ⟨ipaddr, broadcast, ifindex, es, rfl⟩ := h
  have run_calls (es : List Event) (s : Daemon) : ReflTransGen (Call e) s (run e s es) := by
    induction es generalizing s with
    | nil => exact .refl
    | cons ev es ih => exact ReflTransGen.head (.event ev) (ih (step e s ev))
  exact ⟨ipaddr, broadcast, ifindex, run_calls es _⟩

theorem active_counted {e : Env} {s : Daemon} (h : CallReachable e s)
    (hc : ∀ o ∈ s.trace, keepsCount o = true) : Counted s := by
  obtain ⟨ipaddr, broadcast, ifindex, hrun⟩ := h
  have hall : Resting s ∧ ((∀ o ∈ s.trace, keepsCount o = true) → Counted s) := by
    clear hc
    induction hrun with
    | refl => exact ⟨resting_init e ipaddr broadcast ifindex, fun _ => rfl⟩
    | tail _ hcall ih =>
        refine ⟨call_resting hcall ih.1, fun hok => Counted.call (ih.2 ?_) ih.1 hok hcall⟩
        exact fun o ho => hok o ((call_trace hcall ih.1).subset ho)
  exact hall.2 hc

/-- A route and its neighbour are learned, and both run out. -/
theorem active_counted_lost :
    Counted (run plain (init plain 0x0100000a 0xff00000a 2)
      [.recv (.of (.rrep ⟨false, false, 0, 1, 0x0900000a, 7, 0x0800000a, 6000⟩) 0x0200000a
        0x0100000a 5 (fits_rrep _)), .fire (.rtTimer 0), .fire (.rtTimer 1)]) :=
  active_counted (Reachable.calls ⟨_, _, _, _, rfl⟩) (by decide +kernel)

def nearHello : Packet :=
  .of (.rrep ⟨false, false, 0, 0, 0x0200000a, 0, 0x0200000a, 2000⟩) 0x0200000a aodvBroadcast 1
    (fits_rrep _)

def farRreq : Packet :=
  .of (.rreq ⟨false, false, false, false, false, 1, 1, 0x0900000a, 0, 0x0200000a, 0⟩) 0x0300000a
    aodvBroadcast 5 (fits_rreq _)

/-- A neighbour becomes a farther node. -/
theorem active_miscounted : ¬ ∀ s, CallReachable plain s → Counted s := by
  intro hall
  let s := run plain (init plain 0x0100000a 0xff00000a 2) [.recv nearHello, .recv farRreq]
  have hcount := hall s (Reachable.calls ⟨_, _, _, _, rfl⟩)
  have hsee : s.rtTbl.numActive = 1 ∧ active s.rtTbl = 2 := by decide +kernel
  rw [Counted, hsee.1, hsee.2] at hcount
  revert hcount
  decide

end Aodv.Counter
