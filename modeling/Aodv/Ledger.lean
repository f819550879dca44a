import Aodv.Delivery

namespace Aodv.Kernel

open Lib.Bytes Relation

/-- What a receiver of the netlink messages has booked about the routes: the
messages about a new route enter its key and strike out the keys it replaces,
those that take a route down strike out the keys it clears. -/
structure Books (K : Type) where
  has : List Obs → K → Prop
  key : Addr → Addr → Int → K
  dest : K → Addr
  replaces : K → K → Prop
  clears : K → K → Prop
  dest_key : ∀ d n m, dest (key d n m) = d
  replaces_dest : ∀ {k k'}, replaces k k' → dest k = dest k'
  clears_dest : ∀ {k k'}, clears k k' → dest k = dest k'
  clears_self : ∀ k, clears k k
  has_nil : ∀ k, ¬ has [] k
  has_up : ∀ l d n hops lifetime flags ifindex k,
    has (upMsgs d n hops lifetime flags ifindex ++ l) k ↔
      k = key d n hops.toInt ∨ has l k ∧ ¬ replaces (key d n hops.toInt) k
  has_down : ∀ l r k, has (downMsgs r ++ l) k ↔
    has l k ∧ ¬ clears (key r.destAddr r.nextHop r.hopcnt.toNat) k

def Tells (r : RtEntry) (next : Addr) : Prop :=
  r.state = .invalid ∨ (r.nextHop ≠ 0 ∧ r.nextHop ≠ next)

def Demotes (r : RtEntry) (hops : U32) : Prop := 1 < hops ∧ r.hopcnt = 1

instance (r : RtEntry) (next : Addr) : Decidable (Tells r next) := by
  unfold Tells
  infer_instance

instance (r : RtEntry) (hops : U32) : Decidable (Demotes r hops) := by
  unfold Demotes
  infer_instance

namespace Books

variable {K : Type} (L : Books K)

def keyOf (r : RtEntry) : K := L.key r.destAddr r.nextHop r.hopcnt.toNat

def held (s : Daemon) (k : K) : Prop := ∃ d n h, Holds s d n h ∧ k = L.key d n h.toNat

/-- The books agree with the routing table. -/
def Balanced (s : Daemon) : Prop := ∀ k, L.has (netlinked s) k ↔ L.held s k

/-- What is booked for the address of the entry after an update is the one new route. -/
def Fits (r : RtEntry) (next : Addr) (hops : U32) : Prop :=
  ∀ k, L.dest k = r.destAddr →
    (((Tells r next ∧ k = L.key r.destAddr next hops.toInt) ∨
        ((r.state = .valid ∧ k = L.keyOf r) ∧
          ¬ (Tells r next ∧ L.replaces (L.key r.destAddr next hops.toInt) k))) ∧
      ¬ (r.state = .valid ∧ Demotes r hops ∧ L.clears (L.keyOf r) k) ↔
      k = L.key r.destAddr next (hops.setWidth 8 : U8).toNat)

variable {L} {e : Env} {ev : Event} {s s' : Daemon} {p : Ptr}

theorem held_congr (h : ∀ d n m, Holds s' d n m ↔ Holds s d n m) (k : K) :
    L.held s' k ↔ L.held s k := by
  apply exists_congr
  intro d
  apply exists_congr
  intro n
  apply exists_congr
  intro m
  rw [h]

theorem held_entry (hs : WellFormed s) (hp : Linked s.rtTbl p) {k : K}
    (hd : L.dest k = (s.rt p).destAddr) :
    L.held s k ↔ (s.rt p).state = .valid ∧ k = L.keyOf (s.rt p) := by
  constructor
  · rintro ⟨d, n, h, hh, rfl⟩
    rw [L.dest_key] at hd
    subst hd
    obtain ⟨hv, rfl, rfl⟩ := holds_dest hs hp hh
    exact ⟨hv, rfl⟩
  · rintro ⟨hv, rfl⟩
    exact ⟨_, _, _, ⟨p, hp, hv, rfl, rfl, rfl⟩, rfl⟩

theorem held_unique (hs : WellFormed s) {k k' : K} (h : L.held s k) (h' : L.held s k')
    (hd : L.dest k' = L.dest k) : k' = k := by
  obtain ⟨d, n, m, ⟨p, hp, hv, rfl, rfl, rfl⟩, rfl⟩ := h
  rw [L.dest_key] at hd
  exact ((held_entry hs hp hd).1 h').2

theorem held_change {d n₀ : Addr} {m₀ : U8} {P : Prop}
    (h : ∀ d' n m, Holds s' d' n m ↔
      (d' ≠ d ∧ Holds s d' n m) ∨ (P ∧ d' = d ∧ n = n₀ ∧ m = m₀)) (k : K) :
    L.held s' k ↔ (L.dest k ≠ d ∧ L.held s k) ∨ (P ∧ k = L.key d n₀ m₀.toNat) := by
  constructor
  · rintro ⟨d', n, m, hh, rfl⟩
    rcases (h d' n m).1 hh with ⟨hne, hh⟩ | ⟨hP, rfl, rfl, rfl⟩
    · rw [L.dest_key]
      exact .inl ⟨hne, d', n, m, hh, rfl⟩
    · exact .inr ⟨hP, rfl⟩
  · rintro (⟨hne, d', n, m, hh, rfl⟩ | ⟨hP, rfl⟩)
    · rw [L.dest_key] at hne
      exact ⟨d', n, m, (h d' n m).2 (.inl ⟨hne, hh⟩), rfl⟩
    · exact ⟨d, n₀, m₀, (h d n₀ m₀).2 (.inr ⟨hP, rfl, rfl, rfl⟩), rfl⟩

theorem held_invalidate (hs : WellFormed s) (hp : Linked s.rtTbl p) (k : K) :
    L.held (rtTableInvalidate e s p) k ↔ L.dest k ≠ (s.rt p).destAddr ∧ L.held s k := by
  have hholds (d' n : Addr) (m : U8) : Holds (rtTableInvalidate e s p) d' n m ↔
      (d' ≠ (s.rt p).destAddr ∧ Holds s d' n m) ∨
        (False ∧ d' = (s.rt p).destAddr ∧ n = 0 ∧ m = 0) := by
    simp [holds_invalidate hs hp]
  simpa using held_change (L := L) hholds k

def Drains (L : Books K) (s s' : Daemon) : Prop :=
  (∀ k, L.held s' k → L.held s k) ∧ ∀ k, L.has (netlinked s') k ↔
    L.has (netlinked s) k ∧ ¬ ∃ k', L.clears k' k ∧ L.held s k' ∧ ¬ L.held s' k'

theorem drains_idle (hi : ∀ k, L.held s' k ↔ L.held s k) (hn : netlinked s' = netlinked s) :
    L.Drains s s' := by
  refine ⟨fun k => (hi k).1, fun k => ?_⟩
  rw [hn]
  constructor
  · intro h
    refine ⟨h, ?_⟩
    rintro ⟨k', _, hk, hno⟩
    exact hno ((hi k').2 hk)
  · exact And.left

theorem drains_invalidate (hrel : Reliable e) (hs : WellFormed s) (hp : Linked s.rtTbl p)
    (hv : (s.rt p).state = .valid) : L.Drains s (rtTableInvalidate e s p) := by
  refine ⟨fun k hk => ((held_invalidate hs hp k).1 hk).2, fun k => ?_⟩
  rw [netlinked_invalidate hrel hv, L.has_down]
  apply and_congr_right
  intro _
  apply not_congr
  constructor
  · intro hc
    refine ⟨L.keyOf (s.rt p), hc, ?_, fun hh => ?_⟩
    · exact (held_entry hs hp (L.dest_key _ _ _)).2 ⟨hv, rfl⟩
    · exact ((held_invalidate hs hp _).1 hh).1 (L.dest_key _ _ _)
  · rintro ⟨k', hc, hk, hno⟩
    have hd : L.dest k' = (s.rt p).destAddr := by
      by_contra hne
      exact hno ((held_invalidate hs hp _).2 ⟨hne, hk⟩)
    obtain ⟨-, rfl⟩ := (held_entry hs hp hd).1 hk
    exact hc

theorem Drains.trans {s'' : Daemon} (h : L.Drains s s') (h' : L.Drains s' s'') :
    L.Drains s s'' := by
  refine ⟨fun k hk => h.1 k (h'.1 k hk), fun k => ?_⟩
  rw [h'.2, h.2, and_assoc]
  apply and_congr_right
  intro _
  constructor
  · rintro ⟨h₁, h₂⟩ ⟨k', hc, hk, hno⟩
    by_cases hmid : L.held s' k'
    · exact h₂ ⟨k', hc, hmid, hno⟩
    · exact h₁ ⟨k', hc, hk, hmid⟩
  · intro hno
    constructor
    · rintro ⟨k', hc, hk, hmid⟩
      exact hno ⟨k', hc, hk, fun hh => hmid (h'.1 k' hh)⟩
    · rintro ⟨k', hc, hmid, hlast⟩
      exact hno ⟨k', hc, h.1 k' hmid, hlast⟩

theorem drains_slide (hrel : Reliable e) (hs : WellFormed s) (hm : Slide e s s') :
    L.Drains s s' := by
  cases hm with
  | idle hi => exact drains_idle (held_congr fun _ _ _ => holds_idle hi) (netlinked_idle hi)
  | down hp hv => exact drains_invalidate hrel hs hp hv
  | @repair p hp hv =>
      have hmark : ((markRepair s p).rt p).state = .valid := by
        rw [markRepair, rt_setRt_self]
        exact hv
      have hfirst : L.Drains s (markRepair s p) :=
        drains_idle (held_congr fun _ _ _ => holds_markRepair) rfl
      exact hfirst.trans (drains_invalidate hrel ((kept_markRepair s p).wellFormed hs) hp hmark)

theorem drains_slides (hrel : Reliable e) (hs : WellFormed s) (hm : ReflTransGen (Slide e) s s') :
    L.Drains s s' := by
  induction hm with
  | refl => exact drains_idle (fun _ => Iff.rfl) rfl
  | tail hrun hm ih => exact ih.trans (drains_slide hrel (slides_wellFormed hrun hs) hm)

/-- Away from what was booked wrongly, the books follow the table. -/
theorem Drains.balanced (h : L.Drains s s') (hs : WellFormed s) {k : K}
    (hk : L.has (netlinked s) k ↔ L.held s k) : L.has (netlinked s') k ↔ L.held s' k := by
  rw [h.2, hk]
  constructor
  · rintro ⟨hh, hno⟩
    by_contra hlast
    exact hno ⟨k, L.clears_self k, hh, hlast⟩
  · intro hh
    refine ⟨h.1 k hh, ?_⟩
    rintro ⟨k', hc, hk', hlast⟩
    obtain rfl := held_unique hs (h.1 k hh) hk' (L.clears_dest hc)
    exact hlast hh

theorem Balanced.frame (h : L.Balanced s) (hn : netlinked s' = netlinked s)
    (hh : ∀ d n m, Holds s' d n m ↔ Holds s d n m) : L.Balanced s' := by
  intro k
  rw [hn, held_congr hh]
  exact h k

theorem Balanced.delete (h : L.Balanced s) (hp : Linked s.rtTbl p)
    (hi : (s.rt p).state = .invalid) : L.Balanced (rtTableDelete e s p) :=
  h.frame (netlinked_delete hi) fun _ _ _ => holds_delete hp hi

theorem Balanced.repairTimeout (h : L.Balanced s) (hrel : Reliable e) (hs : WellFormed s)
    (hp : Linked s.rtTbl p) (hi : (s.rt p).state = .invalid) :
    L.Balanced (localRepairTimeout e s p) := by
  have hheld (k : K) : L.held (localRepairTimeout e s p) k ↔ L.held s k := by
    refine held_congr (fun _ _ _ => holds_congr (kept_localRepairTimeout e hp).keys.linked ?_) k
    intro q
    rw [rt_repairTimeout]
    split
    next hq =>
      subst q
      exact ⟨rfl, rfl, rfl, rfl⟩
    · exact .refl _
  intro k
  rw [netlinked_repairTimeout hrel, L.has_down, hheld, h k]
  constructor
  · exact And.left
  · intro hk
    refine ⟨hk, fun hc => ?_⟩
    have hd := (L.clears_dest hc).symm.trans (L.dest_key _ _ _)
    cases hi.symm.trans ((held_entry hs hp hd).1 hk).1

theorem Balanced.insertEntry (h : L.Balanced s) (hrel : Reliable e) (hs : WellFormed s)
    {r : RtEntry} (hnew : ∀ p, Linked s.rtTbl p → (s.rt p).destAddr ≠ r.destAddr)
    (hops lifetime : U32)
    (hkey : r.state = .valid → L.key r.destAddr r.nextHop hops.toInt = L.keyOf r) :
    L.Balanced (Aodv.insertEntry e s r hops lifetime) := by
  have hheld (k : K) : L.held (Aodv.insertEntry e s r hops lifetime) k ↔
      L.held s k ∨ (r.state = .valid ∧ k = L.keyOf r) := by
    constructor
    · rintro ⟨d, n, m, hh, rfl⟩
      rcases (holds_insertEntry hs r hops lifetime).1 hh with hh | ⟨hv, rfl, rfl, rfl⟩
      · exact .inl ⟨d, n, m, hh, rfl⟩
      · exact .inr ⟨hv, rfl⟩
    · rintro (⟨d, n, m, hh, rfl⟩ | ⟨hv, rfl⟩)
      · exact ⟨d, n, m, (holds_insertEntry hs r hops lifetime).2 (.inl hh), rfl⟩
      · exact ⟨_, _, _, (holds_insertEntry hs r hops lifetime).2 (.inr ⟨hv, rfl, rfl, rfl⟩), rfl⟩
  have hother {k : K} (hk : L.held s k) : L.dest k ≠ r.destAddr := by
    obtain ⟨d, n, m, ⟨p, hp, hv, rfl, rfl, rfl⟩, rfl⟩ := hk
    rw [L.dest_key]
    exact hnew p hp
  intro k
  rw [netlinked_insertEntry hrel, hheld]
  cases hst : r.state with
  | invalid =>
      dsimp only
      rw [h k]
      simp
  | valid =>
      dsimp only
      rw [L.has_up, h k, hkey hst]
      constructor
      · rintro (rfl | ⟨hk, _⟩)
        · exact .inr ⟨rfl, rfl⟩
        · exact .inl hk
      · rintro (hk | ⟨-, rfl⟩)
        · refine .inr ⟨hk, fun hc => hother hk ?_⟩
          exact (L.replaces_dest hc).symm.trans (L.dest_key _ _ _)
        · exact .inl rfl

theorem held_updateFinish (hs : WellFormed s) (hp : Linked s.rtTbl p) (next : Addr)
    (hops seqno lifetime : U32) (flags : RtFlags) (k : K) :
    L.held (updateFinish e s p next hops seqno lifetime .valid flags) k ↔
      (L.dest k ≠ (s.rt p).destAddr ∧ L.held s k) ∨
        k = L.key (s.rt p).destAddr next (hops.setWidth 8 : U8).toNat := by
  have hholds (d' n : Addr) (m : U8) :
      Holds (updateFinish e s p next hops seqno lifetime .valid flags) d' n m ↔
        (d' ≠ (s.rt p).destAddr ∧ Holds s d' n m) ∨
          (True ∧ d' = (s.rt p).destAddr ∧ n = next ∧ m = hops.setWidth 8) := by
    rw [true_and]
    exact holds_updateFinish hs hp next hops seqno lifetime flags
  have h := held_change (L := L) hholds k
  rwa [true_and] at h

theorem has_updateBegin (hrel : Reliable e) (s : Daemon) (p : Ptr) (next : Addr)
    (hops lifetime : U32) (flags : RtFlags) (k : K) :
    L.has (netlinked (updateBegin e s p next hops lifetime .valid flags).1) k ↔
      (Tells (s.rt p) next ∧ k = L.key (s.rt p).destAddr next hops.toInt) ∨
        (L.has (netlinked s) k ∧
          ¬ (Tells (s.rt p) next ∧ L.replaces (L.key (s.rt p).destAddr next hops.toInt) k)) := by
  have hbegin := netlinked_updateBegin (s := s) (p := p) hrel next hops lifetime flags
  change _ = if Tells (s.rt p) next then _ else _ at hbegin
  rw [hbegin]
  split
  next ht =>
    rw [L.has_up]
    simp [ht]
  next ht => simp [ht]

theorem held_updateBreak (hs : WellFormed s) (hp : Linked s.rtTbl p) (hops : U32) {k : K}
    (hd : L.dest k = (s.rt p).destAddr) : L.held (updateBreak e s p hops) k ↔
      ((s.rt p).state = .valid ∧ ¬ Demotes (s.rt p) hops) ∧ k = L.keyOf (s.rt p) := by
  by_cases hdem : Demotes (s.rt p) hops
  · have hslides := updateBreak_slides e hops hp hs
    have hp' := (slides_linked hslides p).2 hp
    rw [held_entry (slides_wellFormed hslides hs) hp' (hd.trans (slides_route hslides p).1.symm),
      (demoted_down hs hp hdem).1]
    simp [hdem]
  · rw [updateBreak_same e hdem, held_entry hs hp hd]
    simp [hdem]

theorem Balanced.update (h : L.Balanced s) (hrel : Reliable e) (hs : WellFormed s)
    (hp : Linked s.rtTbl p) (next : Addr) (hops seqno lifetime : U32) (flags : RtFlags)
    (hfit : L.Fits (s.rt p) next hops) :
    L.Balanced (rtTableUpdate e s p next hops seqno lifetime .valid flags) := by
  obtain ⟨s₁, f, hbegin, -, hrt, -, hw₁, htbl, hslides, heq⟩ :=
    update_parts e hs hp next hops seqno lifetime .valid flags
  have hlinked (q : Ptr) : Linked s₁.rtTbl q ↔ Linked s.rtTbl q := by rw [Linked, Linked, htbl]
  have hheld (k : K) : L.held s₁ k ↔ L.held s k := by
    refine held_congr (fun _ _ _ => holds_congr hlinked fun q => ?_) k
    rw [hrt]
    exact .refl _
  have hhas (k : K) : L.has (netlinked s₁) k ↔
      (Tells (s.rt p) next ∧ k = L.key (s.rt p).destAddr next hops.toInt) ∨
        (L.has (netlinked s) k ∧
          ¬ (Tells (s.rt p) next ∧ L.replaces (L.key (s.rt p).destAddr next hops.toInt) k)) := by
    rw [hbegin]
    exact has_updateBegin hrel (s.observe (.rtUpdate p (s.rt p) next hops seqno lifetime .valid
      flags)) p next hops lifetime flags k
  have hdrains : L.Drains s₁ (updateBreak e s₁ p hops) := drains_slides hrel hw₁ hslides
  have hw₂ := slides_wellFormed hslides hw₁
  have hp₁ := (hlinked p).2 hp
  have hp₂ := (slides_linked hslides p).2 hp₁
  have hdest : ((updateBreak e s₁ p hops).rt p).destAddr = (s.rt p).destAddr := by
    rw [(slides_route hslides p).1, hrt]
  intro k
  rw [heq, netlinked_updateFinish, held_updateFinish hw₂ hp₂, hdest]
  by_cases hd : L.dest k = (s.rt p).destAddr
  · have hgone : (∃ k', L.clears k' k ∧ L.held s₁ k' ∧ ¬ L.held (updateBreak e s₁ p hops) k') ↔
        (s.rt p).state = .valid ∧ Demotes (s.rt p) hops ∧ L.clears (L.keyOf (s.rt p)) k := by
      constructor
      · rintro ⟨k', hc, hk, hno⟩
        have hd' : L.dest k' = (s₁.rt p).destAddr := (L.clears_dest hc).trans (hrt ▸ hd)
        obtain ⟨hv, rfl⟩ := (held_entry hw₁ hp₁ hd').1 hk
        rw [held_updateBreak hw₁ hp₁ hops hd'] at hno
        rw [hrt] at hv hno hc
        refine ⟨hv, ?_, hc⟩
        by_contra hdem
        exact hno ⟨⟨hv, hdem⟩, rfl⟩
      · rintro ⟨hv, hdem, hc⟩
        have hd' : L.dest (L.keyOf (s₁.rt p)) = (s₁.rt p).destAddr := L.dest_key _ _ _
        refine ⟨L.keyOf (s₁.rt p), by rwa [hrt], ?_, fun hk => ?_⟩
        · exact (held_entry hw₁ hp₁ hd').2 ⟨by rwa [hrt], rfl⟩
        · rw [← hrt] at hdem
          exact ((held_updateBreak hw₁ hp₁ hops hd').1 hk).1.2 hdem
    rw [hdrains.2, hhas, h k, held_entry hs hp hd, hgone, hfit k hd]
    simp [hd]
  · have hne {k' : K} (hk' : L.dest k' = (s.rt p).destAddr) : k ≠ k' := by
      rintro rfl
      exact hd hk'
    have hno : ¬ L.replaces (L.key (s.rt p).destAddr next hops.toInt) k := fun hr =>
      hd ((L.replaces_dest hr).symm.trans (L.dest_key _ _ _))
    have hk : L.has (netlinked s₁) k ↔ L.held s₁ k := by
      rw [hhas, hheld, h k]
      simp [hno, hne (L.dest_key _ _ _)]
    rw [hdrains.balanced hw₁ hk]
    simp [hd, hne (L.dest_key _ _ _)]

theorem Balanced.move (h : L.Balanced s) (hrel : Reliable e) (ho : Ordered s) (hs : WellFormed s)
    {C : Obs → Prop}
    (hins : ∀ dest next hops seqno lifetime flags,
      C (.rtInsert dest next hops seqno lifetime .valid flags) →
        L.key dest next hops.toInt = L.key dest next (hops.setWidth 8 : U8).toNat)
    (hupd : ∀ p r next hops seqno lifetime flags,
      C (.rtUpdate p r next hops seqno lifetime .valid flags) → L.Fits r next hops)
    (hc : ∀ o ∈ s'.trace, C o) (hm : Move e ev s s') : L.Balanced s' := by
  cases hm with
  | slide hm =>
      have hdrains : L.Drains s s' := drains_slide hrel hs hm
      exact fun k => hdrains.balanced hs (h k)
  | @updateTimeout p lifetime hl hp =>
      refine h.frame (netlinked_said (updateTimeout_said e s p lifetime)) fun _ _ _ => ?_
      refine holds_congr (kept_updateTimeout e lifetime hp).keys.linked fun q => ?_
      rw [rt_updateTimeout]
      exact .refl _
  | helloArm | helloMark | rerrSeqno => exact h.frame rfl fun _ _ _ => holds_setRt ⟨rfl, rfl, rfl, rfl⟩
  | repairTimeout hp hr =>
      exact h.repairTimeout hrel hs hp (ho.invalid hp (hr.imp id fun hc => by simp [hc]))
  | delete hp hh => exact h.delete hp (ho.invalid hp (.inr (by simp [hh])))
  | @insert src dest next hops seqno lifetime state hl =>
      obtain hi | ⟨hnew, hi⟩ := rtTableInsert_cases e s dest next hops seqno lifetime state .zero
      · rw [hi]
        exact h
      · rw [hi] at hc ⊢
        have hobs : L.Balanced (s.observe (.rtInsert dest next hops seqno lifetime state .zero)) :=
          h.frame rfl fun _ _ _ => Iff.rfl
        have hmem := (insertEntry_said e (s.observe (.rtInsert dest next hops seqno lifetime state
          .zero)) (newEntry dest next hops seqno state .zero) hops lifetime).suffix.subset
          List.mem_cons_self
        have hother (p : Ptr) (hp : Linked s.rtTbl p) : (s.rt p).destAddr ≠ dest := by
          obtain ⟨i, hb⟩ := hp
          rintro rfl
          have hbucket : hashing (s.rt p).destAddr = i := (hs.table.bucket i p hb).1
          subst hbucket
          exact hnew p hb rfl
        refine Balanced.insertEntry (r := newEntry dest next hops seqno state .zero) hobs hrel
          ((Kept.observe s _).wellFormed hs) hother hops lifetime ?_
        rintro rfl
        exact hins dest next hops seqno lifetime .zero (hc _ hmem)
  | @update p src next hops seqno lifetime hp hl =>
      have hmem := (update_said e hp next hops seqno lifetime .valid
        (s.rt p).flags).suffix.subset List.mem_cons_self
      exact h.update hrel hs hp next hops seqno lifetime _ (hupd _ _ _ _ _ _ _ (hc _ hmem))
  | expireIdle | seekNew | repairStart => exact h.frame rfl fun _ _ _ => Iff.rfl
  | @seekFail q hq =>
      have hno : netlinked (nlSendNoRouteFoundMsg e ((pop s (.seekTimer q)).tock.observe
          (.discoveryFailed q)) (s.seek q).destAddr) = netlinked s := by
        rw [nlSendNoRouteFoundMsg]
        split <;> rfl
      exact h.frame hno fun _ _ _ => Iff.rfl

theorem balanced_init (L : Books K) (e : Env) (ipaddr broadcast : Addr) (ifindex : Int) :
    L.Balanced (init e ipaddr broadcast ifindex) := by
  intro k
  constructor
  · exact fun h => absurd h (L.has_nil k)
  · rintro ⟨d, n, m, ⟨p, ⟨i, hp⟩, _⟩, _⟩
    exact absurd hp List.not_mem_nil

theorem balanced_of_reachable (L : Books K) {C : Obs → Prop}
    (hins : ∀ dest next hops seqno lifetime flags,
      C (.rtInsert dest next hops seqno lifetime .valid flags) →
        L.key dest next hops.toInt = L.key dest next (hops.setWidth 8 : U8).toNat)
    (hupd : ∀ p r next hops seqno lifetime flags,
      C (.rtUpdate p r next hops seqno lifetime .valid flags) → L.Fits r next hops)
    (hrel : Reliable e) (h : Reachable e s) (hc : ∀ o ∈ s.trace, C o) : L.Balanced s := by
  refine (Reachable.moves (C := fun tr => ∀ o ∈ tr, C o) (J := fun s => Ordered s ∧ L.Balanced s)
    ?_ ?_ ?_ h hc).2.2
  · exact fun tr tr' hsuf hall o ho => hall o (hsuf.subset ho)
  · exact fun ipaddr broadcast ifindex =>
      ⟨ordered_init e ipaddr broadcast ifindex, balanced_init L e ipaddr broadcast ifindex⟩
  · rintro ev s s' hs hc ⟨ho, hb⟩ hm
    exact ⟨ho.move hs hm, hb.move hrel ho hs hins hupd hc hm⟩

end Books

end Aodv.Kernel
