import Aodv.Events

namespace Aodv.RingSearch

open Lib.Bytes

structure Elsewhere (s s' : Daemon) : Prop where
  said : Said (fun o => ¬ Mark o) s s'
  brk : s.brk ≤ s'.brk
  seeks : ∀ q ∈ s'.sl, q < s.brk → q ∈ s.sl ∧ s'.seek q = s.seek q

namespace Elsewhere

variable {s s' s'' : Daemon}

theorem trans (h : Elsewhere s s') (h' : Elsewhere s' s'') : Elsewhere s s'' where
  said := h.said.trans h'.said
  brk := Nat.le_trans h.brk h'.brk
  seeks := by
    intro q hq hlt
    obtain ⟨hq', heq'⟩ := h'.seeks q hq (Nat.lt_of_lt_of_le hlt h.brk)
    obtain ⟨hq'', heq⟩ := h.seeks q hq' hlt
    exact ⟨hq'', heq'.trans heq⟩

theorem same (hsaid : Said (fun o => ¬ Mark o) s s') (hbrk : s.brk ≤ s'.brk) (hsl : s'.sl = s.sl)
    (hm : s'.seekMem = s.seekMem) : Elsewhere s s' := by
  refine ⟨hsaid, hbrk, fun q hq _ => ⟨hsl ▸ hq, ?_⟩⟩
  rw [Daemon.seek, hm]
  rfl

end Elsewhere

theorem not_mark_of_table {a : Arch} {l : List Obs} {o : Obs} (h : TableObs a l o) : ¬ Mark o := by
  rintro ⟨⟩ <;> rcases h with ⟨⟨⟨⟨⟩⟩⟩⟩

theorem not_mark_of_lb {o : Obs} (h : LbObs o) : ¬ Mark o :=
  not_mark_of_table (a := .long64) (l := []) (.quiet (.lb h))

theorem elsewhere_quiet {e : Env} {ev : Event} {s s' : Daemon} (h : Quiet e ev s s')
    (hs : WellFormed s) : Elsewhere s s' := by
  have hcalm := quiet_calm h hs
  exact .same ((quiet_said h hs).mono fun _ ho => not_mark_of_table (.quiet ho))
    (quiet_sound h hs).brk hcalm.sl hcalm.seek

theorem elsewhere_kept {s s' : Daemon} (h : Kept s s') (hsaid : Said (fun o => ¬ Mark o) s s') :
    Elsewhere s s' := .same hsaid (Nat.le_of_eq h.brk.symm) h.sl h.seek

theorem elsewhere_routeFound (s : Daemon) (p : Ptr) : Elsewhere s (routeFound s p) := by
  refine ⟨.same (routeFound_trace s p), ?_, ?_⟩
  all_goals
    rw [routeFound]
    split
    · cases seekListCheck s (s.rt p).destAddr with
      | none => first | exact Nat.le_refl _ | exact fun q hq _ => ⟨hq, rfl⟩
      | some r => first | exact Nat.le_refl _ | exact fun q hq _ => ⟨(List.mem_filter.1 hq).1, rfl⟩
    · first | exact Nat.le_refl _ | exact fun q hq _ => ⟨hq, rfl⟩

theorem elsewhere_insert (e : Env) {s : Daemon} (hs : WellFormed s) (dest next : Addr)
    (hops seqno lifetime : U32) (state : RtState) (flags : RtFlags) :
    Elsewhere s (rtTableInsert e s dest next hops seqno lifetime state flags).1 := by
  refine ⟨(insert_said (l := []) e s _ _ _ _ _ _ _).mono fun _ => not_mark_of_table,
    (insert_sound e hs _ _ _ _ _ _ _).brk, ?_⟩
  obtain h | ⟨_, s', hkept, h⟩ := insert_kept e s dest next hops seqno lifetime state flags
  · rw [h]
    exact fun q hq _ => ⟨hq, rfl⟩
  · rw [h]
    intro q hq hlt
    have hlt' : q < s'.brk := hkept.brk.symm ▸ Nat.lt_succ_of_lt hlt
    obtain ⟨hq', heq⟩ := (elsewhere_routeFound s' s.brk).seeks q hq hlt'
    have hsl : s'.sl = s.sl := hkept.sl
    refine ⟨hsl ▸ hq', heq.trans ?_⟩
    rw [Daemon.seek, hkept.seek]
    rfl

theorem elsewhere_update (e : Env) {s : Daemon} {p : Ptr} (hp : Linked s.rtTbl p) (next : Addr)
    (hops seqno lifetime : U32) (state : RtState) (flags : RtFlags) :
    Elsewhere s (rtTableUpdate e s p next hops seqno lifetime state flags) := by
  have hsaid : Said (fun o => ¬ Mark o) s
      (rtTableUpdate e s p next hops seqno lifetime state flags) :=
    update_told (.of_lb fun _ => not_mark_of_lb) e hp (by rintro ⟨⟩)
  obtain ⟨s₁, hkept, heq⟩ := update_kept e s hp next hops seqno lifetime state flags
  rw [heq] at hsaid ⊢
  have hsaid₁ : Said (fun o => ¬ Mark o) s s₁ := by
    obtain ⟨l, hl, hm⟩ := hsaid
    exact ⟨l, (routeFound_trace s₁ p).symm.trans hl, hm⟩
  exact (elsewhere_kept hkept hsaid₁).trans (elsewhere_routeFound s₁ p)

theorem elsewhere_record (e : Env) {s : Daemon} (m : RREQ) (src : Addr) :
    Elsewhere s (rreqRecordInsert e (s.observe (.rreqAccepted m src)) m.origAddr m.rreqId) := by
  have hsaid := (record_said (l := []) e s m src).mono fun _ => not_mark_of_table
  rw [rreqRecordInsert] at hsaid ⊢
  split
  next hc =>
    rw [hc] at hsaid
    exact .same hsaid (Nat.le_refl _) rfl rfl
  next hc =>
    rw [hc] at hsaid
    exact .same hsaid (Nat.le_succ _) rfl rfl

theorem elsewhere_reverse (e : Env) {s : Daemon} (hs : WellFormed s) (m : RREQ) (src : Addr) :
    Elsewhere s (rreqReverse e s m src).1 := by
  rw [rreqReverse]
  dsimp only
  cases hc : rtTableCheck s.rtTbl m.origAddr with
  | none => exact elsewhere_insert e hs _ _ _ _ _ _ _
  | some p =>
      dsimp only
      split
      · exact elsewhere_update e (rtTableCheck_some hc).1 _ _ _ _ _ _
      · exact .same (.same rfl) (Nat.le_refl _) rfl rfl

theorem elsewhere_repair (e : Env) {s : Daemon} {p : Ptr} (src : Addr) :
    Elsewhere s (rreqLocalRepair e s p src) := by
  rw [rreqLocalRepair]
  split
  · exact .same (.same rfl) (Nat.le_refl _) rfl rfl
  · split
    · exact .same (.same rfl) (Nat.le_refl _) rfl rfl
    · obtain ⟨q, n, hq⟩ := seekRefresh_eq e (repairStart s.tock p) p (e.clock s.tick)
      dsimp only
      rw [hq]
      generalize repairTtl s p src = ttl
      let s₁ : Daemon := { repairStart s.tock p with timers := q, tick := n }
      have hstart : Elsewhere s s₁ := .same (.one rfl (by rintro ⟨⟩)) (Nat.le_refl _) rfl rfl
      refine hstart.trans ?_
      change Elsewhere s₁ (repairSend e s₁ (s₁.rt p).destAddr (s₁.rt p).destSeqno ttl)
      obtain ⟨_, hsl, hmem, _, hbrk⟩ :=
        rreqSend_frame e s₁ (s₁.rt p).destAddr (s₁.rt p).destSeqno ttl 0
      have hsaid := rreqSend_said (l := []) e s₁ (s₁.rt p).destAddr (s₁.rt p).destSeqno ttl 0
      refine ⟨?_, ?_, ?_⟩
      · have hsent : Said (fun o => ¬ Mark o) s₁
            (rreqSend e s₁ (s₁.rt p).destAddr (s₁.rt p).destSeqno ttl 0) := by
          rw [rreqSend]
          split
          · exact .one rfl (by rintro ⟨⟩)
          · exact .same rfl
        exact hsent.trans (.same rfl)
      · exact Nat.le_trans (Nat.le_of_eq hbrk.symm) (Nat.le_succ _)
      · intro q' hq' hlt
        have hne : q' ≠ (rreqSend e s₁ (s₁.rt p).destAddr (s₁.rt p).destSeqno ttl 0).brk := by
          rw [hbrk]
          exact Nat.ne_of_lt hlt
        have hq'' : q' ∈ (rreqSend e s₁ (s₁.rt p).destAddr (s₁.rt p).destSeqno ttl 0).sl :=
          (List.mem_cons.1 hq').resolve_left hne
        refine ⟨hsl ▸ hq'', ?_⟩
        change Function.update _ _ _ q' = _
        rw [Function.update_of_ne hne, hmem]
        rfl

/-- Every step is about no discovery, starts one, or is the timeout of one. -/
theorem coarse_elsewhere {e : Env} {ev : Event} {s s' : Daemon} (h : Coarse e ev s s')
    (hs : WellFormed s) : Elsewhere s s' ∨
      (∃ dest flags, s' = rreqRouteDiscovery e s dest flags) ∨
      ∃ q ∈ s.sl, s' = routeDiscoveryTimeout e (pop s (.seekTimer q)) q := by
  cases h with
  | quiet h => exact .inl (elsewhere_quiet h hs)
  | insert lifetime state hsrc hl => exact .inl (elsewhere_insert e hs _ _ _ _ _ _ _)
  | update lifetime hp hsrc hl => exact .inl (elsewhere_update e hp _ _ _ _ _ _)
  | @accept pkt h ht horig hlen hnew =>
      have hrecord : Fine e ev s _ := .record h ht hnew
      exact .inl ((elsewhere_record e _ pkt.src).trans
        (elsewhere_reverse e (fine_sound hrecord hs).wellFormed _ _))
  | forUs h ht => exact .inl (.same (.one rfl (by rintro ⟨⟩)) (Nat.le_refl _) rfl rfl)
  | discover dest flags => exact .inr (.inl ⟨dest, flags, rfl⟩)
  | repair src hp => exact .inl (elsewhere_repair e src)
  | @discoveryTimeout q hq => exact .inr (.inr ⟨q, hq, rfl⟩)

def ttlBelow : List Obs → List Int
  | .socketSend (.rreq _) _ _ ttl _ :: _ => [ttl]
  | _ => []

def ttls (q : Ptr) : List Obs → List Int
  | [] => []
  | .discovery q' _ :: tr => if q' = q then ttlBelow tr ++ ttls q tr else ttls q tr
  | .discoveryAgain q' :: tr => if q' = q then ttlBelow tr ++ ttls q tr else ttls q tr
  | _ :: tr => ttls q tr

def FailsLate : List Obs → Prop
  | [] => True
  | o :: tr =>
      (∀ q found, o = .discoveryFailed q → .discovery q found ∈ tr → netDiameter ∈ ttls q tr) ∧
        FailsLate tr

structure FullSearch (tr : List Obs) : Prop where
  rising : ∀ q found, .discovery q found ∈ tr → (ttls q tr).Pairwise (· ≥ ·)
  bounded : ∀ q found, .discovery q found ∈ tr → ∀ ttl ∈ ttls q tr, ttl ≤ netDiameter
  late : FailsLate tr

/-- A discovery that starts from an entry whose hop count leaves room for two rings. -/
def startsWide : Obs → Bool
  | .discovery _ none => false
  | .discovery _ (some r) => decide (5 ≤ r.hopcnt.toNat ∧ r.hopcnt.toNat ≤ 33)
  | _ => true

def about : Obs → Option Ptr
  | .discovery q _ => some q
  | .discoveryAgain q => some q
  | .discoveryFailed q => some q
  | _ => none

theorem about_of_not_mark {o : Obs} (h : ¬ Mark o) : about o = none := by
  cases o with
  | discovery q found => exact absurd (.discovery q found) h
  | discoveryAgain q => exact absurd (.again q) h
  | discoveryFailed q => exact absurd (.failed q) h
  | _ => rfl

theorem ttls_cons {o : Obs} (q : Ptr) (tr : List Obs) (h : about o ≠ some q) :
    ttls q (o :: tr) = ttls q tr := by
  cases o with
  | discovery q' found => exact if_neg fun hq => h (congrArg some hq)
  | discoveryAgain q' => exact if_neg fun hq => h (congrArg some hq)
  | _ => rfl

theorem ttls_append (q : Ptr) (l tr : List Obs) (hl : ∀ o ∈ l, about o ≠ some q) :
    ttls q (l ++ tr) = ttls q tr := by
  induction l with
  | nil => rfl
  | cons o l ih =>
      have ho : about o ≠ some q := hl o List.mem_cons_self
      rw [List.cons_append, ttls_cons q _ ho]
      exact ih fun o' ho' => hl o' (List.mem_cons_of_mem o ho')

theorem ttls_fresh (q : Ptr) (tr : List Obs) (h : ∀ o ∈ tr, about o ≠ some q) : ttls q tr = [] := by
  have happend := ttls_append q tr [] h
  rwa [List.append_nil] at happend

theorem failsLate_append (l tr : List Obs) (hl : ∀ o ∈ l, ¬ Mark o) (h : FailsLate tr) :
    FailsLate (l ++ tr) := by
  induction l with
  | nil => exact h
  | cons o l ih =>
      refine ⟨fun q found ho => absurd (ho ▸ .failed q) (hl o List.mem_cons_self), ?_⟩
      exact ih fun o' ho' => hl o' (List.mem_cons_of_mem o ho')

theorem discovery_append {l tr : List Obs} (hl : ∀ o ∈ l, ¬ Mark o) {q : Ptr}
    {found : Option RtEntry} (h : .discovery q found ∈ l ++ tr) : .discovery q found ∈ tr := by
  rcases List.mem_append.1 h with h | h
  · exact absurd (.discovery q found) (hl _ h)
  · exact h

theorem discoverySend_does (e : Env) {s : Daemon} (hen : s.host.enabled = true) (dest : Addr)
    (seqno : U32) (ttl : Int) (flags : U8) (found : Option RtEntry) :
    ∃ m sent, (discoverySend e s dest seqno ttl flags found).trace =
        .discovery s.brk found :: .socketSend (.rreq m) aodvBroadcast rreqSize ttl sent :: s.trace ∧
      (discoverySend e s dest seqno ttl flags found).sl = s.brk :: s.sl ∧
      (discoverySend e s dest seqno ttl flags found).seekMem =
        Function.update s.seekMem s.brk ⟨dest, seqno, flags, 1, ttl⟩ ∧
      (discoverySend e s dest seqno ttl flags found).brk = s.brk + 1 := by
  rw [discoverySend, rreqSend, if_pos hen]
  exact ⟨_, _, rfl, rfl, rfl, rfl⟩

theorem seekAgain_does (e : Env) {s : Daemon} (hen : s.host.enabled = true) (q : Ptr)
    (now : Timeval) :
    ∃ m sent, (seekAgain e (pop s (.seekTimer q)).tock q now).trace =
        .discoveryAgain q :: .socketSend (.rreq m) aodvBroadcast rreqSize (ringNext e (s.seek q)).1
          sent :: s.trace ∧
      (seekAgain e (pop s (.seekTimer q)).tock q now).sl = s.sl ∧
      (seekAgain e (pop s (.seekTimer q)).tock q now).seekMem = Function.update s.seekMem q
        { s.seek q with ttl := (ringNext e (s.seek q)).1, rreqCnt := (s.seek q).rreqCnt + 1 } ∧
      (seekAgain e (pop s (.seekTimer q)).tock q now).brk = s.brk := by
  rw [seekAgain, seekRearm_eq]
  obtain ⟨tq, n, hs⟩ := refreshSought_eq e (ringArm e s q (ringNext e (s.seek q)).1
    (ringNext e (s.seek q)).2) ((pop s (.seekTimer q)).tock.seek q).destAddr now
  rw [hs]
  let s₁ : Daemon := { ringArm e s q (ringNext e (s.seek q)).1 (ringNext e (s.seek q)).2 with
    timers := tq, tick := n }
  have hseek : s₁.seek q = { s.seek q with ttl := (ringNext e (s.seek q)).1 } :=
    seek_setSeek_self (pop s (.seekTimer q)).tock q _
  change ∃ m sent, (seekSend e s₁ q).trace = _ ∧ (seekSend e s₁ q).sl = _ ∧
    (seekSend e s₁ q).seekMem = _ ∧ (seekSend e s₁ q).brk = _
  have hen' : s₁.host.enabled = true := hen
  rw [seekSend, rreqSend, if_pos hen', hseek]
  refine ⟨_, _, rfl, rfl, ?_, rfl⟩
  change Function.update (Function.update s.seekMem q _) q _ = _
  rw [Function.update_idem]
  congr 1
  change ({ s₁.seek q with rreqCnt := (s₁.seek q).rreqCnt + 1 } : SeekEntry) = _
  rw [hseek]

theorem seekGiveUp_does (e : Env) (s : Daemon) (q : Ptr) :
    ∃ l, (seekGiveUp e (pop s (.seekTimer q)).tock q).trace = l ++ .discoveryFailed q :: s.trace ∧
      (∀ o ∈ l, ¬ Mark o) ∧
      (seekGiveUp e (pop s (.seekTimer q)).tock q).sl = s.sl.filter (· ≠ q) ∧
      (seekGiveUp e (pop s (.seekTimer q)).tock q).seekMem = s.seekMem ∧
      (seekGiveUp e (pop s (.seekTimer q)).tock q).brk = s.brk := by
  let s₁ := (pop s (.seekTimer q)).tock.observe (.discoveryFailed q)
  have hfail : Said (fun o => ¬ Mark o) s₁ (Aodv.seekFail e s q) :=
    (noRoute_said e s₁ _).mono fun _ ho => not_mark_of_lb (.route ho.route)
  rw [seekGiveUp_eq, repairGiveUp]
  cases hr : rtTableCheck (Aodv.seekFail e s q).rtTbl (s.seek q).destAddr with
  | none =>
      obtain ⟨l, hl, hm⟩ := hfail
      exact ⟨l, hl, hm, rfl, rfl, rfl⟩
  | some p =>
      dsimp only
      split
      · have hkept := kept_localRepairTimeout e (rtTableCheck_some hr).1
        obtain ⟨l, hl, hm⟩ := hfail.trans
          ((repairTimeout_said e (Aodv.seekFail e s q) p).mono fun _ ho => not_mark_of_lb ho.lb)
        exact ⟨l, hl, hm, hkept.sl, hkept.seek, hkept.brk⟩
      · obtain ⟨l, hl, hm⟩ := hfail
        exact ⟨l, hl, hm, rfl, rfl, rfl⟩

/-- The RREQs sent so far for a discovery that started h hops wide: the first
ring, and then the whole network. -/
def Progress (s : Daemon) (q : Ptr) (h : Nat) : Prop :=
  (ttls q s.trace = [(h : Int) + ttlIncrement] ∧
    (q ∈ s.sl → (s.seek q).ttl = (h : Int) + ttlIncrement ∧ (s.seek q).rreqCnt = 1)) ∨
  (ttls q s.trace = [netDiameter, (h : Int) + ttlIncrement] ∧ (q ∈ s.sl → (s.seek q).rreqCnt = 2))

structure Searching (s : Daemon) : Prop where
  below : ∀ o ∈ s.trace, ∀ q, about o = some q → q < s.brk
  progress : ∀ q found, .discovery q found ∈ s.trace →
    ∃ h : Nat, 5 ≤ h ∧ h ≤ 33 ∧ Progress s q h
  late : FailsLate s.trace

theorem searching_elsewhere {s s' : Daemon} (hs : Searching s) (h : Elsewhere s s') :
    Searching s' := by
  obtain ⟨l, hl, hm⟩ := h.said
  have hother (q : Ptr) : ttls q s'.trace = ttls q s.trace := by
    rw [hl]
    refine ttls_append q l s.trace fun o ho hq => ?_
    rw [about_of_not_mark (hm o ho)] at hq
    cases hq
  refine ⟨?_, ?_, ?_⟩
  · intro o ho q hq
    rw [hl] at ho
    rcases List.mem_append.1 ho with ho | ho
    · rw [about_of_not_mark (hm o ho)] at hq
      cases hq
    · exact Nat.lt_of_lt_of_le (hs.below o ho q hq) h.brk
  · intro q found hd
    rw [hl] at hd
    have hd' := discovery_append hm hd
    obtain ⟨hops, hlow, hhigh, hprog⟩ := hs.progress q found hd'
    have hlt := hs.below _ hd' q rfl
    refine ⟨hops, hlow, hhigh, ?_⟩
    rcases hprog with ⟨htt, hseek⟩ | ⟨htt, hseek⟩
    · refine .inl ⟨(hother q).trans htt, fun hq => ?_⟩
      obtain ⟨hq', heq⟩ := h.seeks q hq hlt
      rw [heq]
      exact hseek hq'
    · refine .inr ⟨(hother q).trans htt, fun hq => ?_⟩
      obtain ⟨hq', heq⟩ := h.seeks q hq hlt
      rw [heq]
      exact hseek hq'
  · rw [hl]
    exact failsLate_append l s.trace hm hs.late

theorem searching_discoverySend {e : Env} {s : Daemon} (hs : Searching s) (hw : WellFormed s)
    {dest : Addr} {seqno : U32} {flags : U8} {r : RtEntry} (hlow : 5 ≤ r.hopcnt.toNat)
    (hhigh : r.hopcnt.toNat ≤ 33) :
    Searching (discoverySend e s dest seqno ((r.hopcnt.toNat : Int) + ttlIncrement) flags
      (some r)) := by
  obtain ⟨m, sent, htrace, hsl, hmem, hbrk⟩ := discoverySend_does e hw.enabled dest seqno
    ((r.hopcnt.toNat : Int) + ttlIncrement) flags (some r)
  generalize discoverySend e s dest seqno ((r.hopcnt.toNat : Int) + ttlIncrement) flags (some r) = s'
    at htrace hsl hmem hbrk
  have hfresh : ttls s.brk s.trace = [] := by
    refine ttls_fresh s.brk s.trace fun o ho hq => ?_
    exact Nat.lt_irrefl _ (hs.below o ho s.brk hq)
  refine ⟨?_, ?_, ?_⟩
  · intro o ho q hq
    rw [htrace] at ho
    rw [hbrk]
    rcases List.mem_cons.1 ho with rfl | ho
    · cases hq
      exact Nat.lt_succ_self _
    · rcases List.mem_cons.1 ho with rfl | ho
      · cases hq
      · exact Nat.lt_succ_of_lt (hs.below o ho q hq)
  · intro q found hd
    by_cases hq : q = s.brk
    · subst hq
      refine ⟨r.hopcnt.toNat, hlow, hhigh, .inl ⟨?_, fun _ => ?_⟩⟩
      · rw [htrace]
        simp only [ttls, if_true, ttlBelow, hfresh, List.append_nil]
      · rw [Daemon.seek, hmem, Function.update_self]
        exact ⟨rfl, rfl⟩
    · have hd' : .discovery q found ∈ s.trace := by
        rw [htrace] at hd
        rcases List.mem_cons.1 hd with hd | hd
        · exact absurd (by cases hd; rfl) hq
        · exact (List.mem_cons.1 hd).resolve_left (by rintro ⟨⟩)
      have hother : ttls q s'.trace = ttls q s.trace := by
        have hne : about (.discovery s.brk (some r)) ≠ some q := fun he =>
          hq (Option.some.inj he).symm
        rw [htrace, ttls_cons q _ hne]
        exact ttls_cons q _ (by rintro ⟨⟩)
      have hseek : s'.seek q = s.seek q := by
        rw [Daemon.seek, hmem, Function.update_of_ne hq]
        rfl
      have hmem' (hq' : q ∈ s'.sl) : q ∈ s.sl := by
        rw [hsl] at hq'
        exact (List.mem_cons.1 hq').resolve_left hq
      obtain ⟨hops, h1, h2, hprog⟩ := hs.progress q found hd'
      refine ⟨hops, h1, h2, ?_⟩
      rw [Progress, hother, hseek]
      exact hprog.imp (fun hp => ⟨hp.1, fun hq' => hp.2 (hmem' hq')⟩)
        fun hp => ⟨hp.1, fun hq' => hp.2 (hmem' hq')⟩
  · rw [htrace]
    exact ⟨fun q found ho => (by cases ho), fun q found ho => (by cases ho), hs.late⟩

theorem searching_discover {e : Env} (he : e.expandingRingSearch = true) {s : Daemon}
    (hs : Searching s) (hw : WellFormed s) (dest : Addr) (flags : U8)
    (hok : ∀ o ∈ (rreqRouteDiscovery e s dest flags).trace, startsWide o = true) :
    Searching (rreqRouteDiscovery e s dest flags) := by
  have htock : Searching s.tock :=
    searching_elsewhere hs (.same (.same rfl) (Nat.le_refl _) rfl rfl)
  have hw' : WellFormed s.tock := (Kept.tock s).wellFormed hw
  rw [rreqRouteDiscovery] at hok ⊢
  dsimp only at hok ⊢
  cases hc : seekListCheck s.tock dest with
  | some q => exact htock
  | none =>
      rw [hc] at hok
      cases hr : rtTableCheck s.tock.rtTbl dest with
      | none =>
          rw [hr] at hok
          obtain ⟨m, sent, htrace, _⟩ := discoverySend_does e hw'.enabled dest 0
            (if e.expandingRingSearch then ttlStart else netDiameter) flags none
          dsimp only at hok
          rw [htrace] at hok
          cases hok _ List.mem_cons_self
      | some p =>
          rw [hr] at hok
          dsimp only at hok ⊢
          rw [if_pos he] at hok ⊢
          obtain ⟨tq, n, hq⟩ := seekRefresh_eq e s.tock p (e.clock s.tick)
          rw [hq] at hok ⊢
          have hsame : Elsewhere s.tock { s.tock with timers := tq, tick := n } :=
            .same (.same rfl) (Nat.le_refl _) rfl rfl
          have hkept : WellFormed { s.tock with timers := tq, tick := n } := by
            rw [← hq, seekRefresh]
            split
            · exact (kept_updateTimeout e _ (rtTableCheck_some hr).1).wellFormed hw'
            · exact hw'
          obtain ⟨m, sent, htrace, _⟩ := discoverySend_does e hkept.enabled dest
            (s.tock.rt p).destSeqno (((s.tock.rt p).hopcnt.toNat : Int) + ttlIncrement) flags
            (some (s.tock.rt p))
          rw [htrace] at hok
          have hwide := of_decide_eq_true (hok _ List.mem_cons_self)
          exact searching_discoverySend (searching_elsewhere htock hsame) hkept hwide.1 hwide.2

theorem searching_seekAgain {e : Env} (he : e.expandingRingSearch = true) {s : Daemon}
    (hs : Searching s) (hw : WellFormed s) {q : Ptr} (hq : q ∈ s.sl)
    (hcnt : (s.seek q).rreqCnt < rreqRetries) (now : Timeval) :
    Searching (seekAgain e (pop s (.seekTimer q)).tock q now) := by
  obtain ⟨m, sent, htrace, hsl, hmem, hbrk⟩ := seekAgain_does e hw.enabled q now
  generalize seekAgain e (pop s (.seekTimer q)).tock q now = s' at htrace hsl hmem hbrk
  refine ⟨?_, ?_, ?_⟩
  · intro o ho q' hq'
    rw [htrace] at ho
    rw [hbrk]
    rcases List.mem_cons.1 ho with rfl | ho
    · cases hq'
      exact hw.seekBelow q hq
    · rcases List.mem_cons.1 ho with rfl | ho
      · cases hq'
      · exact hs.below o ho q' hq'
  · intro q' found hd
    have hd' : .discovery q' found ∈ s.trace := by
      rw [htrace] at hd
      have hd₁ := (List.mem_cons.1 hd).resolve_left (by rintro ⟨⟩)
      exact (List.mem_cons.1 hd₁).resolve_left (by rintro ⟨⟩)
    obtain ⟨h, hlow, hhigh, hprog⟩ := hs.progress q' found hd'
    refine ⟨h, hlow, hhigh, ?_⟩
    by_cases hne : q' = q
    · subst q'
      -- two RREQs have gone out only when the count has reached the retries
      rcases hprog with ⟨htt, hseek⟩ | ⟨_, hseek⟩
      · obtain ⟨httl, hone⟩ := hseek hq
        have hnext : (ringNext e (s.seek q)).1 = netDiameter := by
          have hwide : ¬ (s.seek q).ttl < ttlThreshold := by
            rw [httl]
            simp only [ttlIncrement, ttlThreshold]
            omega
          rw [ringNext, if_pos he]
          exact if_neg hwide
        refine .inr ⟨?_, fun _ => ?_⟩
        · rw [htrace, hnext]
          simp only [ttls, if_true, ttlBelow, htt]
          rfl
        · rw [Daemon.seek, hmem, Function.update_self, hone]
          rfl
      · rw [hseek hq] at hcnt
        exact absurd hcnt (by decide)
    · have hother : ttls q' s'.trace = ttls q' s.trace := by
        have hmark : about (.discoveryAgain q) ≠ some q' := fun hc => hne (Option.some.inj hc).symm
        rw [htrace, ttls_cons q' _ hmark]
        exact ttls_cons q' _ (by rintro ⟨⟩)
      have hseek : s'.seek q' = s.seek q' := by
        rw [Daemon.seek, hmem, Function.update_of_ne hne]
        rfl
      rw [Progress, hother, hseek, hsl]
      exact hprog
  · rw [htrace]
    exact ⟨fun q found ho => (by cases ho), fun q found ho => (by cases ho), hs.late⟩

theorem searching_seekGiveUp (e : Env) {s : Daemon} (hs : Searching s) (hw : WellFormed s) {q : Ptr}
    (hq : q ∈ s.sl) (hcnt : ¬ (s.seek q).rreqCnt < rreqRetries) :
    Searching (seekGiveUp e (pop s (.seekTimer q)).tock q) := by
  obtain ⟨l, htrace, hm, hsl, hmem, hbrk⟩ := seekGiveUp_does e s q
  generalize seekGiveUp e (pop s (.seekTimer q)).tock q = s' at htrace hsl hmem hbrk
  have hall (q' : Ptr) : ttls q' s'.trace = ttls q' s.trace := by
    rw [htrace]
    exact ttls_append q' l _ fun o ho hq' => by
      rw [about_of_not_mark (hm o ho)] at hq'
      cases hq'
  have hold {q' : Ptr} {found : Option RtEntry} (hd : .discovery q' found ∈ s'.trace) :
      .discovery q' found ∈ s.trace := by
    rw [htrace] at hd
    exact (List.mem_cons.1 (discovery_append hm hd)).resolve_left (by rintro ⟨⟩)
  refine ⟨?_, ?_, ?_⟩
  · intro o ho q' hq'
    rw [htrace] at ho
    rw [hbrk]
    rcases List.mem_append.1 ho with ho | ho
    · rw [about_of_not_mark (hm o ho)] at hq'
      cases hq'
    · rcases List.mem_cons.1 ho with rfl | ho
      · cases hq'
        exact hw.seekBelow q hq
      · exact hs.below o ho q' hq'
  · intro q' found hd
    obtain ⟨h, hlow, hhigh, hprog⟩ := hs.progress q' found (hold hd)
    have hseek : s'.seek q' = s.seek q' := by
      rw [Daemon.seek, hmem]
      rfl
    have hin (hq' : q' ∈ s'.sl) : q' ∈ s.sl := by
      rw [hsl] at hq'
      exact (List.mem_filter.1 hq').1
    refine ⟨h, hlow, hhigh, ?_⟩
    rw [Progress, hall, hseek]
    exact hprog.imp (fun hp => ⟨hp.1, fun hq' => hp.2 (hin hq')⟩)
      fun hp => ⟨hp.1, fun hq' => hp.2 (hin hq')⟩
  · rw [htrace]
    refine failsLate_append l _ hm ⟨?_, hs.late⟩
    rintro q' found ⟨⟩ hd
    obtain ⟨h, _, _, hprog⟩ := hs.progress q found hd
    rcases hprog with ⟨_, hseek⟩ | ⟨htt, _⟩
    · rw [(hseek hq).2] at hcnt
      exact absurd (by decide) hcnt
    · rw [htt]
      exact List.mem_cons_self

theorem searching_timeout {e : Env} (he : e.expandingRingSearch = true) {s : Daemon}
    (hs : Searching s) (hw : WellFormed s) {q : Ptr} (hq : q ∈ s.sl) :
    Searching (routeDiscoveryTimeout e (pop s (.seekTimer q)) q) := by
  rw [routeDiscoveryTimeout]
  split
  next hcnt => exact searching_seekAgain he hs hw hq hcnt _
  next hcnt => exact searching_seekGiveUp e hs hw hq hcnt

theorem fullSearch_of_searching {s : Daemon} (h : Searching s) : FullSearch s.trace where
  rising := by
    intro q found hd
    obtain ⟨hops, _, hhigh, ⟨htt, _⟩ | ⟨htt, _⟩⟩ := h.progress q found hd
    · rw [htt]
      exact List.pairwise_singleton _ _
    · have hle : (hops : Int) + ttlIncrement ≤ netDiameter := by
        simp only [ttlIncrement, netDiameter]
        omega
      rw [htt]
      simpa using hle
  bounded := by
    intro q found hd ttl httl
    obtain ⟨hops, _, hhigh, hprog⟩ := h.progress q found hd
    have hle : (hops : Int) + ttlIncrement ≤ netDiameter := by
      simp only [ttlIncrement, netDiameter]
      omega
    rcases hprog with ⟨htt, _⟩ | ⟨htt, _⟩
    · rw [htt] at httl
      rw [List.mem_singleton.1 httl]
      exact hle
    · rw [htt] at httl
      rcases List.mem_cons.1 httl with rfl | httl
      · exact Int.le_refl _
      · rw [List.mem_singleton.1 httl]
        exact hle
  late := h.late

theorem ring_search_full {e : Env} {s : Daemon} (he : e.expandingRingSearch = true)
    (h : Reachable e s) (hs : ∀ o ∈ s.trace, startsWide o = true) : FullSearch s.trace := by
  refine fullSearch_of_searching ?_
  have hall := Reachable.steps
    (I := fun s => (∀ o ∈ s.trace, startsWide o = true) → Searching s) ?_ ?_ ?_ h
  · exact hall.2.2 hs
  · intro ipaddr broadcast ifindex _
    exact ⟨fun o ho => absurd ho (List.not_mem_nil), fun q found hd => absurd hd (List.not_mem_nil),
      trivial⟩
  · exact fun s now _ _ hI hok => ⟨(hI hok).below, (hI hok).progress, (hI hok).late⟩
  · intro ev s s' hw hI hstep hok
    have hs := hI fun o ho => hok o ((coarse_trace hstep hw).subset ho)
    rcases coarse_elsewhere hstep hw with helse | ⟨dest, flags, rfl⟩ | ⟨q, hq, rfl⟩
    · exact searching_elsewhere hs helse
    · exact searching_discover he hs hw dest flags hok
    · exact searching_timeout he hs hw hq

def farRreq : Packet :=
  .of (.rreq ⟨false, false, false, false, false, 6, 1, 0x0800000a, 0, 0x0900000a, 3⟩) 0x0200000a
    aodvBroadcast 1 (fits_rreq _)

/-- The far node is sought, and no answer comes. -/
theorem ring_search_full_far :
    FullSearch (run plain (init plain 0x0100000a 0xff00000a 2)
      [.recv farRreq, .kernel (.routeReq 0x0900000a), .fire (.seekTimer 3),
        .fire (.seekTimer 3)]).trace :=
  ring_search_full rfl ⟨_, _, _, _, rfl⟩ (by decide +kernel)

/-- A destination without an entry is given up after the rings 2 and 4. -/
theorem ring_search_gives_up : ¬ ∀ s, Reachable plain s → FullSearch s.trace := by
  intro hall
  let s := run plain (init plain 0x0100000a 0xff00000a 2)
    [.kernel (.routeReq 0x0900000a), .fire (.seekTimer 0), .fire (.seekTimer 0)]
  have hlate := (hall s ⟨_, _, _, _, rfl⟩).late
  have htrace : ∃ tr, s.trace = .nl (.noRouteFound 0x0900000a) :: .discoveryFailed 0 :: tr ∧
      .discovery 0 none ∈ tr ∧ ttls 0 tr = [4, 2] :=
    ⟨s.trace.tail.tail, by decide +kernel, by decide +kernel, by decide +kernel⟩
  obtain ⟨tr, htr, hd, htt⟩ := htrace
  rw [htr] at hlate
  have hfull := hlate.2.1 0 none rfl hd
  rw [htt] at hfull
  revert hfull
  decide

end Aodv.RingSearch
