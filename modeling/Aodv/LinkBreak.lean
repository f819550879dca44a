import Aodv.Invariant
import Mathlib.Logic.Relation

namespace Aodv

open Lib.Bytes Relation

def Told (s : Daemon) (seqno : U32) : Prop :=
  seqno = 0 ∨ ∃ p, Linked s.rtTbl p ∧ seqno = (s.rt p).destSeqno

def markRepair (s : Daemon) (p : Ptr) : Daemon :=
  s.setRt p { s.rt p with flags := { (s.rt p).flags with repair := true } }

/-- What a link break does, one step at a time. -/
inductive Lb (e : Env) : Daemon → Daemon → Prop
  | tock (s : Daemon) : Lb e s s.tock
  | down {s : Daemon} {p : Ptr} (hp : Linked s.rtTbl p) (hv : (s.rt p).state = .valid) :
      Lb e s (rtTableInvalidate e s p)
  | repair {s : Daemon} {p : Ptr} (hp : Linked s.rtTbl p) (hv : (s.rt p).state = .valid) :
      Lb e s (rtTableInvalidate e (markRepair s p) p)
  | destroy {s : Daemon} {p : Ptr} (hp : Linked s.rtTbl p) (hi : (s.rt p).state = .invalid) :
      Lb e s (precursorListDestroy s p)
  | rerrNew {s : Daemon} (n : Bool) (dest : Addr) {seqno : U32} (hs : Told s seqno) :
      Lb e s (rerrCreate s n dest seqno).1
  | rerrAdd {s : Daemon} (m : RERR) (dest : Addr) {seqno : U32} (ht : s.sendBuf 0 = aodvRerr)
      (hs : Told s seqno) : Lb e s (rerrAddUdest s m dest seqno).1
  | rerrSend {s : Daemon} (m : RERR) (dest : Addr) (len : Int) (ht : s.sendBuf 0 = aodvRerr)
      (hc : m.udests.length ≤ 127 → Carries s (.rerr m) len) :
      Lb e s (aodvSocketSend e s (.rerr m) dest len 1)

theorem Lb.kept {e : Env} {s s' : Daemon} (h : Lb e s s') : Kept s s' := by
  cases h with
  | tock => exact Kept.tock s
  | down hp hv => exact kept_invalidate e hp
  | @repair p hp hv =>
      have hmark : Kept s (markRepair s p) := Kept.setRt s p _ rfl rfl
      exact hmark.trans (kept_invalidate e ((hmark.keys.linked p).2 hp))
  | destroy hp hi => exact kept_precursorListDestroy s _
  | rerrNew n dest hs => exact Kept.write s _
  | rerrAdd m dest ht hs => exact Kept.write s _
  | rerrSend m dest len ht hc => exact Kept.socketSend e s _ dest len 1

theorem lb_kept {e : Env} {s s' : Daemon} (h : ReflTransGen (Lb e) s s') : Kept s s' := by
  induction h with
  | refl => exact Kept.refl
  | tail _ h ih => exact ih.trans h.kept

structure Written (s : Daemon) (m : RERR) : Prop where
  type : s.sendBuf 0 = aodvRerr
  count : s.sendBuf 3 = BitVec.ofNat 8 m.udests.length
  nonempty : m.udests ≠ []
  bytes : m.udests.length ≤ 127 →
    ∀ i, i < 4 + 8 * m.udests.length → s.sendBuf i = rerrBuf m i

theorem written_create (s : Daemon) (n : Bool) (dest : Addr) (seqno : U32) :
    Written (rerrCreate s n dest seqno).1 (rerrCreate s n dest seqno).2 where
  type := by
    change store (storeUdest (rerrHeader n) (udestOffset 0) (dest, seqno)) 3 1 0 = aodvRerr
    rw [store_apply_of_ne _ _ _ _ (by decide), storeUdest_below _ _ (by decide)]
    rfl
  count := rfl
  nonempty := by simp [rerrCreate]
  bytes := by
    intro _ i _
    change store (storeUdest (rerrHeader n) (udestOffset 0) (dest, seqno)) 3 1 i =
      storeUdest (store (rerrHeader n) 3 1) (udestOffset 0) (dest, seqno) i
    by_cases hi : i = 3
    · subst i
      rw [storeUdest_below _ _ (by decide)]
      rfl
    · rw [store_apply_of_ne _ _ _ _ hi]
      exact storeUdest_congr _ _ (store_apply_of_ne _ _ _ _ hi).symm

theorem written_add {s : Daemon} {m : RERR} (h : Written s m) (dest : Addr) (seqno : U32) :
    Written (rerrAddUdest s m dest seqno).1 (rerrAddUdest s m dest seqno).2 := by
  have hoff : 4 ≤ (rerrCalcSize (s.sendBuf 3)).toNat := by
    rw [rerrCalcSize]
    omega
  refine ⟨?_, ?_, ?_, ?_⟩
  · change store (storeUdest s.sendBuf _ (dest, seqno)) 3 (s.sendBuf 3 + 1) 0 = aodvRerr
    rw [store_apply_of_ne _ _ _ _ (by decide), storeUdest_below _ _ (by omega)]
    exact h.type
  · change s.sendBuf 3 + 1 = BitVec.ofNat 8 (m.udests ++ [(dest, seqno)]).length
    rw [h.count, List.length_append, BitVec.ofNat_add]
    rfl
  · simp [rerrAddUdest]
  · intro hlen i hi
    have hlen' : m.udests.length + 1 ≤ 127 := by simpa [rerrAddUdest] using hlen
    have hi' : i < 4 + 8 * (m.udests.length + 1) := by simpa [rerrAddUdest] using hi
    have hoff' : (rerrCalcSize (s.sendBuf 3)).toNat = udestOffset m.udests.length := by
      rw [h.count, rerrCalcSize_ofNat (by omega), udestOffset]
      omega
    change store (storeUdest s.sendBuf (rerrCalcSize (s.sendBuf 3)).toNat (dest, seqno)) 3
      (s.sendBuf 3 + 1) i = storeUdests (store (rerrHeader m.n) 3
        (BitVec.ofNat 8 (m.udests ++ [(dest, seqno)]).length)) (m.udests ++ [(dest, seqno)]) i
    rw [storeUdests_snoc, hoff']
    by_cases h3 : i = 3
    · subst i
      rw [storeUdest_below _ _ (by simp only [udestOffset]; omega),
        storeUdests_header _ _ (by decide), store_apply_self, store_apply_self, h.count,
        List.length_append, BitVec.ofNat_add]
      rfl
    · rw [store_apply_of_ne _ _ _ _ h3]
      -- the record is written over what the shorter RERR has below its offset
      by_cases hlow : i < udestOffset m.udests.length
      · rw [storeUdest_below _ _ hlow, storeUdest_below _ _ hlow]
        have hold := h.bytes (by omega) i (by simp only [udestOffset] at hlow; omega)
        rw [hold, rerrBuf]
        refine storeUdests_congr _ ?_
        rw [store_apply_of_ne _ _ _ _ h3, store_apply_of_ne _ _ _ _ h3]
      · exact storeUdest_inside _ _ _ (by omega) (by simp only [udestOffset]; omega)

theorem Written.carries {s : Daemon} {m : RERR} (h : Written s m) (hlen : m.udests.length ≤ 127) :
    Carries s (.rerr m) (rerrCalcSize (s.sendBuf 3)) := by
  have hpos : 0 < m.udests.length := List.length_pos_iff.2 h.nonempty
  refine ⟨take_congr fun i hi => h.bytes hlen i ?_, ?_⟩
  · simp only [wireSize] at hi
    omega
  · rw [h.count, rerrCalcSize_ofNat hlen]
    simp only [wireSize]
    omega

theorem Written.same {s s' : Daemon} {m : RERR} (h : Written s m) (hs : s'.sendBuf = s.sendBuf) :
    Written s' m :=
  ⟨hs ▸ h.type, hs ▸ h.count, h.nonempty, hs ▸ h.bytes⟩

def Building (b : RerrBuild) : Prop := ∀ m, b.rerr = some m → Written b.s m

theorem Building.same {b b' : RerrBuild} (h : Building b) (hr : b'.rerr = b.rerr)
    (hs : b'.s.sendBuf = b.s.sendBuf) : Building b' := by
  intro m hm
  rw [hr] at hm
  exact (h m hm).same hs

theorem sendBuf_invalidate (e : Env) (s : Daemon) (p : Ptr) :
    (rtTableInvalidate e s p).sendBuf = s.sendBuf := by
  simp only [rtTableInvalidate]
  cases (s.tock.rt p).state <;> rfl

/-- One turn of a loop that builds an RERR: link-break steps, with the RERR so
far in the send buffer. -/
structure RerrTurn (e : Env) (b b' : RerrBuild) : Prop where
  steps : ReflTransGen (Lb e) b.s b'.s
  building : Building b'

theorem RerrTurn.refl {e : Env} {b : RerrBuild} (h : Building b) : RerrTurn e b b := ⟨.refl, h⟩

theorem RerrTurn.trans {e : Env} {b b' b'' : RerrBuild} (h : RerrTurn e b b') (h' : RerrTurn e b' b'') :
    RerrTurn e b b'' := ⟨h.steps.trans h'.steps, h'.building⟩

theorem turn_destroy {e : Env} {b : RerrBuild} (h : Building b) {p : Ptr}
    (hp : Linked b.s.rtTbl p) (hi : (b.s.rt p).state = .invalid) :
    RerrTurn e b { b with s := precursorListDestroy b.s p } :=
  ⟨.single (.destroy hp hi), h.same rfl rfl⟩

theorem turn_list {e : Env} {b : RerrBuild} (h : Building b) (n : Bool) {p : Ptr}
    (hp : Linked b.s.rtTbl p) : RerrTurn e b (rerrList b n p) := by
  have htold : Told b.s (b.s.rt p).destSeqno := .inr ⟨p, hp, rfl⟩
  rw [rerrList]
  cases hr : b.rerr with
  | none =>
      refine ⟨.single (.rerrNew n _ htold), ?_⟩
      rintro m ⟨⟩
      exact written_create b.s n _ _
  | some m =>
      refine ⟨.single (.rerrAdd m _ (h m hr).type htold), ?_⟩
      rintro m' ⟨⟩
      exact written_add (h m hr) _ _

theorem tbl_rerrList (b : RerrBuild) (n : Bool) (p : Ptr) :
    (rerrList b n p).s.rtTbl = b.s.rtTbl := by
  rw [rerrList]
  cases b.rerr <;> rfl

theorem trace_rerrList (b : RerrBuild) (n : Bool) (p : Ptr) :
    (rerrList b n p).s.trace = b.s.trace := by
  rw [rerrList]
  cases b.rerr <;> rfl

theorem state_invalidate (e : Env) (s : Daemon) (p : Ptr) :
    ((rtTableInvalidate e s p).rt p).state = .invalid := by
  simp only [rtTableInvalidate]
  cases h : (s.tock.rt p).state with
  | invalid => exact h
  | valid => simp [Daemon.rt, Daemon.setRt, nlSendDelRouteMsg, nlSendBoth]

theorem invalidate_invalid (e : Env) (s : Daemon) {p : Ptr} (h : (s.rt p).state = .invalid) :
    rtTableInvalidate e s p = s.tock := by
  have h' : (s.tock.rt p).state = .invalid := h
  rw [rtTableInvalidate]
  simp only [h']

theorem lb_invalidate (e : Env) {s : Daemon} {p : Ptr} (hp : Linked s.rtTbl p) :
    Lb e s (rtTableInvalidate e s p) := by
  cases h : (s.rt p).state with
  | invalid =>
      rw [invalidate_invalid e s h]
      exact .tock s
  | valid => exact .down hp h

theorem linked_of_lb {e : Env} {s s' : Daemon} (h : ReflTransGen (Lb e) s s') {p : Ptr}
    (hp : Linked s.rtTbl p) : Linked s'.rtTbl p := ((lb_kept h).keys.linked p).2 hp

theorem turn_linkBreakStep (e : Env) (p : Ptr) {b : RerrBuild} (h : Building b) {q : Ptr}
    (hq : Linked b.s.rtTbl q) : RerrTurn e b (linkBreakStep e p b q) := by
  rw [linkBreakStep]
  split
  next huses =>
    have hv : (b.s.rt q).state = .valid := by
      simp only [usesLink, decide_eq_true_eq] at huses
      exact huses.1
    dsimp only
    split
    · exact ⟨.single (.repair hq hv), h.same rfl (sendBuf_invalidate e (markRepair b.s q) q)⟩
    · have hdown : RerrTurn e b { b with s := rtTableInvalidate e b.s q } :=
        ⟨.single (.down hq hv), h.same rfl (sendBuf_invalidate e b.s q)⟩
      have hq' := linked_of_lb hdown.steps hq
      split
      · have hlist := hdown.trans (turn_list hdown.building false hq')
        refine hlist.trans (turn_destroy hlist.building (linked_of_lb hlist.steps hq) ?_)
        rw [Daemon.rt, tbl_rerrList]
        exact state_invalidate e b.s q
      · exact hdown.trans (turn_destroy hdown.building hq' (state_invalidate e b.s q))
  · exact RerrTurn.refl h

theorem turn_foldl (e : Env) (p : Ptr) (l : List Ptr) {b : RerrBuild} (h : Building b)
    (hl : ∀ q ∈ l, Linked b.s.rtTbl q) : RerrTurn e b (l.foldl (linkBreakStep e p) b) := by
  induction l generalizing b with
  | nil => exact RerrTurn.refl h
  | cons q l ih =>
      have hstep := turn_linkBreakStep e p h (hl q List.mem_cons_self)
      refine hstep.trans (ih hstep.building fun q' hq' => ?_)
      exact linked_of_lb hstep.steps (hl q' (List.mem_cons_of_mem q hq'))

theorem lb_send (e : Env) {b : RerrBuild} (h : Building b) :
    ReflTransGen (Lb e) b.s (linkBreakSend e b) := by
  rw [linkBreakSend]
  cases hr : b.rerr with
  | none => exact .refl
  | some m => exact .single (.rerrSend m _ _ (h m hr).type fun hlen => (h m hr).carries hlen)

theorem turn_linkBreakSelf (e : Env) {s : Daemon} {p : Ptr} (hp : Linked s.rtTbl p) :
    RerrTurn e ⟨rtTableInvalidate e s p, none, 0⟩ (linkBreakSelf e s p) := by
  have hbuild : Building ⟨rtTableInvalidate e s p, none, 0⟩ := by
    rintro m ⟨⟩
  have hp' : Linked (rtTableInvalidate e s p).rtTbl p := ((kept_invalidate e hp).keys.linked p).2 hp
  rw [linkBreakSelf]
  dsimp only
  split
  · have hlist := turn_list (e := e) hbuild false hp'
    split
    · exact hlist
    · refine hlist.trans (turn_destroy hlist.building (linked_of_lb hlist.steps hp') ?_)
      rw [Daemon.rt, tbl_rerrList]
      exact state_invalidate e s p
  · split
    · exact RerrTurn.refl hbuild
    · exact turn_destroy hbuild hp' (state_invalidate e s p)

theorem lb_linkBreak_rest (e : Env) {s : Daemon} {p : Ptr} (hp : Linked s.rtTbl p)
    (hhop : (s.rt p).hopcnt = 1) :
    ReflTransGen (Lb e) (rtTableInvalidate e s p) (neighborLinkBreak e s p) := by
  have hself := turn_linkBreakSelf e hp
  have hloop := turn_foldl e p (linkBreakSelf e s p).s.linked hself.building
    fun q hq => (mem_entries _ q).1 hq
  rw [neighborLinkBreak, if_neg (by simpa using hhop)]
  exact hself.steps.trans (hloop.steps.trans (lb_send e hloop.building))

theorem lb_linkBreak_of (e : Env) {s s' : Daemon} {p : Ptr} (hp : Linked s.rtTbl p)
    (hdown : Lb e s' (rtTableInvalidate e s p)) (hhop : (s.rt p).hopcnt = 1) :
    ReflTransGen (Lb e) s' (neighborLinkBreak e s p) :=
  ReflTransGen.head hdown (lb_linkBreak_rest e hp hhop)

theorem lb_linkBreak (e : Env) {s : Daemon} {p : Ptr} (hp : Linked s.rtTbl p) :
    ReflTransGen (Lb e) s (neighborLinkBreak e s p) := by
  by_cases hhop : (s.rt p).hopcnt = 1
  · exact lb_linkBreak_of e hp (lb_invalidate e hp) hhop
  · rw [neighborLinkBreak, if_pos (by simpa using hhop)]

theorem rt_invalidate_valid (e : Env) {s : Daemon} {p : Ptr} (h : (s.rt p).state = .valid) :
    (rtTableInvalidate e s p).rtTbl =
      { s.rtTbl with
        numActive := s.rtTbl.numActive - 1
        rtMem := Function.update s.rtTbl.rtMem p { s.rt p with
          state := .invalid
          helloCnt := 0
          destSeqno := seqnoIncr (s.rt p).destSeqno
          lastHelloTime := ⟨0, 0⟩ } } := by
  have h' : (s.tock.rt p).state = .valid := h
  simp only [rtTableInvalidate, h']
  rfl

@[simp] theorem rt_invalidate_ne (e : Env) (s : Daemon) {p q : Ptr} (h : q ≠ p) :
    (rtTableInvalidate e s p).rt q = s.rt q := by
  cases hv : (s.rt p).state with
  | invalid => rw [invalidate_invalid e s hv]; rfl
  | valid => rw [Daemon.rt, rt_invalidate_valid e hv]; simp [h, Daemon.rt]

theorem rt_invalidate_self (e : Env) (s : Daemon) (p : Ptr) :
    ((rtTableInvalidate e s p).rt p).nprecursor = (s.rt p).nprecursor ∧
      ((rtTableInvalidate e s p).rt p).flags = (s.rt p).flags ∧
      ((rtTableInvalidate e s p).rt p).destAddr = (s.rt p).destAddr := by
  cases hv : (s.rt p).state with
  | invalid => rw [invalidate_invalid e s hv]; exact ⟨rfl, rfl, rfl⟩
  | valid => simp only [Daemon.rt, rt_invalidate_valid e hv, Function.update_self, and_self]

/-- The loop of a link break before entry q has its turn: nothing is reported
and the entries still to come are as they were. -/
structure Silent (s : Daemon) (p : Ptr) (l : List Ptr) (b : RerrBuild) : Prop where
  none : b.rerr = none
  sendBuf : b.s.sendBuf = s.sendBuf
  own : (b.s.rt p).destAddr = (s.rt p).destAddr ∧ (b.s.rt p).flags = (s.rt p).flags
  rest : ∀ q ∈ l, q ≠ p → b.s.rt q = s.rt q

theorem silent_step (e : Env) {s : Daemon} {p q : Ptr} {l : List Ptr} {b : RerrBuild}
    (h : Silent s p (q :: l) b) (hq : q ∉ l)
    (hr : (usesLink s p q && !kept s p q && decide ((s.rt q).nprecursor ≠ 0)) = false) :
    Silent s p l (linkBreakStep e p b q) := by
  have hskip : Silent s p l b :=
    ⟨h.none, h.sendBuf, h.own, fun q' hq' => h.rest q' (List.mem_cons_of_mem q hq')⟩
  rw [linkBreakStep]
  split
  next huses =>
    have hne : q ≠ p := by
      rintro rfl
      simp [usesLink] at huses
    have hsame : b.s.rt q = s.rt q := h.rest q List.mem_cons_self hne
    have huses' : usesLink s p q = true := by
      rw [usesLink, ← hsame, ← h.own.1]
      exact huses
    have hkept : kept b.s p q = kept s p q := by simp only [kept, h.own.2, hsame]
    have hother {s' : Daemon} (hs : ∀ q', q' ≠ q → s'.rt q' = b.s.rt q')
        (hbuf : s'.sendBuf = b.s.sendBuf) : Silent s p l { b with s := s' } := by
      refine ⟨h.none, hbuf.trans h.sendBuf, ?_, ?_⟩
      · rw [hs p fun he => hne he.symm]
        exact h.own
      · intro q' hq' hne'
        have hq'q : q' ≠ q := by
          rintro rfl
          exact hq hq'
        rw [hs q' hq'q]
        exact hskip.rest q' hq' hne'
    dsimp only
    split
    · refine hother (fun q' hq' => ?_) (sendBuf_invalidate e _ q)
      rw [rt_invalidate_ne e _ hq']
      simp [Daemon.rt, Daemon.setRt, hq']
    next hk =>
      have hnp : (s.rt q).nprecursor = 0 := by
        rw [hkept] at hk
        simpa [huses', hk] using hr
      have hnp' : ((rtTableInvalidate e b.s q).rt q).nprecursor = 0 := by
        rw [(rt_invalidate_self e b.s q).1, hsame, hnp]
      rw [if_neg (by simpa using hnp')]
      refine hother (fun q' hq' => ?_) (sendBuf_invalidate e b.s q)
      rw [← rt_invalidate_ne e b.s hq']
      simp [precursorListDestroy, Daemon.rt, Daemon.setRt, hq']
  · exact hskip

theorem silent_foldl (e : Env) {s : Daemon} {p : Ptr} (l : List Ptr) {b : RerrBuild}
    (h : Silent s p l b) (hn : l.Nodup) (hr : ∀ q ∈ l,
      (usesLink s p q && !kept s p q && decide ((s.rt q).nprecursor ≠ 0)) = false) :
    Silent s p [] (l.foldl (linkBreakStep e p) b) := by
  induction l generalizing b with
  | nil => exact h
  | cons q l ih =>
      obtain ⟨hq, hn⟩ := List.nodup_cons.1 hn
      refine ih (silent_step e h hq (hr q List.mem_cons_self)) hn fun q' hq' => ?_
      exact hr q' (List.mem_cons_of_mem q hq')

theorem linkBreak_sendBuf (e : Env) {s : Daemon} (h : WellFormed s) {p : Ptr}
    (hp : Linked s.rtTbl p) (hr : linkBreakReports s p = false) :
    (neighborLinkBreak e s p).sendBuf = s.sendBuf := by
  rw [neighborLinkBreak]
  split
  · rfl
  next hhop =>
    have hhop' : (s.rt p).hopcnt = 1 := by simpa using hhop
    obtain ⟨hnp, hflags, hdest⟩ := rt_invalidate_self e s p
    have hkept := kept_invalidate e hp
    simp only [linkBreakReports, hhop', decide_true, Bool.true_and, Bool.or_eq_false_iff,
      List.any_eq_false] at hr
    have hself : Silent s p s.linked (linkBreakSelf e s p) ∧
        (linkBreakSelf e s p).s.linked = s.linked := by
      have hno : ¬ (((rtTableInvalidate e s p).rt p).nprecursor ≠ 0 ∧
          ((rtTableInvalidate e s p).rt p).flags.repair = false) := by
        rw [hnp, hflags]
        simpa using hr.1
      have hrest (q : Ptr) (hq : q ≠ p) : (rtTableInvalidate e s p).rt q = s.rt q :=
        rt_invalidate_ne e s hq
      simp only [linkBreakSelf, if_neg hno]
      split
      · exact ⟨⟨rfl, sendBuf_invalidate e s p, ⟨hdest, hflags⟩, fun q _ hq => hrest q hq⟩,
          hkept.keys.entries⟩
      · refine ⟨⟨rfl, sendBuf_invalidate e s p, ⟨?_, ?_⟩, fun q _ hq => ?_⟩, hkept.keys.entries⟩
        · simpa [precursorListDestroy, Daemon.rt, Daemon.setRt] using hdest
        · simpa [precursorListDestroy, Daemon.rt, Daemon.setRt] using hflags
        · rw [← hrest q hq]
          simp [precursorListDestroy, Daemon.rt, Daemon.setRt, hq]
    have hloop := silent_foldl e s.linked hself.1 h.table.entries_nodup fun q hq => by
      simpa using hr.2 q hq
    rw [linkBreakSend, hself.2, hloop.none]
    exact hloop.sendBuf

end Aodv
