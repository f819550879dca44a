import Aodv.OwnRoute

namespace Aodv.HelloCount

open Lib.Bytes Requests

def helloFrom (a : Addr) (pkt : Packet) : Bool :=
  decide (pkt.buf 0 = aodvRrep ∧ pkt.ttl = some 1 ∧ pkt.dest = aodvBroadcast ∧ pkt.src = a ∧
    (rrepOf pkt.buf).destAddr = a)

def named (b : Buf) : List Addr :=
  if b 0 = aodvRreq then [(rreqOf b).origAddr, (rreqOf b).destAddr]
  else if b 0 = aodvRrep ∨ b 0 = aodvHello then [(rrepOf b).destAddr, (rrepOf b).origAddr]
  else if b 0 = aodvRerr then (listed b).map Prod.fst
  else []

def OnlyHellos (a : Addr) : Event → Prop
  | .recv pkt => helloFrom a pkt = true ∨ pkt.src ≠ a ∧ a ∉ named pkt.buf
  | _ => True

def hears (own a : Addr) : Event → Bool
  | .recv pkt => helloFrom a pkt && received own pkt
  | _ => false

/-- The daemon, and the HELLOs of a it has processed since it created the entry
that a has now. -/
structure Tally where
  s : Daemon
  hellos : Nat

def tallyStep (e : Env) (a : Addr) (t : Tally) (ev : Event) : Tally :=
  let heard := if hears t.s.host.ipaddr a ev then 1 else 0
  ⟨step e t.s ev, if entryOf (step e t.s ev) a = entryOf t.s a then t.hellos + heard else heard⟩

/-- The entry for a is VALID only after enough HELLOs. -/
def Earned (e : Env) (a : Addr) (t : Tally) : Prop :=
  ∀ p, Linked t.s.rtTbl p → (t.s.rt p).destAddr = a → (t.s.rt p).state = .valid →
    e.receiveNHellos ≤ t.hellos

section Runs

variable {e : Env} {a : Addr} {s : Daemon}

theorem learned_other {own dest next : Addr} {pkt : Packet} {src : Source}
    {hops seqno lifetime : U32} (hsrc : pkt.src ≠ a) (hn : a ∉ named pkt.buf)
    (hl : Learned own (.recv pkt) 0 src dest next hops seqno lifetime) : dest ≠ a := by
  have hother (hm : dest ∈ named pkt.buf) : dest ≠ a := by
    rintro rfl
    exact hn hm
  cases hl with
  | neighbor h hne =>
      cases h
      exact hsrc
  | rreq h ht hne =>
      cases h
      apply hother
      rw [named, if_pos ht]
      exact List.mem_cons_self
  | rrep h ht hlen hne =>
      cases h
      apply hother
      rw [named, ht, if_neg (by decide), if_pos (.inl rfl)]
      exact List.mem_cons_self
  | hello h ht =>
      cases h
      have hkind : pkt.buf 0 = aodvRrep ∨ pkt.buf 0 = aodvHello :=
        (of_decide_eq_true ht).symm.imp_left And.left
      have hno : pkt.buf 0 ≠ aodvRreq := by
        rcases hkind with ht | ht <;> rw [ht] <;> decide
      apply hother
      rw [named, if_neg hno, if_pos hkind]
      exact List.mem_cons_self

theorem absent_step (h : Absent a s) (hs : Resting s) {ev : Event} (hev : OnlyHellos a ev)
    (hd : hears s.host.ipaddr a ev = false) :
    Absent a (step e s ev) ∧ (step e s ev).host.ipaddr = s.host.ipaddr := by
  have hrun (hev : ∀ src dest next hops seqno lifetime,
      Learned s.host.ipaddr ev 0 src dest next hops seqno lifetime → dest ≠ a) :
      Absent a (step e s ev) ∧ (step e s ev).host.ipaddr = s.host.ipaddr := by
    have hmoves := (step_moves (e := e) hs ev).1
    generalize step e s ev = s₁ at hmoves
    induction hmoves with
    | refl => exact ⟨h, rfl⟩
    | tail hrun hm ih =>
        have hw := moves_wellFormed hrun hs.wellFormed
        exact ⟨absent_move ih.1 hw hm (by rwa [ih.2]), (move_ipaddr hm hw).trans ih.2⟩
  cases ev with
  | recv pkt =>
      cases hr : received s.host.ipaddr pkt with
      | false =>
          rw [step_dropped e hs.wellFormed hr]
          exact ⟨h, rfl⟩
      | true =>
          rcases hev with hev | hev
          · simp [hears, hev, hr] at hd
          · exact hrun fun _ _ _ _ _ _ hl => learned_other hev.1 hev.2 hl
  | kernel | age | fire =>
      apply hrun
      rintro _ _ _ _ _ _ (⟨⟨⟩⟩ | ⟨⟨⟩⟩ | ⟨⟨⟩⟩ | ⟨⟨⟩⟩)

structure Greeted (a : Addr) (s : Daemon) (p : Ptr) : Prop where
  linked : Linked s.rtTbl p
  dest : (s.rt p).destAddr = a
  valid : (s.rt p).state = .valid
  unidir : (s.rt p).flags.unidir = false
  count : (s.rt p).helloCnt = 0

theorem insert_again (hs : WellFormed s) {p : Ptr} (hp : Linked s.rtTbl p)
    (hd : (s.rt p).destAddr = a) (next : Addr) (hops seqno lifetime : U32) (state : RtState)
    (flags : RtFlags) :
    rtTableInsert e s a next hops seqno lifetime state flags = (s, none) := by
  obtain h | ⟨hnew, _⟩ := rtTableInsert_cases e s a next hops seqno lifetime state flags
  · exact h
  · obtain ⟨i, hi⟩ := hp
    have hb : hashing a = i := hd ▸ (hs.table.bucket i p hi).1
    exact absurd hd (hnew p (hb ▸ hi))

theorem Greeted.helloUpdate {p : Ptr} (h : Greeted a s p) (now : Timeval) (time : Int) :
    Greeted a (helloUpdateTimeout e s p now time) p := by
  have hrt : (helloUpdateTimeout e s p now time).rt p = { s.rt p with lastHelloTime := now } :=
    rt_setRt_self _ _ _
  exact ⟨h.linked, by rw [hrt]; exact h.dest, by rw [hrt]; exact h.valid,
    by rw [hrt]; exact h.unidir, by rw [hrt]; exact h.count⟩

theorem neighborAdd_greets (h : Absent a s) : Greeted a (neighborAdd e s a) s.brk := by
  have hnone : rtTableCheck s.tock.rtTbl a = none := by
    cases hc : rtTableCheck s.tock.rtTbl a with
    | none => rfl
    | some p => exact absurd (rtTableCheck_some hc).2 (h p (rtTableCheck_some hc).1)
  obtain ⟨s₁, hi⟩ := insert_absent (e := e) (s := s.tock) h a 1 0 (u32 activeRouteTimeout) .valid .zero
  change _ = (s₁, some s.brk) at hi
  obtain ⟨hp, hr⟩ := insert_some e hi
  have hnew : Greeted a s₁ s.brk :=
    ⟨hp, by rw [hr]; rfl, by rw [hr]; rfl, by rw [hr]; rfl, by rw [hr]; rfl⟩
  rw [neighborAdd]
  dsimp only
  rw [hnone, hi]
  dsimp only
  rw [neighborRefresh]
  split
  · exact hnew.helloUpdate _ _
  · exact hnew

/-- The HELLO is only counted: the entry that neighbor_add made stays VALID. -/
theorem helloProcess_keeps (hn : 2 ≤ e.receiveNHellos) (hs : WellFormed s) {p : Ptr}
    (h : Greeted a s p) {buf : Buf} (hb : (rrepOf buf).destAddr = a) :
    Linked (helloProcess e s buf).rtTbl p ∧ ((helloProcess e s buf).rt p).destAddr = a ∧
      ((helloProcess e s buf).rt p).state = .valid := by
  rw [helloProcess]
  dsimp only
  rw [hb]
  cases hc : rtTableCheck s.tock.rtTbl a with
  | none =>
      rw [insert_again (s := s.tock) ((Kept.tock s).wellFormed hs) h.linked h.dest]
      exact ⟨h.linked, h.dest, h.valid⟩
  | some q =>
      obtain ⟨hq, hd⟩ := rtTableCheck_some hc
      have hqp : q = p := hs.table.dests q p hq h.linked (hd.trans h.dest.symm)
      subst q
      have hcount : e.receiveNHellos ≠ 0 ∧ ((s.tock.rt p).helloCnt.toNat : Int) <
          e.receiveNHellos - 1 := by
        refine ⟨by omega, ?_⟩
        change ((s.rt p).helloCnt.toNat : Int) < _
        rw [h.count]
        change (0 : Int) < _
        omega
      have hway : ¬ ((s.tock.rt p).flags.unidir = true ∧ (s.tock.rt p).state = .valid ∧
          1 < (s.tock.rt p).hopcnt) := by
        rintro ⟨hu, -⟩
        change (s.rt p).flags.unidir = true at hu
        rw [h.unidir] at hu
        cases hu
      dsimp only
      rw [helloKnown]
      dsimp only
      rw [if_neg hway, if_pos hcount]
      refine ⟨h.linked, ?_, ?_⟩
      · rw [rt_setRt_self]
        exact h.dest
      · rw [rt_setRt_self]
        exact h.valid

theorem step_hello {pkt : Packet} (hf : helloFrom a pkt = true)
    (hr : received s.host.ipaddr pkt = true) :
    step e s (.recv pkt) =
      helloProcess e (neighborAdd e s a) (store pkt.buf 0 aodvHello) := by
  obtain ⟨ht, httl, hdest, hsrc, -⟩ := of_decide_eq_true hf
  have hne : ¬ (s.host.enabled = true ∧ pkt.src = s.host.ipaddr) := by
    intro h
    simp [received, h.2] at hr
  change aodvSocketRead e s pkt = _
  rw [aodvSocketRead, httl]
  dsimp only
  have hrelabel : pkt.buf 0 = aodvRrep ∧ ((1 : U8).toNat : Int) = 1 ∧ pkt.dest = aodvBroadcast :=
    ⟨ht, by decide, hdest⟩
  rw [if_neg hne, aodvSocketPackageProcess, if_pos hrelabel, if_pos (store_apply_self _ _ _), hsrc]

theorem first_hello (hn : 2 ≤ e.receiveNHellos) (hs : WellFormed s) (h : Absent a s) {ev : Event}
    (hev : hears s.host.ipaddr a ev = true) :
    ∃ p, Linked (step e s ev).rtTbl p ∧ ((step e s ev).rt p).destAddr = a ∧
      ((step e s ev).rt p).state = .valid := by
  cases ev with
  | recv pkt =>
      obtain ⟨hf, hr⟩ := Bool.and_eq_true_iff.1 hev
      have hsrc : pkt.src ≠ s.host.ipaddr := by
        intro h
        simp [received, h] at hr
      obtain ⟨-, -, -, ha, hd⟩ := of_decide_eq_true hf
      have hw : WellFormed (neighborAdd e s a) := by
        have hadd := coarses_neighborAdd (e := e) (s := s) (rfl : Event.recv pkt = _) hsrc
        rw [ha] at hadd
        exact (coarses_sound hadd hs).wellFormed
      rw [step_hello hf hr]
      refine ⟨s.brk, helloProcess_keeps hn hw (neighborAdd_greets h) ?_⟩
      rw [← hd]
      rfl
  | kernel | age | fire => cases hev

theorem absent_earned {t : Tally} (h : Absent a t.s) : Earned e a t :=
  fun p hp hd _ => absurd hd (h p hp)

theorem first_unearned (hn : 2 ≤ e.receiveNHellos) {t : Tally} (hs : WellFormed t.s)
    (h : Absent a t.s) {ev : Event} (hev : hears t.s.host.ipaddr a ev = true) :
    ¬ Earned e a (tallyStep e a t ev) := by
  obtain ⟨p, hp, hd, hv⟩ := first_hello hn hs h hev
  intro hearned
  have hle := hearned p hp hd hv
  have hnew : ¬ entryOf (step e t.s ev) a = entryOf t.s a := by
    rw [entryOf_absent h]
    exact entryOf_ne_none hp hd
  have hone : (tallyStep e a t ev).hellos = 1 := by
    rw [tallyStep]
    dsimp only
    rw [if_neg hnew, if_pos hev]
  rw [hone] at hle
  omega

theorem earned_iff (hn : 2 ≤ e.receiveNHellos) (es : List Event) (t : Tally) (hs : Resting t.s)
    (h : Absent a t.s) (hes : ∀ ev ∈ es, OnlyHellos a ev) :
    (∀ es₁, es₁ <+: es → Earned e a (es₁.foldl (tallyStep e a) t)) ↔
      ∀ ev ∈ es, hears t.s.host.ipaddr a ev = false := by
  induction es generalizing t with
  | nil =>
      constructor
      · intro _ ev hev
        exact absurd hev List.not_mem_nil
      · intro _ es₁ hpre
        rw [List.prefix_nil.1 hpre]
        exact absent_earned h
  | cons ev es ih =>
      cases hev : hears t.s.host.ipaddr a ev with
      | true =>
          constructor
          · intro hall
            have hfirst := hall [ev] ⟨es, rfl⟩
            exact absurd hfirst (first_unearned hn hs.wellFormed h hev)
          · intro hall
            have hno := hall ev List.mem_cons_self
            rw [hev] at hno
            cases hno
      | false =>
          obtain ⟨habs, haddr⟩ := absent_step (e := e) h hs (hes ev List.mem_cons_self) hev
          have hrest := ih (tallyStep e a t ev) (step_moves hs ev).2 habs
            (fun ev' hev' => hes ev' (List.mem_cons_of_mem ev hev'))
          change _ ↔ ∀ ev' ∈ es, hears (step e t.s ev).host.ipaddr a ev' = false at hrest
          rw [haddr] at hrest
          constructor
          · intro hall ev' hev'
            rcases List.mem_cons.1 hev' with rfl | hev'
            · exact hev
            · refine hrest.1 (fun es₁ hpre => ?_) ev' hev'
              exact hall (ev :: es₁) (List.cons_prefix_cons.2 ⟨rfl, hpre⟩)
          · intro hall es₁ hpre
            cases es₁ with
            | nil => exact absent_earned h
            | cons ev₁ es₁ =>
                obtain ⟨rfl, htail⟩ := List.cons_prefix_cons.1 hpre
                apply hrest.2 _ es₁ htail
                exact fun ev' hev' => hall ev' (List.mem_cons_of_mem _ hev')

/-- In a run where a only says hello, its entry is VALID no sooner than after
receive_n_hellos of them if and only if none of them is processed. -/
theorem n_hello_rule (hn : 2 ≤ e.receiveNHellos) (hs : Reachable e s) (ha : Absent a s)
    (es : List Event) (hes : ∀ ev ∈ es, OnlyHellos a ev) :
    (∀ es₁, es₁ <+: es → Earned e a (es₁.foldl (tallyStep e a) ⟨s, 0⟩)) ↔
      ∀ ev ∈ es, hears s.host.ipaddr a ev = false :=
  earned_iff hn es ⟨s, 0⟩ (Reachable.resting hs) ha hes

end Runs

def twoHellos : Env := { plain with receiveNHellos := 2 }

def fresh : Daemon := init twoHellos 0x0100000a 0xff00000a 2

theorem absent_fresh (a : Addr) : Absent a fresh := by
  rintro p ⟨i, hp⟩
  exact absurd hp List.not_mem_nil

theorem onlyHellos_greeting : ∀ ev ∈ [Event.recv (helloFor 0x0200000a)],
    OnlyHellos 0x0200000a ev := by
  intro ev hev
  rw [List.mem_singleton.1 hev]
  exact .inl (by decide +kernel)

theorem n_hello_rule_greeting :
    (∀ es₁, es₁ <+: [.recv (helloFor 0x0200000a)] →
      Earned twoHellos 0x0200000a (es₁.foldl (tallyStep twoHellos 0x0200000a) ⟨fresh, 0⟩)) ↔
      ∀ ev ∈ [Event.recv (helloFor 0x0200000a)], hears fresh.host.ipaddr 0x0200000a ev = false :=
  n_hello_rule (by decide) ⟨0x0100000a, 0xff00000a, 2, [], rfl⟩ (absent_fresh _) _ onlyHellos_greeting

/-- The first HELLO of a neighbour makes its entry VALID. -/
theorem first_hello_counts : ¬ ∀ (e : Env) (a : Addr) (s : Daemon) (es : List Event),
    2 ≤ e.receiveNHellos → Reachable e s → Absent a s → (∀ ev ∈ es, OnlyHellos a ev) →
    ∀ es₁, es₁ <+: es → Earned e a (es₁.foldl (tallyStep e a) ⟨s, 0⟩) := by
  intro hall
  have hsee : 0 ∈ entries (step twoHellos fresh (.recv (helloFor 0x0200000a))).rtTbl ∧
      ((step twoHellos fresh (.recv (helloFor 0x0200000a))).rt 0).destAddr = 0x0200000a ∧
      ((step twoHellos fresh (.recv (helloFor 0x0200000a))).rt 0).state = .valid ∧
      (tallyStep twoHellos 0x0200000a ⟨fresh, 0⟩ (.recv (helloFor 0x0200000a))).hellos = 1 := by
    decide +kernel
  have hearned := hall twoHellos 0x0200000a fresh [.recv (helloFor 0x0200000a)] (by decide)
    ⟨0x0100000a, 0xff00000a, 2, [], rfl⟩ (absent_fresh _) onlyHellos_greeting _ (List.prefix_refl _)
    0 ((mem_entries _ 0).1 hsee.1) hsee.2.1 hsee.2.2.1
  change (2 : Int) ≤ ((tallyStep twoHellos 0x0200000a ⟨fresh, 0⟩
    (.recv (helloFor 0x0200000a))).hellos : Int) at hearned
  rw [hsee.2.2.2] at hearned
  omega

end Aodv.HelloCount
