import Aodv.Effects

namespace Aodv.Requests

open Lib.Bytes Relation

section Moves

variable {e : Env} {ev : Event} {s s' : Daemon}

theorem move_ipaddr (h : Move e ev s s') (hs : WellFormed s) : s'.host.ipaddr = s.host.ipaddr := by
  cases h with
  | slide h =>
      cases h with
      | idle h => exact h.ipaddr
      | down hp hv => exact (kept_invalidate e hp).ipaddr
      | @repair p hp hv =>
          have hmark := kept_markRepair s p
          exact (hmark.trans (kept_invalidate e ((hmark.keys.linked p).2 hp))).ipaddr
  | updateTimeout hl hp => exact (kept_updateTimeout e _ hp).ipaddr
  | repairTimeout hp hr => exact (kept_localRepairTimeout e hp).ipaddr
  | delete hp hh => exact (delete_sound e hs hp).ipaddr
  | insert lifetime state hl => exact (insert_sound e hs _ _ _ _ _ _ _).ipaddr
  | update lifetime hp hl => exact (update_sound e hs hp _ _ _ _ _ _).ipaddr
  | helloArm | helloMark | rerrSeqno | expireIdle | seekNew | seekFail | repairStart => rfl

/-- An entry after a move was there before, for the same address, or the move
has learned it. -/
theorem move_keys (h : Move e ev s s') (hs : WellFormed s) {p : Ptr} (hp : Linked s'.rtTbl p) :
    (Linked s.rtTbl p ∧ (s'.rt p).destAddr = (s.rt p).destAddr) ∨
      ∃ src next hops seqno lifetime,
        Learned s.host.ipaddr ev 0 src (s'.rt p).destAddr next hops seqno lifetime := by
  cases h with
  | slide h => exact .inl ⟨(slide_linked h p).1 hp, (slide_route h p).1⟩
  | @updateTimeout q lifetime hl hq =>
      have hkept := (kept_updateTimeout e lifetime hq).keys
      exact .inl ⟨(hkept.linked p).1 hp, hkept.destAddr p⟩
  | helloArm | helloMark | rerrSeqno =>
      refine .inl ⟨hp, (field_setRt RtEntry.destAddr _ ?_ p).trans rfl⟩
      rfl
  | repairTimeout hq hr =>
      have hkept := (kept_localRepairTimeout e hq).keys
      exact .inl ⟨(hkept.linked p).1 hp, hkept.destAddr p⟩
  | @delete q hq hh =>
      obtain ⟨hold, hne⟩ := (linked_delete e s q p).1 hp
      exact .inl ⟨hold, by rw [rt_delete e s hne]⟩
  | @insert src dest next hops seqno lifetime state hl =>
      obtain hi | ⟨hnew, hi⟩ := rtTableInsert_cases e s dest next hops seqno lifetime state .zero
      · rw [hi] at hp ⊢
        exact .inl ⟨hp, rfl⟩
      · rw [hi] at hp ⊢
        let s₀ := s.observe (.rtInsert dest next hops seqno lifetime state .zero)
        have hrt := rt_insertEntry e s₀ (newEntry dest next hops seqno state .zero) hops lifetime p
        rcases (linked_insertEntry e s₀ _ hops lifetime p).1 hp with rfl | hold
        · refine .inr ⟨src, next, hops, seqno, lifetime, ?_⟩
          rw [hrt, rt_linkEntry_self]
          exact hl
        · refine .inl ⟨hold, ?_⟩
          have hne : p ≠ s₀.brk := by
            rintro rfl
            exact hs.brk_not_linked hold
          rw [hrt, rt_linkEntry_ne s₀ _ hne]
          rfl
  | @update q src next hops seqno lifetime hq hl =>
      obtain ⟨s₁, hkept, heq⟩ := update_kept e s hq next hops seqno lifetime .valid (s.rt q).flags
      rw [heq, tbl_routeFound] at hp
      rw [heq, rt_routeFound]
      exact .inl ⟨(hkept.keys.linked p).1 hp, hkept.keys.destAddr p⟩
  | expireIdle | seekNew | seekFail | repairStart => exact .inl ⟨hp, rfl⟩

def Absent (a : Addr) (s : Daemon) : Prop := ∀ p, Linked s.rtTbl p → (s.rt p).destAddr ≠ a

def entryOf (s : Daemon) (a : Addr) : Option Ptr :=
  (entries s.rtTbl).find? (fun p => decide ((s.rt p).destAddr = a))

theorem entryOf_absent {a : Addr} (h : Absent a s) : entryOf s a = none := by
  apply List.find?_eq_none.2
  intro p hp
  simpa using h p ((mem_entries _ p).1 hp)

theorem entryOf_ne_none {a : Addr} {p : Ptr} (hp : Linked s.rtTbl p) (hd : (s.rt p).destAddr = a) :
    entryOf s a ≠ none := by
  intro hn
  have hall := List.find?_eq_none.1 hn p ((mem_entries _ p).2 hp)
  exact hall (by simpa using hd)

theorem entryOf_eq_some {a : Addr} (hs : WellFormed s) {p : Ptr} :
    entryOf s a = some p ↔ Linked s.rtTbl p ∧ (s.rt p).destAddr = a := by
  constructor
  · intro h
    exact ⟨(mem_entries _ p).1 (List.mem_of_find?_eq_some h),
      of_decide_eq_true (List.find?_some (p := fun p => decide ((s.rt p).destAddr = a)) h)⟩
  · rintro ⟨hp, hd⟩
    obtain ⟨q, hq⟩ := Option.ne_none_iff_exists'.1 (entryOf_ne_none hp hd)
    have hqd : (s.rt q).destAddr = a :=
      of_decide_eq_true (List.find?_some (p := fun p => decide ((s.rt p).destAddr = a)) hq)
    have hql : Linked s.rtTbl q := (mem_entries _ q).1 (List.mem_of_find?_eq_some hq)
    rw [hq, hs.table.dests q p hql hp (hqd.trans hd.symm)]

theorem absent_move {a : Addr} (h : Absent a s) (hs : WellFormed s) (hm : Move e ev s s')
    (hev : ∀ src dest next hops seqno lifetime,
      Learned s.host.ipaddr ev 0 src dest next hops seqno lifetime → dest ≠ a) : Absent a s' := by
  intro p hp
  rcases move_keys hm hs hp with ⟨hold, hd⟩ | ⟨src, next, hops, seqno, lifetime, hl⟩
  · rw [hd]
    exact h p hold
  · exact hev _ _ _ _ _ _ hl

theorem insert_absent {a : Addr} (h : Absent a s) (next : Addr) (hops seqno lifetime : U32)
    (state : RtState)
    (flags : RtFlags) :
    ∃ s', rtTableInsert e s a next hops seqno lifetime state flags = (s', some s.brk) := by
  rw [rtTableInsert, if_neg]
  · exact ⟨_, rfl⟩
  · intro hany
    obtain ⟨p, hp, hd⟩ := List.any_eq_true.1 hany
    exact h p ⟨_, hp⟩ (of_decide_eq_true hd)

end Moves

def received (own : Addr) (pkt : Packet) : Bool := pkt.ttl.isSome && decide (pkt.src ≠ own)

/-- No HELLO names the daemon itself. -/
def sparesSelf (own : Addr) : Event → Bool
  | .recv pkt => !(received own pkt && isHello pkt && decide ((rrepOf pkt.buf).destAddr = own))
  | _ => true

structure Strangers (own : Addr) (s : Daemon) : Prop where
  ipaddr : s.host.ipaddr = own
  dests : ∀ p, Linked s.rtTbl p → (s.rt p).destAddr ≠ own

theorem step_dropped (e : Env) {s : Daemon} {pkt : Packet} (hs : WellFormed s)
    (h : received s.host.ipaddr pkt = false) : step e s (.recv pkt) = s := by
  change aodvSocketRead e s pkt = s
  rw [aodvSocketRead]
  cases ht : pkt.ttl with
  | none => rfl
  | some ttl =>
      dsimp only
      have hsrc : pkt.src = s.host.ipaddr := by
        simpa [received, ht] using h
      exact if_pos ⟨hs.enabled, hsrc⟩

theorem Strangers.move {e : Env} {ev : Event} {own : Addr} {s s' : Daemon} (h : Strangers own s)
    (hs : WellFormed s) (hm : Move e ev s s')
    (hev : ∀ pkt, ev = .recv pkt → isHello pkt = true → (rrepOf pkt.buf).destAddr ≠ own) :
    Strangers own s' := by
  refine ⟨(move_ipaddr hm hs).trans h.ipaddr, absent_move h.dests hs hm ?_⟩
  intro src dest next hops seqno lifetime hl
  rw [h.ipaddr] at hl
  cases hl with
  | neighbor _ hne => exact hne
  | rreq _ _ hne => exact hne
  | rrep _ _ _ hne => exact hne
  | hello hr ht => exact hev _ hr ht

theorem Strangers.moves {e : Env} {ev : Event} {own : Addr} {s s' : Daemon} (h : Strangers own s)
    (hs : WellFormed s) (hm : ReflTransGen (Move e ev) s s')
    (hev : ∀ pkt, ev = .recv pkt → isHello pkt = true → (rrepOf pkt.buf).destAddr ≠ own) :
    Strangers own s' := by
  induction hm with
  | refl => exact h
  | tail hrun hm ih => exact ih.move (moves_wellFormed hrun hs) hm hev

theorem Strangers.step {e : Env} {own : Addr} {s : Daemon} (h : Strangers own s) (hs : Resting s)
    {ev : Event} (hev : sparesSelf own ev = true) : Strangers own (step e s ev) := by
  have hrun (hev : ∀ pkt, ev = .recv pkt → isHello pkt = true → (rrepOf pkt.buf).destAddr ≠ own) :
      Strangers own (Aodv.step e s ev) :=
    h.moves hs.wellFormed (step_moves (e := e) hs ev).1 hev
  cases ev with
  | recv pkt =>
      cases hr : received own pkt with
      | false =>
          rw [step_dropped e hs.wellFormed (h.ipaddr ▸ hr)]
          exact h
      | true =>
          apply hrun
          rintro _ ⟨⟩ hh hd
          simp [sparesSelf, hr, hh, hd] at hev
  | kernel | age | fire =>
      apply hrun
      rintro _ ⟨⟩

theorem no_route_to_self (e : Env) (ipaddr broadcast : Addr) (ifindex : Int) (es : List Event)
    (hes : ∀ ev ∈ es, sparesSelf ipaddr ev = true) :
    ∀ p, Linked (run e (init e ipaddr broadcast ifindex) es).rtTbl p →
      ((run e (init e ipaddr broadcast ifindex) es).rt p).destAddr ≠
        (run e (init e ipaddr broadcast ifindex) es).host.ipaddr := by
  have hrun (s : Daemon) (hs : Resting s) (h : Strangers ipaddr s) :
      Strangers ipaddr (run e s es) := by
    induction es generalizing s with
    | nil => exact h
    | cons ev es ih =>
        have hev := hes ev List.mem_cons_self
        apply ih
        · exact fun ev' hev' => hes ev' (List.mem_cons_of_mem ev hev')
        · exact (step_moves hs ev).2
        · exact h.step hs hev
  have hstart : Strangers ipaddr (init e ipaddr broadcast ifindex) := by
    refine ⟨rfl, ?_⟩
    rintro p ⟨i, hp⟩
    exact absurd hp List.not_mem_nil
  have hend := hrun _ (resting_init e ipaddr broadcast ifindex) hstart
  intro p hp
  rw [hend.ipaddr]
  exact hend.dests p hp

def helloFor (dest : Addr) : Packet :=
  .of (.rrep ⟨false, false, 0, 0, dest, 5, dest, 2000⟩) 0x0200000a aodvBroadcast 1
    (fits_rrep _)

def greeted (dest : Addr) : Daemon :=
  run plain (init plain 0x0100000a 0xff00000a 2) [.recv (helloFor dest)]

theorem no_route_to_self_greeted : entries (greeted 0x0300000a).rtTbl ≠ [] ∧
    ∀ p, Linked (greeted 0x0300000a).rtTbl p →
      ((greeted 0x0300000a).rt p).destAddr ≠ (greeted 0x0300000a).host.ipaddr := by
  constructor
  · decide +kernel
  · apply no_route_to_self plain 0x0100000a 0xff00000a 2 [.recv (helloFor 0x0300000a)]
    simp only [List.mem_singleton, forall_eq]
    decide +kernel

/-- A HELLO of a neighbour that names the daemon is believed. -/
theorem route_to_self : ¬ ∀ s, Reachable plain s → ∀ p, Linked s.rtTbl p →
    (s.rt p).destAddr ≠ s.host.ipaddr := by
  intro hall
  have hsee : 1 ∈ entries (greeted 0x0100000a).rtTbl ∧
      ((greeted 0x0100000a).rt 1).destAddr = (greeted 0x0100000a).host.ipaddr := by decide +kernel
  exact hall (greeted 0x0100000a) ⟨_, _, _, _, rfl⟩ 1 ((mem_entries _ 1).1 hsee.1) hsee.2

end Aodv.Requests
