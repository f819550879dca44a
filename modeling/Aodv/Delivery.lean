import Aodv.Routes

namespace Aodv.Kernel

open Lib.Bytes

/-- The table has a VALID entry for the address, with this next hop and hop count. -/
def Holds (s : Daemon) (dest next : Addr) (hops : U8) : Prop :=
  ∃ p, Linked s.rtTbl p ∧ (s.rt p).state = .valid ∧ (s.rt p).destAddr = dest ∧
    (s.rt p).nextHop = next ∧ (s.rt p).hopcnt = hops

def SameWay (r r' : RtEntry) : Prop :=
  r'.state = r.state ∧ r'.destAddr = r.destAddr ∧ r'.nextHop = r.nextHop ∧ r'.hopcnt = r.hopcnt

theorem SameWay.refl (r : RtEntry) : SameWay r r := ⟨rfl, rfl, rfl, rfl⟩

section Holds

variable {e : Env} {s s' : Daemon} {p : Ptr} {dest next : Addr} {hops : U8}

theorem holds_congr (hl : ∀ p, Linked s'.rtTbl p ↔ Linked s.rtTbl p)
    (hr : ∀ p, SameWay (s.rt p) (s'.rt p)) : Holds s' dest next hops ↔ Holds s dest next hops := by
  apply exists_congr
  intro p
  obtain ⟨hst, hd, hn, hh⟩ := hr p
  rw [hl, hst, hd, hn, hh]

theorem holds_setRt {r : RtEntry} (hr : SameWay (s.rt p) r) :
    Holds (s.setRt p r) dest next hops ↔ Holds s dest next hops := by
  have hl (q : Ptr) : Linked (s.setRt p r).rtTbl q ↔ Linked s.rtTbl q := Iff.rfl
  apply holds_congr hl
  intro q
  by_cases hq : q = p
  · subst q
    rw [rt_setRt_self]
    exact hr
  · rw [rt_setRt_ne s r hq]
    exact .refl _

theorem holds_idle (h : Idle s s') : Holds s' dest next hops ↔ Holds s dest next hops :=
  holds_congr h.linked fun q => ⟨(h.rt q).state, (h.rt q).destAddr, (h.rt q).nextHop, (h.rt q).hopcnt⟩

theorem holds_dest (hs : WellFormed s) (hp : Linked s.rtTbl p)
    (h : Holds s (s.rt p).destAddr next hops) :
    (s.rt p).state = .valid ∧ (s.rt p).nextHop = next ∧ (s.rt p).hopcnt = hops := by
  obtain ⟨q, hq, hv, hd, hn, hh⟩ := h
  obtain rfl := hs.table.dests q p hq hp hd
  exact ⟨hv, hn, hh⟩

theorem holds_change (hs : WellFormed s) (hp : Linked s.rtTbl p)
    (hl : ∀ q, Linked s'.rtTbl q ↔ Linked s.rtTbl q) (hr : ∀ q, q ≠ p → s'.rt q = s.rt q)
    (hd : (s'.rt p).destAddr = (s.rt p).destAddr) :
    Holds s' dest next hops ↔ (dest ≠ (s.rt p).destAddr ∧ Holds s dest next hops) ∨
      ((s'.rt p).state = .valid ∧ dest = (s.rt p).destAddr ∧ next = (s'.rt p).nextHop ∧
        hops = (s'.rt p).hopcnt) := by
  constructor
  · rintro ⟨q, hq, hv, rfl, rfl, rfl⟩
    by_cases hne : q = p
    · subst q
      exact .inr ⟨hv, hd, rfl, rfl⟩
    · rw [hr q hne] at hv ⊢
      refine .inl ⟨fun he => hne (hs.table.dests q p ((hl q).1 hq) hp he), ?_⟩
      exact ⟨q, (hl q).1 hq, hv, rfl, rfl, rfl⟩
  · rintro (⟨hne, q, hq, hv, rfl, rfl, rfl⟩ | ⟨hv, rfl, rfl, rfl⟩)
    · have hqp : q ≠ p := by
        rintro rfl
        exact hne rfl
      refine ⟨q, (hl q).2 hq, ?_⟩
      rw [hr q hqp]
      exact ⟨hv, rfl, rfl, rfl⟩
    · exact ⟨p, (hl p).2 hp, hv, hd, rfl, rfl⟩

theorem holds_invalidate (hs : WellFormed s) (hp : Linked s.rtTbl p) :
    Holds (rtTableInvalidate e s p) dest next hops ↔
      dest ≠ (s.rt p).destAddr ∧ Holds s dest next hops := by
  rw [holds_change hs hp (kept_invalidate e hp).keys.linked (fun q hq => rt_invalidate_ne e s hq)
    (rt_invalidate_self e s p).2.2, state_invalidate]
  simp

theorem holds_markRepair : Holds (markRepair s p) dest next hops ↔ Holds s dest next hops :=
  holds_setRt ⟨rfl, rfl, rfl, rfl⟩

theorem holds_delete (hp : Linked s.rtTbl p) (hi : (s.rt p).state = .invalid) :
    Holds (rtTableDelete e s p) dest next hops ↔ Holds s dest next hops := by
  constructor
  · rintro ⟨q, hq, h⟩
    obtain ⟨hold, hne⟩ := (linked_delete e s p q).1 hq
    rw [rt_delete e s hne] at h
    exact ⟨q, hold, h⟩
  · rintro ⟨q, hq, hv, h⟩
    have hne : q ≠ p := by
      rintro rfl
      rw [hi] at hv
      cases hv
    refine ⟨q, (linked_delete e s p q).2 ⟨hq, hne⟩, ?_⟩
    rw [rt_delete e s hne]
    exact ⟨hv, h⟩

theorem holds_insertEntry (hs : WellFormed s) (r : RtEntry) (hops' lifetime : U32) :
    Holds (insertEntry e s r hops' lifetime) dest next hops ↔ Holds s dest next hops ∨
      (r.state = .valid ∧ r.destAddr = dest ∧ r.nextHop = next ∧ r.hopcnt = hops) := by
  have hold (q : Ptr) (hq : Linked s.rtTbl q) :
      (insertEntry e s r hops' lifetime).rt q = s.rt q := by
    have hne : q ≠ s.brk := by
      rintro rfl
      exact hs.brk_not_linked hq
    rw [rt_insertEntry, rt_linkEntry_ne s r hne]
  have hnew : (insertEntry e s r hops' lifetime).rt s.brk = r :=
    (rt_insertEntry e s r hops' lifetime _).trans (rt_linkEntry_self s r)
  constructor
  · rintro ⟨q, hq, h⟩
    rcases (linked_insertEntry e s r hops' lifetime q).1 hq with rfl | hq
    · rw [hnew] at h
      exact .inr h
    · rw [hold q hq] at h
      exact .inl ⟨q, hq, h⟩
  · rintro (⟨q, hq, h⟩ | h)
    · refine ⟨q, (linked_insertEntry e s r hops' lifetime q).2 (.inr hq), ?_⟩
      rw [hold q hq]
      exact h
    · refine ⟨s.brk, (linked_insertEntry e s r hops' lifetime _).2 (.inl rfl), ?_⟩
      rw [hnew]
      exact h

theorem holds_updateFinish (hs : WellFormed s) (hp : Linked s.rtTbl p) (next' : Addr)
    (hops' seqno lifetime : U32) (flags : RtFlags) :
    Holds (updateFinish e s p next' hops' seqno lifetime .valid flags) dest next hops ↔
      (dest ≠ (s.rt p).destAddr ∧ Holds s dest next hops) ∨
        (dest = (s.rt p).destAddr ∧ next = next' ∧ hops = hops'.setWidth 8) := by
  have htbl : (updateFinish e s p next' hops' seqno lifetime .valid flags).rtTbl.tbl = s.rtTbl.tbl := by
    obtain ⟨s₁, hs₁, heq⟩ :=
      updateFinish_eq e (s := s) (p := p) next' hops' seqno lifetime .valid flags
    rw [heq, tbl_routeFound]
    rcases hs₁ with rfl | rfl
    · rfl
    · obtain ⟨q, n, h⟩ := updateTimeout_eq e (writeUpdate s p next' hops' seqno flags) p lifetime
      rw [h]
      rfl
  have hself := rt_updateFinish e s p p next' hops' seqno lifetime .valid flags
  rw [if_pos rfl] at hself
  rw [holds_change hs hp (fun q => by rw [Linked, Linked, htbl])
    (fun q hq => by rw [rt_updateFinish, if_neg hq]) (by rw [hself]), hself]
  simp

end Holds

/-- Every netlink message gets through. -/
def Reliable (e : Env) : Prop := ∀ n, e.sendmsg n = true

def isNetlink : Obs → Bool
  | .nl (.addRoute ..) | .nl (.delRoute ..) | .kernelRoute .. => true
  | _ => false

def netlinked (s : Daemon) : List Obs := s.trace.filter isNetlink

section Netlinked

variable {e : Env} {s s' : Daemon} {p : Ptr}

theorem netlinked_said (h : Said (fun o => isNetlink o = false) s s') :
    netlinked s' = netlinked s := by
  obtain ⟨l, hl, hP⟩ := h
  have hnone : l.filter isNetlink = [] := List.filter_eq_nil_iff.2 fun o ho => by simp [hP o ho]
  rw [netlinked, hl, List.filter_append, hnone]
  rfl

theorem netlinked_same (h : s'.trace = s.trace) : netlinked s' = netlinked s := by
  rw [netlinked, h, netlinked]

theorem netlinked_idle (h : Idle s s') : netlinked s' = netlinked s := by
  apply netlinked_said
  apply h.said.mono
  intro o ho
  cases o <;> first | rfl | cases ho

theorem netlinked_nlSendBoth (hrel : Reliable e) (first second : Obs) (hf : isNetlink first = true)
    (hs : isNetlink second = true) :
    netlinked (nlSendBoth e s first second) = second :: first :: netlinked s := by
  simp [netlinked, nlSendBoth, hrel _, hf, hs]

theorem netlinked_delRoute (hrel : Reliable e) (dest next : Addr) (metric : Int) :
    netlinked (nlSendDelRouteMsg e s dest next metric) =
      .kernelRoute false dest next metric (-1) :: .nl (.delRoute dest next) :: netlinked s :=
  netlinked_nlSendBoth hrel _ _ rfl rfl

theorem netlinked_addRoute (hrel : Reliable e) (dest next : Addr) (metric : Int) (lifetime : U32)
    (flags : RtFlags) (ifindex : Int) :
    netlinked (nlSendAddRouteMsg e s dest next metric lifetime flags ifindex) =
      .kernelRoute true dest next metric ifindex ::
        .nl (.addRoute dest next lifetime flags.inetDest flags.repair ifindex) :: netlinked s :=
  netlinked_nlSendBoth hrel _ _ rfl rfl

def downMsgs (r : RtEntry) : List Obs :=
  [.kernelRoute false r.destAddr r.nextHop r.hopcnt.toNat (-1), .nl (.delRoute r.destAddr r.nextHop)]

theorem netlinked_invalidate (hrel : Reliable e) (hv : (s.rt p).state = .valid) :
    netlinked (rtTableInvalidate e s p) = downMsgs (s.rt p) ++ netlinked s := by
  have hv' : (s.tock.rt p).state = .valid := hv
  rw [rtTableInvalidate]
  dsimp only
  rw [hv']
  dsimp only
  exact netlinked_delRoute hrel _ _ _

theorem netlinked_repairTimeout (hrel : Reliable e) :
    netlinked (localRepairTimeout e s p) = downMsgs (s.rt p) ++ netlinked s := by
  have hreport (s : Daemon) : netlinked (repairReport e s p) = netlinked s := by
    rw [repairReport]
    dsimp only
    split
    · exact netlinked_said (.one rfl rfl)
    · rfl
  change netlinked (repairReport e (repairOver e s p) p) = _
  rw [hreport]
  exact netlinked_delRoute hrel _ _ _

theorem netlinked_delete (hi : (s.rt p).state = .invalid) :
    netlinked (rtTableDelete e s p) = netlinked s := by
  have hi' : ((precursorListDestroy { s with rtTbl := listRemove s.rtTbl p } p).rt p).state =
      .invalid := by
    rw [precursorListDestroy, rt_setRt_self]
    exact hi
  rw [rtTableDelete]
  dsimp only
  rw [hi']
  rfl

def upMsgs (dest next : Addr) (hops lifetime : U32) (flags : RtFlags) (ifindex : Int) : List Obs :=
  [.kernelRoute true dest next hops.toInt ifindex,
    .nl (.addRoute dest next lifetime flags.inetDest flags.repair ifindex)]

theorem netlinked_insertEntry (hrel : Reliable e) (s : Daemon) (r : RtEntry) (hops lifetime : U32) :
    netlinked (insertEntry e s r hops lifetime) = match r.state with
      | .valid => upMsgs r.destAddr r.nextHop hops lifetime r.flags s.host.ifindex ++ netlinked s
      | .invalid => netlinked s := by
  have htail (s : Daemon) (p : Ptr) (l : U32) :
      netlinked (routeFound (armEntry e s p l) p) = netlinked s := by
    apply netlinked_same
    rw [routeFound_trace, armEntry]
    split <;> rfl
  rw [insertEntry, htail, openEntry, rt_linkEntry_self]
  cases r.state with
  | valid => exact netlinked_addRoute hrel _ _ _ _ _ _
  | invalid =>
      dsimp only
      split <;> rfl

/-- An update sends its messages before anything else happens, and only for a
route that is new or has another next hop. -/
theorem netlinked_updateBegin (hrel : Reliable e) (next : Addr) (hops lifetime : U32)
    (flags : RtFlags) : netlinked (updateBegin e s p next hops lifetime .valid flags).1 =
      if (s.rt p).state = .invalid ∨ ((s.rt p).nextHop ≠ 0 ∧ (s.rt p).nextHop ≠ next) then
        upMsgs (s.rt p).destAddr next hops lifetime
          (updateBegin e s p next hops lifetime .valid flags).2 s.host.ifindex ++ netlinked s
      else netlinked s := by
  rw [updateBegin]
  dsimp only
  by_cases hi : (s.rt p).state = .invalid
  · have hup : (s.rt p).state = .invalid ∧ RtState.valid = .valid := ⟨hi, rfl⟩
    rw [if_pos hup, if_pos (Or.inl hi)]
    exact netlinked_addRoute hrel _ _ _ _ _ _
  · have hup : ¬ ((s.rt p).state = .invalid ∧ RtState.valid = .valid) := fun h => hi h.1
    rw [if_neg hup]
    by_cases hn : (s.rt p).nextHop ≠ 0 ∧ (s.rt p).nextHop ≠ next
    · rw [if_pos hn, if_pos (Or.inr hn)]
      exact netlinked_addRoute hrel _ _ _ _ _ _
    · rw [if_neg hn, if_neg fun h => h.elim hi hn]

theorem netlinked_updateFinish (next : Addr) (hops seqno lifetime : U32) (state : RtState)
    (flags : RtFlags) :
    netlinked (updateFinish e s p next hops seqno lifetime state flags) = netlinked s :=
  netlinked_same (updateFinish_trace e s p next hops seqno lifetime state flags)

end Netlinked

end Aodv.Kernel
