import Aodv.Routes
import Aodv.Lib.Sequences
import Mathlib.Data.Fintype.Card

namespace Aodv.HashTable

open Lib.Bytes

/-- Every address has an entry. The 32-bit counter of entries is then 0 again. -/
def Full (t : RoutingTable) : Prop := (entries t).length = 2 ^ 32

instance (t : RoutingTable) : Decidable (Full t) :=
  inferInstanceAs (Decidable ((entries t).length = 2 ^ 32))

section Lookup

variable {t : RoutingTable} {brk : Ptr} {p : Ptr}

theorem length_entries_le (h : TableWf t brk) : (entries t).length ≤ 2 ^ 32 := by
  have hnodup : ((entries t).map fun p => (t.rtMem p).destAddr.toFin).Nodup := by
    apply h.entries_nodup.map_on
    intro p hp q hq heq
    apply h.dests p q ((mem_entries t p).1 hp) ((mem_entries t q).1 hq)
    exact BitVec.eq_of_toFin_eq heq
  have hle := List.Nodup.length_le_card hnodup
  rwa [List.length_map, Fintype.card_fin] at hle

theorem toNat_numEntries (h : TableWf t brk) (hfull : ¬ Full t) :
    t.numEntries.toNat = (entries t).length := by
  have hle := length_entries_le h
  rw [h.count, BitVec.toNat_ofNat]
  apply Nat.mod_eq_of_lt
  exact Nat.lt_of_le_of_ne hle hfull

theorem not_full_of_absent (h : TableWf t brk) {d : Addr}
    (hd : ∀ p, Linked t p → (t.rtMem p).destAddr ≠ d) : ¬ Full t := by
  have hnodup : ((entries t).map fun p => (t.rtMem p).destAddr).Nodup := by
    apply h.entries_nodup.map_on
    intro p hp q hq
    exact h.dests p q ((mem_entries t p).1 hp) ((mem_entries t q).1 hq)
  have hlt := Lib.Sequences.length_lt_of_nodup hnodup (b := d) (by
    rintro hmem
    obtain ⟨p, hp, rfl⟩ := List.mem_map.1 hmem
    exact hd p ((mem_entries t p).1 hp) rfl)
  rw [List.length_map] at hlt
  exact Nat.ne_of_lt hlt

theorem numEntries_full (h : TableWf t brk) (hfull : Full t) : t.numEntries = 0 := by
  rw [h.count, hfull]
  rfl

theorem rtTableCheck_eq_some (h : TableWf t brk) (hfull : ¬ Full t) {d : Addr} :
    rtTableCheck t d = some p ↔ Linked t p ∧ (t.rtMem p).destAddr = d := by
  constructor
  · exact rtTableCheck_some
  · rintro ⟨⟨i, hp⟩, hd⟩
    obtain ⟨hi, hhash⟩ := h.bucket i p hp
    have hnonzero : t.numEntries ≠ 0 := by
      intro hzero
      have hcount := toNat_numEntries h hfull
      rw [hzero] at hcount
      have hmem := (mem_entries t p).2 ⟨i, hp⟩
      rw [List.length_eq_zero_iff.1 hcount.symm] at hmem
      exact absurd hmem List.not_mem_nil
    rw [hd] at hi hhash
    rw [rtTableCheck, if_neg hnonzero, hi]
    cases hfind : (t.tbl i).find? fun q =>
        decide ((t.rtMem q).hash = d ∧ d = (t.rtMem q).destAddr) with
    | none =>
        have hnone := List.find?_eq_none.1 hfind p hp
        exact absurd (decide_eq_true ⟨hhash, hd.symm⟩) hnone
    | some q =>
        have hq := List.find?_some hfind
        rw [decide_eq_true_eq] at hq
        have heq := h.dests q p ⟨i, List.mem_of_find?_eq_some hfind⟩ ⟨i, hp⟩ (hq.2.symm.trans hd.symm)
        rw [heq]

end Lookup

/-- The map that a table stands for: to each destination the entry that was
inserted last and is not yet deleted. -/
abbrev Routes := Addr → Option Ptr

def Routes.inserted (m : Routes) (dest : Addr) : Option Ptr → Routes
  | none => m
  | some p => Function.update m dest (some p)

/-- Sequences of calls from the start of the program on. A call of rt_table_check
changes nothing. -/
inductive Calls (e : Env) : Daemon → Routes → Prop
  | start (ipaddr broadcast : Addr) (ifindex : Int) :
      Calls e (init e ipaddr broadcast ifindex) fun _ => none
  | insert {s : Daemon} {m : Routes} (h : Calls e s m) (dest next : Addr)
      (hops seqno lifetime : U32) (state : RtState) (flags : RtFlags) :
      Calls e (rtTableInsert e s dest next hops seqno lifetime state flags).1
        (m.inserted dest (rtTableInsert e s dest next hops seqno lifetime state flags).2)
  | update {s : Daemon} {m : Routes} (h : Calls e s m) {p : Ptr} (hp : Linked s.rtTbl p)
      (next : Addr) (hops seqno lifetime : U32) (state : RtState) (flags : RtFlags) :
      Calls e (rtTableUpdate e s p next hops seqno lifetime state flags) m
  | invalidate {s : Daemon} {m : Routes} (h : Calls e s m) {p : Ptr} (hp : Linked s.rtTbl p) :
      Calls e (rtTableInvalidate e s p) m
  | delete {s : Daemon} {m : Routes} (h : Calls e s m) {p : Ptr} (hp : Linked s.rtTbl p) :
      Calls e (rtTableDelete e s p) (Function.update m (s.rt p).destAddr none)

/-- The linked objects are the entries of the map. -/
def Stands (s : Daemon) (m : Routes) : Prop :=
  ∀ d p, m d = some p ↔ Linked s.rtTbl p ∧ (s.rt p).destAddr = d

section Stands

variable {e : Env} {s s' : Daemon} {m : Routes} {p : Ptr}

theorem Stands.keys (h : Stands s m) (hk : SameKeys s.rtTbl s'.rtTbl) : Stands s' m := by
  intro d p
  rw [h d p, hk.linked]
  exact and_congr_right fun _ => Eq.congr (hk.destAddr p).symm rfl

theorem keys_update (hp : Linked s.rtTbl p) (next : Addr) (hops seqno lifetime : U32)
    (state : RtState) (flags : RtFlags) :
    SameKeys s.rtTbl (rtTableUpdate e s p next hops seqno lifetime state flags).rtTbl := by
  obtain ⟨s', hkept, heq⟩ := update_kept e s hp next hops seqno lifetime state flags
  rw [heq, tbl_routeFound]
  exact hkept.keys

theorem rt_insertEntry_self (r : RtEntry) (hops lifetime : U32) :
    (insertEntry e s r hops lifetime).rt s.brk = r := by
  rw [rt_insertEntry]
  exact rt_linkEntry_self s r

theorem rt_insertEntry_ne (r : RtEntry) (hops lifetime : U32) {q : Ptr} (hq : q ≠ s.brk) :
    (insertEntry e s r hops lifetime).rt q = s.rt q := by
  rw [rt_insertEntry]
  exact rt_linkEntry_ne s r hq

/-- There is an entry for the destination, or the insertion links a new one. -/
theorem insert_stands (hs : WellFormed s) (h : Stands s m) (dest next : Addr)
    (hops seqno lifetime : U32) (state : RtState) (flags : RtFlags) :
    (m dest ≠ none ∧ rtTableInsert e s dest next hops seqno lifetime state flags = (s, none)) ∨
      (m dest = none ∧ (rtTableInsert e s dest next hops seqno lifetime state flags).2 = some s.brk ∧
        (∀ q, Linked (rtTableInsert e s dest next hops seqno lifetime state flags).1.rtTbl q ↔
          q = s.brk ∨ Linked s.rtTbl q) ∧
        ((rtTableInsert e s dest next hops seqno lifetime state flags).1.rt s.brk).destAddr = dest ∧
        ∀ q, q ≠ s.brk →
          (rtTableInsert e s dest next hops seqno lifetime state flags).1.rt q = s.rt q) := by
  rw [rtTableInsert]
  split
  next hany =>
    left
    obtain ⟨p, hp, hd⟩ := List.any_eq_true.1 hany
    rw [decide_eq_true_eq] at hd
    rw [(h dest p).2 ⟨⟨_, hp⟩, hd⟩]
    exact ⟨by simp, rfl⟩
  next hany =>
    right
    have hnone : m dest = none := by
      cases hm : m dest with
      | none => rfl
      | some p =>
          obtain ⟨⟨i, hp⟩, hd⟩ := (h dest p).1 hm
          refine absurd ?_ hany
          have hi := (hs.table.bucket i p hp).1
          change hashing (s.rt p).destAddr = i at hi
          rw [hd] at hi
          rw [List.any_eq_true, hi]
          exact ⟨p, hp, decide_eq_true hd⟩
    refine ⟨hnone, rfl, fun q => linked_insertEntry e _ _ _ _ q, ?_, fun q hq => ?_⟩
    · exact congrArg RtEntry.destAddr (rt_insertEntry_self (s := s.observe _) _ _ _)
    · exact rt_insertEntry_ne (s := s.observe _) _ _ _ hq

theorem stands_inserted (hs : WellFormed s) (h : Stands s m) (dest next : Addr)
    (hops seqno lifetime : U32) (state : RtState) (flags : RtFlags) :
    Stands (rtTableInsert e s dest next hops seqno lifetime state flags).1
      (m.inserted dest (rtTableInsert e s dest next hops seqno lifetime state flags).2) := by
  rcases insert_stands (e := e) hs h dest next hops seqno lifetime state flags with
    ⟨_, heq⟩ | ⟨hnone, hptr, hlinked, hself, hother⟩
  · rw [heq]
    exact h
  · intro d p
    rw [hptr, hlinked, Routes.inserted]
    by_cases hp : p = s.brk
    · subst hp
      rw [hself]
      by_cases hd : d = dest
      · subst d
        simp
      · rw [Function.update_of_ne hd, h d]
        constructor
        · rintro ⟨hl, _⟩
          exact absurd rfl (Nat.ne_of_lt (hs.table.below _ hl))
        · rintro ⟨_, hd'⟩
          exact absurd hd'.symm hd
    · rw [hother p hp]
      by_cases hd : d = dest
      · subst d
        rw [Function.update_self]
        constructor
        · intro heq
          exact absurd (Option.some.inj heq).symm hp
        · rintro ⟨hl, hd⟩
          have hsome := (h _ p).2 ⟨hl.resolve_left hp, hd⟩
          rw [hnone] at hsome
          cases hsome
      · rw [Function.update_of_ne hd, h d]
        simp [hp]

theorem stands_delete (hs : WellFormed s) (h : Stands s m) (hp : Linked s.rtTbl p) :
    Stands (rtTableDelete e s p) (Function.update m (s.rt p).destAddr none) := by
  intro d q
  rw [linked_delete]
  by_cases hq : q = p
  · subst hq
    simp only [ne_eq, not_true_eq_false, and_false, false_and, iff_false]
    by_cases hd : d = (s.rt q).destAddr
    · rw [hd, Function.update_self]
      simp
    · rw [Function.update_of_ne hd, h d q]
      rintro ⟨_, hd'⟩
      exact hd hd'.symm
  · rw [rt_delete e s hq]
    by_cases hd : d = (s.rt p).destAddr
    · rw [hd, Function.update_self]
      constructor
      · intro hn
        cases hn
      · rintro ⟨⟨hl, _⟩, hd'⟩
        exact absurd (hs.table.dests q p hl hp hd') hq
    · rw [Function.update_of_ne hd, h d q]
      simp [hq]

theorem Calls.stands (h : Calls e s m) : WellFormed s ∧ Stands s m := by
  induction h with
  | start ipaddr broadcast ifindex =>
      refine ⟨wellFormed_init e ipaddr broadcast ifindex, fun d p => ?_⟩
      constructor
      · intro hm
        cases hm
      · rintro ⟨⟨i, hp⟩, _⟩
        exact absurd hp List.not_mem_nil
  | insert _ dest next hops seqno lifetime state flags ih =>
      obtain ⟨hs, hm⟩ := ih
      exact ⟨wellFormed_insert e hs dest next hops seqno lifetime state flags,
        stands_inserted hs hm dest next hops seqno lifetime state flags⟩
  | update _ hp next hops seqno lifetime state flags ih =>
      obtain ⟨hs, hm⟩ := ih
      exact ⟨(update_sound e hs hp next hops seqno lifetime state flags).wellFormed,
        hm.keys (keys_update hp next hops seqno lifetime state flags)⟩
  | invalidate _ hp ih =>
      obtain ⟨hs, hm⟩ := ih
      have hkept := kept_invalidate e hp
      exact ⟨hkept.wellFormed hs, hm.keys hkept.keys⟩
  | delete _ hp ih =>
      obtain ⟨hs, hm⟩ := ih
      exact ⟨wellFormed_delete e hs hp, stands_delete hs hm hp⟩

end Stands

/-- The table stands for m. -/
structure MapOf (t : RoutingTable) (m : Routes) : Prop where
  count : t.numEntries.toNat = if Full t then 0 else (entries t).length
  bucket : ∀ i, ∀ p ∈ t.tbl i,
    hashing (t.rtMem p).destAddr = i ∧ (t.rtMem p).hash = (t.rtMem p).destAddr
  nodup : (entries t).Nodup
  dests : ∀ p q, Linked t p → Linked t q → (t.rtMem p).destAddr = (t.rtMem q).destAddr → p = q
  lookup : ∀ d, rtTableCheck t d = if Full t then none else m d

/-- The entry for d is what it was, and is found again. -/
def Untouched (s s' : Daemon) (d : Addr) : Prop :=
  (∀ p, Linked s.rtTbl p → (s.rt p).destAddr = d → Linked s'.rtTbl p ∧ s'.rt p = s.rt p) ∧
    (¬ Full s.rtTbl → ¬ Full s'.rtTbl → rtTableCheck s'.rtTbl d = rtTableCheck s.rtTbl d)

section Map

variable {e : Env} {s s' : Daemon} {m : Routes} {p : Ptr} {d : Addr}

theorem mapOf (hs : WellFormed s) (hm : Stands s m) : MapOf s.rtTbl m := by
  refine ⟨?_, hs.table.bucket, hs.table.entries_nodup, hs.table.dests, fun d => ?_⟩
  · split
    next hfull => rw [numEntries_full hs.table hfull]; rfl
    next hfull => exact toNat_numEntries hs.table hfull
  · split
    next hfull => rw [rtTableCheck, if_pos (numEntries_full hs.table hfull)]
    next hfull =>
      ext p
      rw [rtTableCheck_eq_some hs.table hfull, hm d p]
      rfl

theorem untouched_of (hs : WellFormed s) (hs' : WellFormed s')
    (hlinked : ∀ p, Linked s'.rtTbl p → (s'.rt p).destAddr = d → Linked s.rtTbl p ∧ s'.rt p = s.rt p)
    (hstays : ∀ p, Linked s.rtTbl p → (s.rt p).destAddr = d → Linked s'.rtTbl p ∧ s'.rt p = s.rt p) :
    Untouched s s' d := by
  refine ⟨hstays, fun hfull hfull' => ?_⟩
  ext p
  rw [rtTableCheck_eq_some hs.table hfull, rtTableCheck_eq_some hs'.table hfull']
  constructor
  · rintro ⟨hp, hd⟩
    obtain ⟨hl, hrt⟩ := hlinked p hp hd
    change (s'.rt p).destAddr = d at hd
    rw [hrt] at hd
    exact ⟨hl, hd⟩
  · rintro ⟨hp, hd⟩
    obtain ⟨hl, hrt⟩ := hstays p hp hd
    change (s.rt p).destAddr = d at hd
    rw [← hrt] at hd
    exact ⟨hl, hd⟩

theorem untouched_insert (hs : WellFormed s) (hm : Stands s m) (dest next : Addr)
    (hops seqno lifetime : U32) (state : RtState) (flags : RtFlags) (hd : d ≠ dest) :
    Untouched s (rtTableInsert e s dest next hops seqno lifetime state flags).1 d := by
  have hs' := wellFormed_insert e hs dest next hops seqno lifetime state flags
  rcases insert_stands (e := e) hs hm dest next hops seqno lifetime state flags with
    ⟨_, heq⟩ | ⟨_, _, hlinked, hself, hother⟩
  · rw [heq]
    exact untouched_of hs hs (fun p hp _ => ⟨hp, rfl⟩) fun p hp _ => ⟨hp, rfl⟩
  · refine untouched_of hs hs' (fun p hp hpd => ?_) fun p hp _ => ?_
    · have hne : p ≠ s.brk := by
        rintro rfl
        exact hd (hpd.symm.trans hself)
      exact ⟨((hlinked p).1 hp).resolve_left hne, hother p hne⟩
    · exact ⟨(hlinked p).2 (.inr hp), hother p (Nat.ne_of_lt (hs.table.below p hp))⟩

theorem rt_update_ne (hs : WellFormed s) (hp : Linked s.rtTbl p) (next : Addr)
    (hops seqno lifetime : U32) (state : RtState) (flags : RtFlags)
    (hbreak : ¬ (1 < hops ∧ (s.rt p).hopcnt = 1)) {q : Ptr} (hq : q ≠ p) :
    (rtTableUpdate e s p next hops seqno lifetime state flags).rt q = s.rt q := by
  obtain ⟨s₁, f, -, -, hrt, -, -, -, -, heq⟩ :=
    update_parts e hs hp next hops seqno lifetime state flags
  have hstay : updateBreak e s₁ p hops = s₁ := by
    rw [← hrt] at hbreak
    exact if_neg hbreak
  rw [heq, rt_updateFinish, if_neg hq, hstay, hrt]

theorem untouched_update (hs : WellFormed s) (hp : Linked s.rtTbl p) (next : Addr)
    (hops seqno lifetime : U32) (state : RtState) (flags : RtFlags)
    (hbreak : ¬ (1 < hops ∧ (s.rt p).hopcnt = 1)) (hd : d ≠ (s.rt p).destAddr) :
    Untouched s (rtTableUpdate e s p next hops seqno lifetime state flags) d := by
  have hkeys := keys_update (e := e) hp next hops seqno lifetime state flags
  have hs' := (update_sound e hs hp next hops seqno lifetime state flags).wellFormed
  have hne {q : Ptr} (hq : (s.rt q).destAddr = d) : q ≠ p := by
    rintro rfl
    exact hd hq.symm
  refine untouched_of hs hs' (fun q hq hqd => ?_) fun q hq hqd => ?_
  · have hdest : (s.rt q).destAddr = d := (hkeys.destAddr q).symm.trans hqd
    exact ⟨(hkeys.linked q).1 hq, rt_update_ne hs hp next hops seqno lifetime state flags hbreak
      (hne hdest)⟩
  · exact ⟨(hkeys.linked q).2 hq, rt_update_ne hs hp next hops seqno lifetime state flags hbreak
      (hne hqd)⟩

theorem untouched_invalidate (hs : WellFormed s) (hp : Linked s.rtTbl p)
    (hd : d ≠ (s.rt p).destAddr) : Untouched s (rtTableInvalidate e s p) d := by
  have hkept := kept_invalidate e hp
  have hne {q : Ptr} (hq : (s.rt q).destAddr = d) : q ≠ p := by
    rintro rfl
    exact hd hq.symm
  refine untouched_of hs (hkept.wellFormed hs) (fun q hq hqd => ?_) fun q hq hqd => ?_
  · have hdest : (s.rt q).destAddr = d := (hkept.keys.destAddr q).symm.trans hqd
    exact ⟨(hkept.keys.linked q).1 hq, rt_invalidate_ne e s (hne hdest)⟩
  · exact ⟨(hkept.keys.linked q).2 hq, rt_invalidate_ne e s (hne hqd)⟩

theorem untouched_delete (hs : WellFormed s) (hp : Linked s.rtTbl p)
    (hd : d ≠ (s.rt p).destAddr) : Untouched s (rtTableDelete e s p) d := by
  have hne {q : Ptr} (hq : (s.rt q).destAddr = d) : q ≠ p := by
    rintro rfl
    exact hd hq.symm
  refine untouched_of hs (wellFormed_delete e hs hp) (fun q hq hqd => ?_) fun q hq hqd => ?_
  · obtain ⟨hl, hqp⟩ := (linked_delete e s p q).1 hq
    exact ⟨hl, rt_delete e s hqp⟩
  · exact ⟨(linked_delete e s p q).2 ⟨hq, hne hqd⟩, rt_delete e s (hne hqd)⟩

/-- After every sequence of calls the table is the map of what was inserted last
and not deleted; only when every address has an entry does the counter hide them. -/
theorem table_is_map (h : Calls e s m) :
    MapOf s.rtTbl m ∧
      (∀ dest next hops seqno lifetime state flags,
        ((rtTableInsert e s dest next hops seqno lifetime state flags).2 = none ↔ m dest ≠ none) ∧
          ((rtTableInsert e s dest next hops seqno lifetime state flags).2 = none →
            (rtTableInsert e s dest next hops seqno lifetime state flags).1 = s) ∧
          ∀ d ≠ dest, Untouched s (rtTableInsert e s dest next hops seqno lifetime state flags).1 d) ∧
      ∀ p, Linked s.rtTbl p → ∀ d ≠ (s.rt p).destAddr,
        Untouched s (rtTableInvalidate e s p) d ∧ Untouched s (rtTableDelete e s p) d ∧
          ∀ next hops seqno lifetime state flags, ¬ (1 < hops ∧ (s.rt p).hopcnt = 1) →
            Untouched s (rtTableUpdate e s p next hops seqno lifetime state flags) d := by
  obtain ⟨hs, hm⟩ := h.stands
  refine ⟨mapOf hs hm, fun dest next hops seqno lifetime state flags => ?_, fun p hp d hd => ?_⟩
  · have hcases := insert_stands (e := e) hs hm dest next hops seqno lifetime state flags
    refine ⟨?_, ?_, fun d hd => untouched_insert hs hm dest next hops seqno lifetime state flags hd⟩
    · rcases hcases with ⟨hsome, heq⟩ | ⟨hnone, hptr, _⟩
      · rw [heq]
        exact iff_of_true rfl hsome
      · rw [hptr]
        exact iff_of_false (by simp) (by simp [hnone])
    · intro hfails
      rcases hcases with ⟨_, heq⟩ | ⟨_, hptr, _⟩
      · rw [heq]
      · rw [hptr] at hfails
        cases hfails
  · refine ⟨untouched_invalidate hs hp hd, untouched_delete hs hp hd, ?_⟩
    exact fun next hops seqno lifetime state flags hbreak =>
      untouched_update hs hp next hops seqno lifetime state flags hbreak hd

def threeRoutes : Daemon × Routes :=
  let s := init plain 0x0100000a 0xff00000a 2
  let x := rtTableInsert plain s 0x0200000a 0x0200000a 1 0 3000 .valid .zero
  let y := rtTableInsert plain x.1 0x0300000a 0x0300000a 1 0 3000 .valid .zero
  let z := rtTableDelete plain y.1 1
  let w := rtTableInsert plain z 0x0400000a 0x0200000a 2 0 3000 .valid .zero
  (w.1, Routes.inserted (Function.update (Routes.inserted (Routes.inserted (fun _ => none)
    0x0200000a x.2) 0x0300000a y.2) (y.1.rt 1).destAddr none) 0x0400000a w.2)

theorem calls_threeRoutes : Calls plain threeRoutes.1 threeRoutes.2 := by
  refine .insert (.delete (.insert (.insert (.start _ _ _) _ _ _ _ _ _ _) _ _ _ _ _ _ _) ?_) _ _ _ _
    _ _ _
  exact (mem_entries _ 1).1 (by decide +kernel)

theorem table_is_map_threeRoutes : MapOf threeRoutes.1.rtTbl threeRoutes.2 :=
  (table_is_map calls_threeRoutes).1

theorem calls_inserts {ds : List Addr} (hds : ds.Nodup) : ∃ s m, Calls e s m ∧
    (entries s.rtTbl).length = ds.length ∧ ∀ d, m d ≠ none ↔ d ∈ ds := by
  induction ds with
  | nil => exact ⟨_, _, .start 0x0100000a 0xff00000a 2, rfl, by simp⟩
  | cons d ds ih =>
      obtain ⟨hd, hds⟩ := List.nodup_cons.1 hds
      obtain ⟨s, m, hcalls, hlen, hmem⟩ := ih hds
      have hnone : ¬ m d ≠ none := fun hsome => hd ((hmem d).1 hsome)
      obtain ⟨hs, hm⟩ := hcalls.stands
      have hnew := hcalls.insert d d 1 0 0 .valid .zero
      have hs' := hnew.stands.1
      rcases insert_stands (e := e) hs hm d d 1 0 0 .valid .zero with ⟨hsome, _⟩ |
        ⟨_, hptr, hlinked, _, _⟩
      · exact absurd hsome hnone
      · rw [hptr] at hnew
        refine ⟨_, _, hnew, ?_, fun d' => ?_⟩
        · rw [List.length_cons, ← hlen]
          refine entries_length_succ hs.table.entries_nodup hs'.table.entries_nodup (fun hl => ?_)
            hlinked
          exact absurd rfl (Nat.ne_of_lt (hs.table.below _ hl))
        · rw [Routes.inserted, List.mem_cons]
          by_cases heq : d' = d
          · rw [heq, Function.update_self]
            simp
          · rw [Function.update_of_ne heq, hmem d']
            simp [heq]

theorem nodup_addresses : ((List.range (2 ^ 32)).map (BitVec.ofNat 32)).Nodup := by
  apply List.nodup_range.map_on
  intro i hi j hj heq
  have hnat := congrArg BitVec.toNat heq
  rw [List.mem_range] at hi hj
  rwa [BitVec.toNat_ofNat, BitVec.toNat_ofNat, Nat.mod_eq_of_lt hi, Nat.mod_eq_of_lt hj] at hnat

theorem counter_wraps : ¬ ∀ s m, Calls wide s m →
    s.rtTbl.numEntries.toNat = (entries s.rtTbl).length ∧ ∀ d, rtTableCheck s.rtTbl d = m d := by
  intro hall
  obtain ⟨s, m, hcalls, hlen, _⟩ := calls_inserts (e := wide) nodup_addresses
  rw [List.length_map, List.length_range] at hlen
  have hzero := numEntries_full hcalls.stands.1.table hlen
  have hcount := (hall s m hcalls).1
  rw [hzero, hlen] at hcount
  cases hcount

end Map

end Aodv.HashTable
