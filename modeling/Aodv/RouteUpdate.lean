import Aodv.RouteMap

namespace Aodv.RouteUpdate

open Lib.Bytes RouteList

variable {a : Arch}

/-- What an update of the entry for daddr is to do. -/
structure Keeps (hz jiffies : ULong a) (x : Expl a) (daddr nhop : Addr) (time : ULong a)
    (flags : U16) (ifindex : Int) : Prop where
  status : kaodvExplGet x daddr ≠ none →
    (kaodvExplUpdate hz jiffies x daddr nhop time flags ifindex).2 = 0
  written : kaodvExplGet x daddr ≠ none →
    kaodvExplGet (kaodvExplUpdate hz jiffies x daddr nhop time flags ifindex).1 daddr =
      some ⟨expiry hz jiffies time, flags, daddr, nhop, ifindex⟩
  others : ∀ r : ExplEntry a, r.daddr ≠ daddr →
    (r ∈ (kaodvExplUpdate hz jiffies x daddr nhop time flags ifindex).1.explHead ↔
      r ∈ x.explHead)
  absent : kaodvExplGet x daddr = none →
    kaodvExplUpdate hz jiffies x daddr nhop time flags ifindex = (x, -1)

variable {hz jiffies : ULong a} {x : Expl a} {daddr : Addr}

theorem update_status (hold : kaodvExplGet x daddr ≠ none) (nhop : Addr) (time : ULong a)
    (flags : U16) (ifindex : Int) :
    (kaodvExplUpdate hz jiffies x daddr nhop time flags ifindex).2 = 0 := by
  obtain ⟨r, hr⟩ := Option.ne_none_iff_exists'.1 hold
  have hcheck : Locked.kaodvExplCheck x daddr = some r := hr
  simp only [kaodvExplUpdate, hcheck]

theorem update_others (hx : RouteList.Ordered x) (nhop : Addr) (time : ULong a) (flags : U16)
    (ifindex : Int)
    {r : ExplEntry a} (hr : r.daddr ≠ daddr) :
    r ∈ (kaodvExplUpdate hz jiffies x daddr nhop time flags ifindex).1.explHead ↔
      r ∈ x.explHead := by
  by_cases hold : kaodvExplGet x daddr = none
  · rw [update_absent nhop time flags ifindex hold]
  · apply mem_of_get_eq hx (ordered_call hx (.update jiffies daddr nhop time flags ifindex))
    by_cases hroom : x.explLen.toNat ≤ explMaxLen
    · exact (get_update nhop time flags ifindex r.daddr hx hold hroom).trans (if_neg hr)
    · exact (get_update_full nhop time flags ifindex r.daddr hx hold (Nat.lt_of_not_le hroom)).trans
        (if_neg hr)

/-- An update does its work exactly when there is nothing to write or the list does
not count as full: otherwise the entry is off the list before adding it again is refused. -/
theorem keeps_iff (hz : ULong a) (cs : List (Call a)) (jiffies : ULong a) (daddr nhop : Addr)
    (time : ULong a) (flags : U16) (ifindex : Int) :
    Keeps hz jiffies (calls hz cs) daddr nhop time flags ifindex ↔
      (kaodvExplGet (calls hz cs) daddr = none ∨ (calls hz cs).explLen.toNat ≤ explMaxLen) := by
  have hx := ordered_calls hz cs
  constructor
  · intro hkeeps
    by_contra hnot
    obtain ⟨hold, hfull⟩ := not_or.1 hnot
    have hwritten := hkeeps.written hold
    rw [get_update_full nhop time flags ifindex daddr hx hold (Nat.lt_of_not_le hfull),
      if_pos rfl] at hwritten
    cases hwritten
  · intro h
    refine ⟨fun hold => update_status hold nhop time flags ifindex, ?_,
      fun r hr => update_others hx nhop time flags ifindex hr,
      fun hnew => update_absent nhop time flags ifindex hnew⟩
    intro hold
    have hroom := h.resolve_left hold
    exact (get_update nhop time flags ifindex daddr hx hold hroom).trans (if_pos rfl)

theorem get_fill (hz : ULong a) {n m : Nat} (hn : n ≤ explMaxLen + 1) (hm : m < n) :
    kaodvExplGet (calls hz (fill n)) (BitVec.ofNat 32 m) ≠ none := by
  induction n with
  | zero => exact absurd hm (Nat.not_lt_zero m)
  | succ n ih =>
      have hsmall : n + 1 ≤ explMaxLen + 1 := hn
      simp only [explMaxLen] at hsmall
      have hfill := filled_fill hz (n := n) (by omega)
      have hroom : (calls hz (fill n)).explLen.toNat ≤ explMaxLen := by
        rw [hfill.count]
        exact Nat.le_of_succ_le_succ hn
      have hnew : kaodvExplGet (calls hz (fill n)) (BitVec.ofNat 32 n) = none := by
        apply check_none.2
        intro hmem
        obtain ⟨e, he, hd⟩ := List.mem_map.1 hmem
        have hbelow := hfill.below e he
        rw [hd, BitVec.toNat_ofNat] at hbelow
        omega
      have hrun : calls hz (fill (n + 1)) = call hz (calls hz (fill n)) (fillCall n) := by
        simp [calls, fill, List.range_succ]
      rw [hrun, fillCall, call,
        get_add 0 0 0 0 (BitVec.ofNat 32 m) (ordered_calls hz (fill n)) hnew hroom]
      split
      · rintro ⟨⟩
      next hne =>
        apply ih (Nat.le_of_succ_le hn)
        have hmn : m ≠ n := fun h => hne (congrArg (BitVec.ofNat 32) h)
        omega

/-- With 1025 routes on the list, renewing one of them loses it. -/
theorem full_loses :
    ¬ Keeps (100 : ULong .long32) 7 (calls 100 (fill (explMaxLen + 1))) (BitVec.ofNat 32 3) 9 3000 0
      2 := by
  intro h
  have hold := get_fill (100 : ULong .long32) (n := explMaxLen + 1) (m := 3) (Nat.le_refl _)
    (by decide)
  have hcount := (filled_fill (100 : ULong .long32) (n := explMaxLen + 1) (by decide)).count
  have hwritten := h.written hold
  rw [get_update_full 9 3000 0 2 _ (ordered_calls _ _) hold (by rw [hcount]; decide),
    if_pos rfl] at hwritten
  cases hwritten

end Aodv.RouteUpdate
