import Aodv.RouteList

namespace Aodv.RouteList

open Lib.Bytes

variable {a : Arch} {x : Expl a}

theorem mem_of_get {d : Addr} {r : ExplEntry a} (h : kaodvExplGet x d = some r) :
    r ∈ x.explHead ∧ r.daddr = d :=
  ⟨List.mem_of_find?_eq_some h,
    of_decide_eq_true (List.find?_some (p := fun e : ExplEntry a => decide (e.daddr = d)) h)⟩

theorem get_eq_some (hx : Ordered x) {d : Addr} {r : ExplEntry a} :
    kaodvExplGet x d = some r ↔ r ∈ x.explHead ∧ r.daddr = d := by
  constructor
  · exact mem_of_get
  · rintro ⟨hr, hd⟩
    cases hget : kaodvExplGet x d with
    | none => exact absurd (List.mem_map.2 ⟨r, hr, hd⟩) (check_none.1 hget)
    | some r' =>
        obtain ⟨hr', hd'⟩ := mem_of_get hget
        rw [List.inj_on_of_nodup_map hx.distinct hr' hr (hd'.trans hd.symm)]

theorem mem_of_get_eq {x' : Expl a} (hx : Ordered x) (hx' : Ordered x') {r : ExplEntry a}
    (hget : kaodvExplGet x' r.daddr = kaodvExplGet x r.daddr) :
    r ∈ x'.explHead ↔ r ∈ x.explHead := by
  have hmem {y : Expl a} (hy : Ordered y) : r ∈ y.explHead ↔ kaodvExplGet y r.daddr = some r := by
    rw [get_eq_some hy]
    exact (and_iff_left rfl).symm
  rw [hmem hx, hmem hx', hget]

theorem mem_listDel (hx : Ordered x) {d : Addr} {r : ExplEntry a} :
    r ∈ (Locked.listDel x d).explHead ↔ r ∈ x.explHead ∧ r.daddr ≠ d := by
  constructor
  · intro hr
    refine ⟨List.mem_of_mem_eraseP hr, ?_⟩
    intro hd
    exact listDel_absent hx d (List.mem_map.2 ⟨r, hr, hd⟩)
  · rintro ⟨hr, hd⟩
    exact (List.mem_eraseP_of_neg (by simpa using hd)).2 hr

theorem get_listDel (hx : Ordered x) (d d' : Addr) :
    kaodvExplGet (Locked.listDel x d) d' = if d' = d then none else kaodvExplGet x d' := by
  apply Option.ext
  intro r
  rw [get_eq_some (ordered_listDel hx d), mem_listDel hx]
  split
  next hd =>
    constructor
    · rintro ⟨⟨_, hne⟩, hr⟩
      exact absurd (hr.trans hd) hne
    · rintro ⟨⟩
  next hd =>
    rw [get_eq_some hx]
    constructor
    · rintro ⟨⟨hr, _⟩, hd'⟩
      exact ⟨hr, hd'⟩
    · rintro ⟨hr, hd'⟩
      exact ⟨⟨hr, fun h => hd (hd'.symm.trans h)⟩, hd'⟩

theorem get_insert (hx : Ordered x) {e : ExplEntry a} (he : kaodvExplGet x e.daddr = none) (n : U32)
    (d : Addr) : kaodvExplGet ⟨x.explHead.orderedInsert Sooner e, n⟩ d =
      if d = e.daddr then some e else kaodvExplGet x d := by
  have hx' : Ordered (⟨x.explHead.orderedInsert Sooner e, n⟩ : Expl a) := by
    have hempty : Ordered (⟨x.explHead, 0⟩ : Expl a) := ⟨hx.sorted, hx.distinct⟩
    have hadd := ordered_locked_add hempty (e := e) (check_none.1 he)
    rw [locked_add] at hadd
    exact ⟨hadd.sorted, hadd.distinct⟩
  apply Option.ext
  intro r
  rw [get_eq_some hx', List.mem_orderedInsert]
  split
  next hd =>
    rw [Option.some.injEq]
    constructor
    · rintro ⟨rfl | hr, hd'⟩
      · rfl
      · exact absurd (List.mem_map.2 ⟨r, hr, hd'.trans hd⟩) (check_none.1 he)
    · rintro rfl
      exact ⟨.inl rfl, hd.symm⟩
  next hd =>
    rw [get_eq_some hx]
    constructor
    · rintro ⟨rfl | hr, hd'⟩
      · exact absurd hd'.symm hd
      · exact ⟨hr, hd'⟩
    · rintro ⟨hr, hd'⟩
      exact ⟨.inr hr, hd'⟩

section

variable {hz jiffies : ULong a} {daddr : Addr} (nhop : Addr) (time : ULong a) (flags : U16)
  (ifindex : Int) (d : Addr)

theorem get_add (hx : Ordered x) (hnew : kaodvExplGet x daddr = none)
    (hroom : x.explLen.toNat ≤ explMaxLen) :
    kaodvExplGet (kaodvExplAdd hz jiffies true x daddr nhop time flags ifindex).1 d =
      if d = daddr then some ⟨expiry hz jiffies time, flags, daddr, nhop, ifindex⟩
      else kaodvExplGet x d := by
  rw [add_new hnew, if_neg (Nat.not_lt.2 hroom)]
  exact get_insert hx (e := ⟨_, flags, daddr, nhop, ifindex⟩) hnew _ d

theorem get_update (hx : Ordered x) (hold : kaodvExplGet x daddr ≠ none)
    (hroom : x.explLen.toNat ≤ explMaxLen) :
    kaodvExplGet (kaodvExplUpdate hz jiffies x daddr nhop time flags ifindex).1 d =
      if d = daddr then some ⟨expiry hz jiffies time, flags, daddr, nhop, ifindex⟩
      else kaodvExplGet x d := by
  have hgone : kaodvExplGet (Locked.listDel x daddr) daddr = none := by
    rw [get_listDel hx, if_pos rfl]
  rw [update_present hold, if_neg (Nat.not_lt.2 hroom),
    get_insert (ordered_listDel hx daddr) (e := ⟨_, flags, daddr, nhop, ifindex⟩) hgone _ d,
    get_listDel hx]
  by_cases hd : d = daddr
  · rw [if_pos hd, if_pos hd]
  · rw [if_neg hd, if_neg hd, if_neg hd]

/-- On a list that counts as full an update loses the entry. -/
theorem get_update_full (hx : Ordered x) (hold : kaodvExplGet x daddr ≠ none)
    (hfull : explMaxLen < x.explLen.toNat) :
    kaodvExplGet (kaodvExplUpdate hz jiffies x daddr nhop time flags ifindex).1 d =
      if d = daddr then none else kaodvExplGet x d := by
  rw [update_present hold, if_pos hfull]
  exact get_listDel hx daddr d

theorem update_absent (hnew : kaodvExplGet x daddr = none) :
    kaodvExplUpdate hz jiffies x daddr nhop time flags ifindex = (x, -1) := by
  have hcheck : Locked.kaodvExplCheck x daddr = none := hnew
  simp only [kaodvExplUpdate, hcheck]

end

theorem get_del (hx : Ordered x) (daddr d : Addr) :
    kaodvExplGet (kaodvExplDel x daddr).1 d = if d = daddr then none else kaodvExplGet x d := by
  rw [kaodvExplDel]
  split
  next hnone =>
    split
    next hd =>
      rw [hd]
      exact hnone
    · rfl
  · exact get_listDel hx daddr d

def route (x : Expl a) (d : Addr) : Option (Addr × U16) :=
  (kaodvExplGet x d).map (fun r => (r.nhop, r.flags))

theorem route_eq_none {d : Addr} : route x d = none ↔ kaodvExplGet x d = none := by
  rw [route, Option.map_eq_none_iff]

theorem route_update_same {hz jiffies : ULong a} (hx : Ordered x) {d : Addr} {r : ExplEntry a}
    (hget : kaodvExplGet x d = some r) (hroom : x.explLen.toNat ≤ explMaxLen) (time : ULong a)
    (ifindex : Int) :
    route (kaodvExplUpdate hz jiffies x r.daddr r.nhop time r.flags ifindex).1 = route x := by
  obtain ⟨_, rfl⟩ := mem_of_get hget
  have hold : kaodvExplGet x r.daddr ≠ none := by simp [hget]
  funext d'
  rw [route, route, get_update r.nhop time r.flags ifindex d' hx hold hroom]
  by_cases hd : d' = r.daddr
  · rw [if_pos hd, hd, hget]
    rfl
  · rw [if_neg hd]

end Aodv.RouteList
