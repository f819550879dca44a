import Aodv.Refresh

namespace Aodv.RouteTraffic

open Lib.Bytes RouteList

variable {a : Arch} {e : KEnv a} {k : Kaodv a} {x x' : Expl a} {dev : Int}

def tuple (r : ExplEntry a) : Addr × Addr × U16 × Int := (r.daddr, r.nhop, r.flags, r.ifindex)

def Concerns (x : Expl a) (skb : Skb) (d : Addr) : Prop :=
  ∃ addr, (addr = skb.daddr ∨ addr = skb.saddr) ∧
    (d = addr ∨ ∃ r, kaodvExplGet x addr = some r ∧ d = r.nhop)

/-- Deadlines are compared as the list compares them. -/
structure OnlyRefreshes (skb : Skb) (x x' : Expl a) : Prop where
  tuples : ∀ p, p ∈ x'.explHead.map tuple ↔ p ∈ x.explHead.map tuple
  touches : ∀ r : ExplEntry a, ¬ Concerns x skb r.daddr → (r ∈ x'.explHead ↔ r ∈ x.explHead)
  later : ∀ r ∈ x.explHead, ∀ r' ∈ x'.explHead, r'.daddr = r.daddr → r.expires ≤ r'.expires

/-- The entries that traffic for addr writes, in order. -/
def hops (x : Expl a) (addr : Addr) : List Addr :=
  match route x addr with
  | none => []
  | some (nhop, _) => if nhop ≠ addr ∧ route x nhop ≠ none then [addr, nhop] else [addr]

def written (x : Expl a) (skb : Skb) : List Addr := hops x skb.daddr ++ hops x skb.saddr

def lastWrite (d : Addr) : List Addr → Nat → Option Nat
  | [], _ => none
  | d' :: ds, t => (lastWrite d ds (t + 1)).or (if d = d' then some t else none)

/-- The daemon is told of the packet before any entry is written. -/
def firstWrite (k : Kaodv a) (hooknum : Hooknum) (ifi : IfInfo) (skb : Skb) : Nat :=
  if hooknum = .preRouting ∨ (skb.daddr ≠ inaddrBroadcast ∧ skb.daddr ≠ ifi.bcAddr) then k.tick + 1
  else k.tick

/-- The entries to be written are for the packet's device and expire no later than
active_route_timeout after their last write. -/
def Behind (e : KEnv a) (k : Kaodv a) (hooknum : Hooknum) (dev : Int) (skb : Skb) : Prop :=
  ∀ ifi, ifInfoFromIfindex e dev = some ifi → ∀ r ∈ k.expl.explHead, ∀ t,
    lastWrite r.daddr (written k.expl skb) (firstWrite k hooknum ifi skb) = some t →
      r.ifindex = dev ∧
        r.expires ≤ expiry e.hz (e.jiffies t) (BitVec.ofInt (bits a) k.activeRouteTimeout)

theorem lastWrite_ne_none {d : Addr} {ds : List Addr} {t : Nat} :
    lastWrite d ds t ≠ none ↔ d ∈ ds := by
  induction ds generalizing t with
  | nil => simp [lastWrite]
  | cons d' ds ih =>
      rw [lastWrite, List.mem_cons, ← ih (t := t + 1)]
      by_cases hd : d = d' <;> simp [hd]

theorem mem_hops {addr d : Addr} (h : d ∈ hops x addr) :
    route x d ≠ none ∧ (d = addr ∨ ∃ r, kaodvExplGet x addr = some r ∧ d = r.nhop) := by
  rw [hops] at h
  split at h
  · cases h
  next nhop flags hroute =>
    have haddr : route x addr ≠ none := by simp [hroute]
    split at h
    next hnext =>
      rcases List.mem_cons.1 h with rfl | h
      · exact ⟨haddr, .inl rfl⟩
      · obtain rfl := List.mem_singleton.1 h
        obtain ⟨r, hr, heq⟩ := Option.map_eq_some_iff.1 hroute
        exact ⟨hnext.2, .inr ⟨r, hr, (congrArg Prod.fst heq).symm⟩⟩
    · obtain rfl := List.mem_singleton.1 h
      exact ⟨haddr, .inl rfl⟩

theorem mem_written {skb : Skb} {d : Addr} (h : d ∈ written x skb) :
    route x d ≠ none ∧ Concerns x skb d := by
  rcases List.mem_append.1 h with h | h
  · obtain ⟨hroute, hd⟩ := mem_hops h
    exact ⟨hroute, _, .inl rfl, hd⟩
  · obtain ⟨hroute, hd⟩ := mem_hops h
    exact ⟨hroute, _, .inr rfl, hd⟩

theorem hops_congr (h : route x' = route x) (addr : Addr) : hops x' addr = hops x addr := by
  rw [hops, hops, h]

def touch (e : KEnv a) (dev : Int) (k : Kaodv a) (d : Addr) : Kaodv a :=
  match kaodvExplGet k.expl d with
  | none => k
  | some r =>
      (k.explUpdate e r.daddr r.nhop (BitVec.ofInt (bits a) k.activeRouteTimeout) r.flags dev).1

def renewed (e : KEnv a) (timeout dev : Int) (t : Nat) (r : ExplEntry a) : ExplEntry a :=
  { r with expires := expiry e.hz (e.jiffies t) (BitVec.ofInt (bits a) timeout), ifindex := dev }

theorem touch_absent {d : Addr} (h : kaodvExplGet k.expl d = none) : touch e dev k d = k := by
  rw [touch, h]

theorem refreshed_touch (e : KEnv a) (dev : Int) (k : Kaodv a) (d : Addr) :
    Refreshed k (touch e dev k d) := by
  rw [touch]
  split
  · exact .refl k
  next r hget => exact refreshed_explUpdate hget _ dev

theorem timeout_touch (e : KEnv a) (dev : Int) (k : Kaodv a) (d : Addr) :
    (touch e dev k d).activeRouteTimeout = k.activeRouteTimeout := by
  rw [touch]
  split <;> rfl

theorem tick_touch {d : Addr} (h : route k.expl d ≠ none) : (touch e dev k d).tick = k.tick + 1 := by
  rw [touch]
  split
  next hget => exact absurd (route_eq_none.2 hget) h
  · rfl

theorem get_touch (ho : RouteList.Ordered k.expl) (hroom : k.expl.explLen.toNat ≤ explMaxLen)
    (d d' : Addr) :
    kaodvExplGet (touch e dev k d).expl d' =
      if d' = d then (kaodvExplGet k.expl d).map (renewed e k.activeRouteTimeout dev k.tick)
      else kaodvExplGet k.expl d' := by
  rw [touch]
  split
  next hget =>
    split
    next hd => rw [hd, hget, Option.map_none]
    · rfl
  next r hget =>
    obtain ⟨_, rfl⟩ := mem_of_get hget
    have hold : kaodvExplGet k.expl r.daddr ≠ none := by simp [hget]
    apply (get_update r.nhop _ r.flags dev d' ho hold hroom).trans
    rw [hget, Option.map_some, renewed]

theorem get_touches {ds : List Addr} (ho : RouteList.Ordered k.expl)
    (hroom : k.expl.explLen.toNat ≤ explMaxLen) (hds : ∀ d ∈ ds, route k.expl d ≠ none) (d : Addr) :
    kaodvExplGet (ds.foldl (touch e dev) k).expl d =
      match lastWrite d ds k.tick with
      | none => kaodvExplGet k.expl d
      | some t => (kaodvExplGet k.expl d).map (renewed e k.activeRouteTimeout dev t) := by
  induction ds generalizing k with
  | nil => rfl
  | cons d' ds ih =>
      have hone := refreshed_touch e dev k d'
      have hroute := hone.route ho hroom
      have hrest := ih (hone.ordered ho) (by rwa [hone.explLen])
        (fun d hd => hroute ▸ hds d (List.mem_cons_of_mem _ hd))
      rw [List.foldl_cons, hrest, tick_touch (hds d' List.mem_cons_self), timeout_touch,
        get_touch ho hroom, lastWrite]
      cases lastWrite d ds (k.tick + 1) with
      | none =>
          by_cases hd : d = d'
          · simp [hd]
          · simp [hd]
      | some t =>
          by_cases hd : d = d'
          · simp only [hd, if_true, Option.some_or, Option.map_map]
            rfl
          · simp only [if_neg hd, Option.some_or]

theorem refresh_eq (ho : RouteList.Ordered k.expl) (hroom : k.expl.explLen.toNat ≤ explMaxLen)
    (addr : Addr) :
    refresh e k addr dev = (hops k.expl addr).foldl (touch e dev) k := by
  have hone := refreshed_touch e dev k addr
  have hroute := hone.route ho hroom
  rw [refresh, hops]
  cases hget : kaodvExplGet k.expl addr with
  | none =>
      rw [route_eq_none.2 hget]
      rfl
  | some r =>
      obtain ⟨_, rfl⟩ := mem_of_get hget
      have hr : route k.expl r.daddr = some (r.nhop, r.flags) := by rw [route, hget, Option.map_some]
      rw [hr]
      have hfirst : (k.explUpdate e r.daddr r.nhop (BitVec.ofInt (bits a) k.activeRouteTimeout)
          r.flags dev).1 = touch e dev k r.daddr := by
        rw [touch, hget]
      dsimp only
      rw [hfirst]
      by_cases hne : r.nhop = r.daddr
      · rw [if_neg (not_not.2 hne), if_neg (fun h => h.1 hne)]
        rfl
      · rw [if_pos hne]
        by_cases hnext : route k.expl r.nhop = none
        · have habsent : kaodvExplGet (touch e dev k r.daddr).expl r.nhop = none :=
            hone.absent ho _ (route_eq_none.1 hnext)
          rw [habsent, if_neg (fun h => h.2 hnext)]
          rfl
        · rw [if_pos ⟨hne, hnext⟩, List.foldl_cons, List.foldl_cons, List.foldl_nil]
          cases hn : kaodvExplGet (touch e dev k r.daddr).expl r.nhop with
          | none => rw [touch_absent hn]
          | some n => simp only [touch.eq_def e dev (touch e dev k r.daddr), hn, timeout_touch]

theorem updateRouteTimeouts_eq {ifi : IfInfo} (hif : ifInfoFromIfindex e dev = some ifi)
    (ho : RouteList.Ordered k.expl) (hroom : k.expl.explLen.toNat ≤ explMaxLen) (hooknum : Hooknum)
    (skb : Skb) :
    ∃ k₀, k₀.expl = k.expl ∧ k₀.activeRouteTimeout = k.activeRouteTimeout ∧
      k₀.tick = firstWrite k hooknum ifi skb ∧
      kaodvUpdateRouteTimeouts e k hooknum dev skb =
        (written k.expl skb).foldl (touch e dev) k₀ := by
  have hwrites {k₀ : Kaodv a} (h : k₀.expl = k.expl) :
      refresh e (refresh e k₀ skb.daddr dev) skb.saddr dev =
        (written k.expl skb).foldl (touch e dev) k₀ := by
    have hone := refreshed_refresh e k₀ skb.daddr dev
    rw [← h] at ho hroom ⊢
    rw [refresh_eq (hone.ordered ho) (by rwa [hone.explLen]), hops_congr (hone.route ho hroom),
      refresh_eq ho hroom, written, List.foldl_append]
  have hsent (type : U8) :
      (kaodvNetlinkSendRtUpdateMsg e k type skb.saddr skb.daddr dev).expl = k.expl ∧
      (kaodvNetlinkSendRtUpdateMsg e k type skb.saddr skb.daddr dev).activeRouteTimeout =
        k.activeRouteTimeout ∧
      (kaodvNetlinkSendRtUpdateMsg e k type skb.saddr skb.daddr dev).tick = k.tick + 1 := by
    rw [kaodvNetlinkSendRtUpdateMsg, netlinkBroadcast]
    split <;> exact ⟨rfl, rfl, rfl⟩
  rw [kaodvUpdateRouteTimeouts, hif, firstWrite]
  dsimp only
  by_cases hpre : hooknum = .preRouting
  · rw [if_pos hpre, if_pos (.inl hpre)]
    obtain ⟨hexpl, htimeout, htick⟩ := hsent pktInbound
    exact ⟨_, hexpl, htimeout, htick, hwrites hexpl⟩
  · rw [if_neg hpre]
    by_cases hout : skb.daddr ≠ inaddrBroadcast ∧ skb.daddr ≠ ifi.bcAddr
    · rw [if_pos hout, if_pos (.inr hout)]
      obtain ⟨hexpl, htimeout, htick⟩ := hsent pktOutbound
      exact ⟨_, hexpl, htimeout, htick, hwrites hexpl⟩
    · rw [if_neg hout, if_neg (not_or.2 ⟨hpre, hout⟩)]
      exact ⟨k, rfl, rfl, rfl, hwrites rfl⟩

theorem get_updateRouteTimeouts {ifi : IfInfo} (hif : ifInfoFromIfindex e dev = some ifi)
    (ho : RouteList.Ordered k.expl) (hroom : k.expl.explLen.toNat ≤ explMaxLen) (hooknum : Hooknum)
    (skb : Skb) (d : Addr) :
    kaodvExplGet (kaodvUpdateRouteTimeouts e k hooknum dev skb).expl d =
      match lastWrite d (written k.expl skb) (firstWrite k hooknum ifi skb) with
      | none => kaodvExplGet k.expl d
      | some t => (kaodvExplGet k.expl d).map (renewed e k.activeRouteTimeout dev t) := by
  obtain ⟨k₀, hexpl, htimeout, htick, heq⟩ := updateRouteTimeouts_eq hif ho hroom hooknum skb
  rw [← hexpl] at ho hroom
  have hroutes : ∀ d ∈ written k.expl skb, route k₀.expl d ≠ none := by
    intro d hd
    rw [hexpl]
    exact (mem_written hd).1
  rw [heq, get_touches ho hroom hroutes, htick, htimeout, hexpl]

theorem mem_tuples (hx : RouteList.Ordered x) {p : Addr × Addr × U16 × Int} :
    p ∈ x.explHead.map tuple ↔ (kaodvExplGet x p.1).map tuple = some p := by
  rw [List.mem_map, Option.map_eq_some_iff]
  constructor
  · rintro ⟨r, hr, rfl⟩
    exact ⟨r, (get_eq_some hx).2 ⟨hr, rfl⟩, rfl⟩
  · rintro ⟨r, hr, heq⟩
    exact ⟨r, (mem_of_get hr).1, heq⟩

theorem OnlyRefreshes.refl (hx : RouteList.Ordered x) (skb : Skb) : OnlyRefreshes skb x x := by
  refine ⟨fun _ => Iff.rfl, fun _ _ => Iff.rfl, ?_⟩
  intro r hr r' hr' hd
  rw [List.inj_on_of_nodup_map hx.distinct hr' hr hd]
  exact BitVec.le_refl _

theorem updateRouteTimeouts_unknown (h : ifInfoFromIfindex e dev = none) (hooknum : Hooknum)
    (skb : Skb) : kaodvUpdateRouteTimeouts e k hooknum dev skb = k := by
  rw [kaodvUpdateRouteTimeouts, h]

theorem behind_of_onlyRefreshes (ho : RouteList.Ordered k.expl)
    (hroom : k.expl.explLen.toNat ≤ explMaxLen)
    {hooknum : Hooknum} {skb : Skb}
    (h : OnlyRefreshes skb k.expl (kaodvUpdateRouteTimeouts e k hooknum dev skb).expl) :
    Behind e k hooknum dev skb := by
  intro ifi hif r hr t ht
  have ho' := (refreshed_updateRouteTimeouts e k hooknum dev skb).ordered ho
  have hget := get_updateRouteTimeouts hif ho hroom hooknum skb r.daddr
  rw [ht, (get_eq_some ho).2 ⟨hr, rfl⟩] at hget
  obtain ⟨hmem, _⟩ := mem_of_get hget
  constructor
  · have htuple := (mem_tuples ho').1 ((h.tuples (tuple r)).2 (List.mem_map_of_mem hr))
    rw [tuple, hget] at htuple
    have heq := Option.some.inj htuple
    exact (congrArg (fun p => p.2.2.2) heq).symm
  · exact h.later r hr _ hmem rfl

theorem onlyRefreshes_of_behind (ho : RouteList.Ordered k.expl)
    (hroom : k.expl.explLen.toNat ≤ explMaxLen)
    {hooknum : Hooknum} {skb : Skb} (h : Behind e k hooknum dev skb) :
    OnlyRefreshes skb k.expl (kaodvUpdateRouteTimeouts e k hooknum dev skb).expl := by
  cases hif : ifInfoFromIfindex e dev with
  | none =>
      rw [updateRouteTimeouts_unknown hif]
      exact .refl ho skb
  | some ifi =>
      have ho' := (refreshed_updateRouteTimeouts e k hooknum dev skb).ordered ho
      have hget := get_updateRouteTimeouts hif ho hroom hooknum skb
      constructor
      · intro p
        rw [mem_tuples ho', mem_tuples ho, hget]
        split
        · rfl
        next t ht =>
          cases hold : kaodvExplGet k.expl p.1 with
          | none => rfl
          | some r =>
              obtain ⟨hr, hd⟩ := mem_of_get hold
              obtain ⟨hdev, _⟩ := h ifi hif r hr t (by rw [hd, ht])
              rw [Option.map_some, Option.map_some, tuple, renewed, ← hdev]
              rfl
      · intro r hr
        apply mem_of_get_eq ho ho'
        rw [hget]
        split
        · rfl
        next t ht =>
          have hwritten := lastWrite_ne_none.1 (Option.ne_none_iff_exists'.2 ⟨t, ht⟩)
          exact absurd (mem_written hwritten).2 hr
      · intro r hr r' hr' hd
        have hnew := (get_eq_some ho').2 ⟨hr', hd⟩
        rw [hget, (get_eq_some ho).2 ⟨hr, rfl⟩] at hnew
        split at hnew
        · rw [Option.some.inj hnew]
          exact BitVec.le_refl _
        next t ht =>
          rw [← Option.some.inj hnew]
          exact (h ifi hif r hr t ht).2

/-- A write gives an entry the packet's device and a deadline of its own, whatever it had. -/
theorem onlyRefreshes_iff (e : KEnv a) (k : Kaodv a) (cs : List (Call a))
    (hx : k.expl = calls e.hz cs) (hroom : k.expl.explLen.toNat ≤ explMaxLen) (hooknum : Hooknum)
    (dev : Int) (skb : Skb) :
    OnlyRefreshes skb k.expl (kaodvUpdateRouteTimeouts e k hooknum dev skb).expl ↔
      Behind e k hooknum dev skb := by
  have ho : RouteList.Ordered k.expl := hx ▸ ordered_calls e.hz cs
  constructor
  · exact behind_of_onlyRefreshes ho hroom
  · exact onlyRefreshes_of_behind ho hroom

def router : KEnv .long32 where
  hz := 100
  jiffies := fun _ => 1000
  ifihead := [⟨0x0100000a, 0xff00000a, 2⟩, ⟨0x0100010a, 0xff00010a, 3⟩]
  kmalloc := fun _ => true
  nlmsgNew := fun _ => true
  skbCopyExpand := fun _ => true
  ident := fun _ => 0
  ipSendCheck := id

def neighbor (time : ULong .long32) : Kaodv .long32 :=
  { kaodvInit (a := .long32) with
    expl := calls (100 : ULong .long32) [.add 1000 true 0x0200000a 0x0200000a time 0 2] }

def packet : Skb :=
  ⟨0, true, 20, storeLE (storeLE (store zeroed 0 0x45) 12 0x0200000a) 16 0x0300000a⟩

def entry (time : ULong .long32) (ifindex : Int) : ExplEntry .long32 :=
  ⟨1000 + time * 100 / 1000, 0, 0x0200000a, 0x0200000a, ifindex⟩

theorem refreshes_neighbor : OnlyRefreshes packet (neighbor 1000).expl
    (kaodvUpdateRouteTimeouts router (neighbor 1000) .preRouting 2 packet).expl := by
  apply (onlyRefreshes_iff router (neighbor 1000) _ rfl (by decide) .preRouting 2 packet).2
  intro ifi hif r hr t ht
  obtain rfl := List.mem_singleton.1 hr
  refine ⟨rfl, ?_⟩
  change (1100 : ULong .long32) ≤ 1300
  decide

/-- On the same interface the deadline comes nearer, on the other one the entry moves there. -/
theorem rewrites_neighbor :
    ¬ OnlyRefreshes packet (neighbor 6000).expl
        (kaodvUpdateRouteTimeouts router (neighbor 6000) .preRouting 2 packet).expl ∧
      ¬ OnlyRefreshes packet (neighbor 1000).expl
        (kaodvUpdateRouteTimeouts router (neighbor 1000) .preRouting 3 packet).expl := by
  constructor
  · intro h
    have hlater := h.later (entry 6000 2) (by decide) (entry 3000 2) (by decide +kernel) rfl
    revert hlater
    decide
  · intro h
    have htuple := (h.tuples (tuple (entry 1000 2))).2 (by decide)
    revert htuple
    decide +kernel

end Aodv.RouteTraffic
