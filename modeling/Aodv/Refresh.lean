import Aodv.KaodvHook
import Aodv.RouteMap

namespace Aodv.RouteList

open Lib.Bytes

variable {a : Arch} {e : KEnv a} {k k' k'' : Kaodv a}

/-- What refreshing routes leaves alone: everything but deadlines and devices,
as long as the route list does not count as full. -/
structure Refreshed (k k' : Kaodv a) : Prop where
  queueList : k'.queueList = k.queueList
  queueTotal : k'.queueTotal = k.queueTotal
  trace : k'.trace = k.trace
  explLen : k'.expl.explLen = k.expl.explLen
  ordered : Ordered k.expl → Ordered k'.expl
  route : Ordered k.expl → k.expl.explLen.toNat ≤ explMaxLen → route k'.expl = route k.expl
  absent : Ordered k.expl → ∀ d, kaodvExplGet k.expl d = none → kaodvExplGet k'.expl d = none
  accurate : Accurate k.expl → k.expl.explLen.toNat ≤ explMaxLen → Accurate k'.expl
  nlsock : ∃ ms, k'.nlsock = k.nlsock ++ ms ∧ ∀ m ∈ ms, m.nlmsgType = .routeUpdate

namespace Refreshed

theorem refl (k : Kaodv a) : Refreshed k k :=
  ⟨rfl, rfl, rfl, rfl, id, fun _ _ => rfl, fun _ _ => id, fun h _ => h, [],
    (List.append_nil _).symm, by simp⟩

theorem trans (h : Refreshed k k') (h' : Refreshed k' k'') : Refreshed k k'' := by
  obtain ⟨ms, hms, hm⟩ := h.nlsock
  obtain ⟨ms', hms', hm'⟩ := h'.nlsock
  refine ⟨h'.queueList.trans h.queueList, h'.queueTotal.trans h.queueTotal, h'.trace.trans h.trace,
    h'.explLen.trans h.explLen, fun ho => h'.ordered (h.ordered ho), ?_, ?_, ?_, ms ++ ms', ?_, ?_⟩
  · intro ho hroom
    exact (h'.route (h.ordered ho) (by rwa [h.explLen])).trans (h.route ho hroom)
  · intro ho d hd
    exact h'.absent (h.ordered ho) d (h.absent ho d hd)
  · intro ha hroom
    exact h'.accurate (h.accurate ha hroom) (by rwa [h.explLen])
  · rw [hms', hms, List.append_assoc]
  · intro m hmem
    rcases List.mem_append.1 hmem with hmem | hmem
    · exact hm m hmem
    · exact hm' m hmem

end Refreshed

theorem refreshed_explUpdate {d : Addr} {r : ExplEntry a} (hget : kaodvExplGet k.expl d = some r)
    (time : ULong a) (ifindex : Int) :
    Refreshed k (k.explUpdate e r.daddr r.nhop time r.flags ifindex).1 := by
  obtain ⟨_, rfl⟩ := mem_of_get hget
  have hold : kaodvExplGet k.expl r.daddr ≠ none := by simp [hget]
  refine ⟨rfl, rfl, rfl, ?_, ?_, ?_, ?_, ?_, [], (List.append_nil _).symm, by simp⟩
  · change (kaodvExplUpdate e.hz (e.jiffies k.tick) k.expl r.daddr r.nhop time r.flags
      ifindex).1.explLen = k.expl.explLen
    rw [update_present hold]
  · exact fun ho => ordered_call ho (.update (e.jiffies k.tick) r.daddr r.nhop time r.flags ifindex)
  · exact fun ho hroom => route_update_same ho hget hroom time ifindex
  · intro ho d hd
    have hne : d ≠ r.daddr := by
      rintro rfl
      exact hold hd
    by_cases hroom : k.expl.explLen.toNat ≤ explMaxLen
    · exact (get_update r.nhop time r.flags ifindex d ho hold hroom).trans ((if_neg hne).trans hd)
    · exact (get_update_full r.nhop time r.flags ifindex d ho hold (Nat.lt_of_not_le hroom)).trans
        ((if_neg hne).trans hd)
  · intro ha hroom
    exact (accurate_call ha (.update (e.jiffies k.tick) r.daddr r.nhop time r.flags ifindex)).2
      fun _ => hroom

/-- On a list that counts as full the refreshed entry is lost. -/
theorem explUpdate_full {d : Addr} {r : ExplEntry a} (ho : Ordered k.expl)
    (hget : kaodvExplGet k.expl d = some r) (hfull : explMaxLen < k.expl.explLen.toNat)
    (time : ULong a) (ifindex : Int) :
    kaodvExplGet (k.explUpdate e r.daddr r.nhop time r.flags ifindex).1.expl d = none := by
  obtain ⟨_, rfl⟩ := mem_of_get hget
  have hold : kaodvExplGet k.expl r.daddr ≠ none := by simp [hget]
  exact (get_update_full r.nhop time r.flags ifindex _ ho hold hfull).trans (if_pos rfl)

theorem refreshed_next {r : ExplEntry a} (time : ULong a) (dev : Int) :
    Refreshed k (if r.nhop ≠ r.daddr then
      match kaodvExplGet k.expl r.nhop with
      | none => k
      | some n => (k.explUpdate e n.daddr n.nhop time n.flags dev).1
    else k) := by
  split
  · split
    · exact .refl k
    next n hget => exact refreshed_explUpdate hget time dev
  · exact .refl k

theorem refreshed_refresh (e : KEnv a) (k : Kaodv a) (addr : Addr) (dev : Int) :
    Refreshed k (refresh e k addr dev) := by
  rw [refresh]
  split
  · exact .refl k
  next r hget => exact (refreshed_explUpdate hget _ dev).trans (refreshed_next _ dev)

theorem refresh_full {addr : Addr} (dev : Int) (ho : Ordered k.expl)
    (hfull : explMaxLen < k.expl.explLen.toNat) :
    kaodvExplGet (refresh e k addr dev).expl addr = none := by
  rw [refresh]
  split
  next hget => exact hget
  next r hget =>
    have hone := refreshed_explUpdate (e := e) hget (BitVec.ofInt (bits a) k.activeRouteTimeout) dev
    exact (refreshed_next _ dev).absent (hone.ordered ho) addr (explUpdate_full ho hget hfull _ dev)

theorem refreshed_broadcast (e : KEnv a) (k : Kaodv a) (type : U8) (src dest : Addr)
    (ifindex : Int) : Refreshed k (kaodvNetlinkSendRtUpdateMsg e k type src dest ifindex) := by
  rw [kaodvNetlinkSendRtUpdateMsg, netlinkBroadcast]
  split
  · exact ⟨rfl, rfl, rfl, rfl, id, fun _ _ => rfl, fun _ _ => id, fun h _ => h, [_], rfl, by simp⟩
  · exact ⟨rfl, rfl, rfl, rfl, id, fun _ _ => rfl, fun _ _ => id, fun h _ => h, [],
      (List.append_nil _).symm, by simp⟩

theorem refreshed_updateRouteTimeouts (e : KEnv a) (k : Kaodv a) (hooknum : Hooknum) (dev : Int)
    (skb : Skb) : Refreshed k (kaodvUpdateRouteTimeouts e k hooknum dev skb) := by
  rw [kaodvUpdateRouteTimeouts]
  split
  · exact .refl k
  next ifi hif =>
    have hrest (k : Kaodv a) : Refreshed k (refresh e (refresh e k skb.daddr dev) skb.saddr dev) :=
      (refreshed_refresh e k skb.daddr dev).trans (refreshed_refresh e _ skb.saddr dev)
    split
    · exact (refreshed_broadcast e k pktInbound skb.saddr skb.daddr dev).trans (hrest _)
    · split
      · exact (refreshed_broadcast e k pktOutbound skb.saddr skb.daddr dev).trans (hrest _)
      · exact hrest k

theorem updateRouteTimeouts_full {hooknum : Hooknum} {dev : Int} {skb : Skb} {ifi : IfInfo}
    (hif : ifInfoFromIfindex e dev = some ifi) (ho : Ordered k.expl)
    (hfull : explMaxLen < k.expl.explLen.toNat) :
    kaodvExplGet (kaodvUpdateRouteTimeouts e k hooknum dev skb).expl skb.daddr = none := by
  have hrest {k₀ : Kaodv a} (h : Refreshed k k₀) :
      kaodvExplGet (refresh e (refresh e k₀ skb.daddr dev) skb.saddr dev).expl skb.daddr = none := by
    have hlost : kaodvExplGet (refresh e k₀ skb.daddr dev).expl skb.daddr = none :=
      refresh_full dev (h.ordered ho) (by rwa [h.explLen])
    have hfirst := refreshed_refresh e k₀ skb.daddr dev
    exact (refreshed_refresh e _ skb.saddr dev).absent (hfirst.ordered (h.ordered ho)) _ hlost
  rw [kaodvUpdateRouteTimeouts, hif]
  dsimp only
  split
  · exact hrest (refreshed_broadcast e k pktInbound skb.saddr skb.daddr dev)
  · split
    · exact hrest (refreshed_broadcast e k pktOutbound skb.saddr skb.daddr dev)
    · exact hrest (.refl k)

end Aodv.RouteList
