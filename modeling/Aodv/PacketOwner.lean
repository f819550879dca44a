import Aodv.PacketQueue
import Aodv.Refresh

namespace Aodv.PacketOwner

open Lib.Bytes RouteList PacketQueue

variable {a : Arch}

/-- The ways in which an entry's packet can leave: freed, with or without an ICMP
message, or handed to its okfn, as it is or in a new buffer. -/
inductive Leaves (entry : QueueEntry) : List SkbEvent → Prop
  | freed : Leaves entry [.kfreeSkb entry.skb]
  | unreachable : Leaves entry [.icmpSend entry.skb, .kfreeSkb entry.skb]
  | handed : Leaves entry [.okfn entry.okfn entry.skb]
  | gateway (nskb : Skb) : Leaves entry [.encapsulated entry.skb nskb, .okfn entry.okfn nskb]

abbrev Left := List (QueueEntry × List SkbEvent)

/-- From k to k' nothing but departures happened, each entry leaving once. -/
def Departs (k k' : Kaodv a) (left : Left) : Prop :=
  (∀ x ∈ left, Leaves x.1 x.2) ∧ k'.trace = (left.flatMap Prod.snd).reverse ++ k.trace ∧
    (arrivals k).Perm (left.map Prod.fst ++ arrivals k')

theorem Departs.none {k k' : Kaodv a} (hq : k'.queueList = k.queueList) (ht : k'.trace = k.trace) :
    Departs k k' [] := by
  refine ⟨by simp, ht, ?_⟩
  rw [List.map_nil, List.nil_append, arrivals, arrivals, hq]

theorem sendEntry_leaves (e : KEnv a) (d : Addr) (k : Kaodv a) (entry : QueueEntry) :
    ∃ l, Leaves entry l ∧ (sendEntry e d k entry).1.trace = l.reverse ++ k.trace := by
  rw [sendEntry]
  split
  · exact ⟨_, .freed, rfl⟩
  next r hget =>
    split
    · rw [ipPktEncapsulate]
      split
      next k' hk =>
        split at hk
        · cases hk
        · cases hk
          exact ⟨_, .freed, rfl⟩
      next k' nskb hk =>
        split at hk
        · cases hk
          exact ⟨_, .gateway _, rfl⟩
        · cases hk
    · exact ⟨_, .handed, rfl⟩

theorem sendLoop_departs (e : KEnv a) (d : Addr) (entries : List QueueEntry) (n : Nat) (k : Kaodv a)
    (pkts : Int) (hq : queuedFor k d = entries) (hn : entries.length < n) :
    ∃ left : Left, left.map Prod.fst = entries ∧ (∀ x ∈ left, Leaves x.1 x.2) ∧
      (sendLoop e d n k pkts).1.trace = (left.flatMap Prod.snd).reverse ++ k.trace := by
  induction entries generalizing n k pkts with
  | nil =>
      obtain ⟨n, rfl⟩ := Nat.exists_eq_succ_of_ne_zero (Nat.ne_of_gt hn)
      rw [sendLoop, delqueue_noneFor hq]
      exact ⟨[], rfl, by simp, rfl⟩
  | cons entry rest ih =>
      obtain ⟨n, rfl⟩ := Nat.exists_eq_succ_of_ne_zero (Nat.ne_of_gt (Nat.zero_lt_of_lt hn))
      have hdel : kaodvQueueCheckDelqueueEntry k (some d) = (taken k d, some entry) :=
        delqueue_some hq
      have hlen : rest.length < n := by simpa using hn
      obtain ⟨l, hl, htrace⟩ := sendEntry_leaves e d (taken k d) entry
      obtain ⟨hlist, _⟩ := sendEntry_queue e d (taken k d) entry
      rw [sendLoop, hdel]
      dsimp only
      generalize sendEntry e d (taken k d) entry = r at htrace hlist ⊢
      have hrest : queuedFor r.1 d = rest := by
        rw [queuedFor, arrivals, hlist]
        exact queuedFor_taken hq
      obtain ⟨left, hfst, hleaves, hleft⟩ := ih n r.1 (if r.2 then pkts + 1 else pkts) hrest hlen
      refine ⟨(entry, l) :: left, ?_, ?_, ?_⟩
      · rw [List.map_cons, hfst]
      · intro x hx
        rcases List.mem_cons.1 hx with rfl | hx
        · exact hl
        · exact hleaves x hx
      · rw [hleft, htrace, List.flatMap_cons, List.reverse_append, List.append_assoc]
        rfl

def freedAll (entries : List QueueEntry) : Left := entries.map (fun entry => (entry, [freed entry]))

theorem freedAll_fst (entries : List QueueEntry) : (freedAll entries).map Prod.fst = entries := by
  rw [freedAll, List.map_map]
  exact List.map_id' entries

theorem freedAll_snd (entries : List QueueEntry) :
    (freedAll entries).flatMap Prod.snd = entries.map freed := by
  induction entries with
  | nil => rfl
  | cons entry rest ih =>
      rw [freedAll, List.map_cons, List.flatMap_cons, List.map_cons]
      exact congrArg (freed entry :: ·) ih

theorem freedAll_leaves (entries : List QueueEntry) : ∀ x ∈ freedAll entries, Leaves x.1 x.2 := by
  intro x hx
  obtain ⟨entry, _, rfl⟩ := List.mem_map.1 hx
  exact .freed

theorem dropped_left (entries : List QueueEntry) : ∃ left : Left, left.map Prod.fst = entries ∧
    (∀ x ∈ left, Leaves x.1 x.2) ∧ left.flatMap Prod.snd = dropped 0 entries := by
  cases entries with
  | nil => exact ⟨[], rfl, by simp, rfl⟩
  | cons entry rest =>
      refine ⟨(entry, [.icmpSend entry.skb, .kfreeSkb entry.skb]) :: freedAll rest, ?_, ?_, ?_⟩
      · rw [List.map_cons, freedAll_fst]
      · intro x hx
        rcases List.mem_cons.1 hx with rfl | hx
        · exact .unreachable
        · exact freedAll_leaves rest x hx
      · rw [List.flatMap_cons, freedAll_snd]
        rfl

theorem perm_arrivals (k : Kaodv a) (d : Addr) :
    (arrivals k).Perm (queuedFor k d ++ othersThan k d) :=
  (List.filter_append_perm (destCmp · d) (arrivals k)).symm

theorem setVerdict_departs (e : KEnv a) (k : Kaodv a) (verdict : Int) (d : Addr) :
    ∃ left, Departs k (kaodvQueueSetVerdict e k verdict d).1 left := by
  by_cases hdrop : verdict = kaodvQueueDrop
  · obtain ⟨left, hfst, hleaves, hsnd⟩ := dropped_left (queuedFor k d)
    obtain ⟨harr, _⟩ := setVerdict_queue e k d (.inl hdrop)
    refine ⟨left, hleaves, ?_, ?_⟩
    · rw [hdrop, setVerdict_drop, hsnd]
      rfl
    · rw [hfst, harr]
      exact perm_arrivals k d
  · by_cases hsend : verdict = kaodvQueueSend
    · obtain ⟨left, hfst, hleaves, htrace⟩ :=
        sendLoop_departs e d _ _ k 0 rfl (queuedFor_length k d)
      obtain ⟨harr, _⟩ := setVerdict_queue e k d (.inr hsend)
      refine ⟨left, hleaves, ?_, ?_⟩
      · rw [kaodvQueueSetVerdict, if_neg hdrop, if_pos hsend, htrace]
      · rw [hfst, harr]
        exact perm_arrivals k d
    · rw [kaodvQueueSetVerdict, if_neg hdrop, if_neg hsend]
      exact ⟨[], .none rfl rfl⟩

theorem flush_departs (k : Kaodv a) : ∃ left, Departs k (kaodvQueueFlush k) left := by
  refine ⟨freedAll (arrivals k), freedAll_leaves _, ?_, ?_⟩
  · rw [freedAll_snd, PacketQueue.flush_eq]
  · rw [freedAll_fst, PacketQueue.flush_eq]
    change (arrivals k).Perm (arrivals k ++ [])
    rw [List.append_nil]

theorem receivePeer_departs (e : KEnv a) (k : Kaodv a) (type : U8) (msg : Buf) (len : Nat) :
    ∃ left, Departs k (kaodvNetlinkReceivePeer e k type msg len).1 left := by
  have hnone : ∃ left, Departs k k left := ⟨[], .none rfl rfl⟩
  rw [kaodvNetlinkReceivePeer]
  split
  · split
    · exact hnone
    · rw [receiveAddroute]
      split
      next k₁ ret hk =>
      have hsame : k₁.queueList = k.queueList ∧ k₁.trace = k.trace := by
        split at hk
        · cases hk
          exact ⟨rfl, rfl⟩
        · cases hk
          exact ⟨rfl, rfl⟩
      obtain ⟨left, hleaves, htrace, hperm⟩ :=
        setVerdict_departs e k₁ kaodvQueueSend (rtMsgOf a msg).dest
      refine ⟨left, hleaves, ?_, ?_⟩
      · rw [htrace, hsame.2]
      · rwa [arrivals, hsame.1] at hperm
  · split
    · split
      · exact hnone
      · exact setVerdict_departs e { k with expl := (kaodvExplDel k.expl (rtMsgOf a msg).dest).1 }
          kaodvQueueDrop (rtMsgOf a msg).dest
    · split
      · split
        · exact hnone
        · exact setVerdict_departs e k kaodvQueueDrop (rtMsgOf a msg).dest
      · split
        · split
          · exact hnone
          · exact ⟨[], .none rfl rfl⟩
        · exact hnone

/-- What the answer to the netfilter core says about the packet holds of the step
from k to k': a stolen packet has been queued or freed, another one neither. -/
def Settled (k k' : Kaodv a) (skb : Skb) (okfn : Okfn) : Verdict → Prop
  | .nfStolen =>
      (k'.queueList = entryOf skb okfn :: k.queueList ∧ k'.trace = k.trace) ∨
        (k'.queueList = k.queueList ∧ k'.trace = .kfreeSkb skb :: k.trace)
  | .nfAccept | .nfDrop => k'.queueList = k.queueList ∧ k'.trace = k.trace

def answering (e : KEnv a) (kmalloc copied : Bool) : KEnv a :=
  { e with kmalloc := fun _ => kmalloc, skbCopyExpand := fun _ => copied }

structure Considered (e : KEnv a) (skb : Skb) (dev : Int) (ifi : IfInfo) : Prop where
  hasIph : skb.hasIph = true
  other : isAodv skb = false
  device : ifInfoFromIfindex e dev = some ifi
  unicast : ¬ (skb.daddr = inaddrBroadcast ∨ inMulticast skb ∨ skb.daddr = ifi.bcAddr)

def Repairing (x : Expl a) (d : Addr) : Prop :=
  ∃ r, kaodvExplGet x d = some r ∧ r.flags &&& kaodvRtRepair ≠ 0

def Queues (e : KEnv a) (k : Kaodv a) (hooknum : Hooknum) (skb : Skb) (dev : Int) : Prop :=
  ∃ ifi, Considered e skb dev ifi ∧
    match hooknum with
    | .preRouting =>
        skb.saddr ≠ ifi.ifAddr ∧ skb.daddr ≠ ifi.ifAddr ∧ k.expl.explLen.toNat ≤ explMaxLen ∧
          Repairing k.expl skb.daddr
    | .localOut => kaodvExplGet k.expl skb.daddr = none ∨ Repairing k.expl skb.daddr
    | .postRouting => False

def Encapsulates (e : KEnv a) (k : Kaodv a) (hooknum : Hooknum) (skb : Skb) (dev : Int) : Prop :=
  hooknum = .localOut ∧ ∃ ifi, Considered e skb dev ifi ∧ ∃ r,
    kaodvExplGet k.expl skb.daddr = some r ∧ r.flags &&& kaodvRtRepair = 0 ∧
      r.flags &&& kaodvRtGwEncap ≠ 0

/-- A packet to be queued finds memory and a place, and a packet to be
encapsulated finds no memory for its copy. -/
def Fits (e : KEnv a) (k : Kaodv a) (kmalloc copied : Bool) (hooknum : Hooknum) (skb : Skb)
    (dev : Int) : Prop :=
  (Queues e k hooknum skb dev → kmalloc = true ∧ k.queueTotal.toNat < queueMaxlen) ∧
    (Encapsulates e k hooknum skb dev → copied = false)

section

variable {e : KEnv a} {k k' : Kaodv a} {kmalloc copied : Bool} {hooknum : Hooknum} {skb : Skb}
  {dev : Int} {okfn : Okfn} {ifi : IfInfo}

theorem settled_same (hq : k'.queueList = k.queueList) (ht : k'.trace = k.trace) {v : Verdict}
    (hv : v ≠ .nfStolen) : Settled k k' skb okfn v := by
  cases v with
  | nfStolen => exact absurd rfl hv
  | nfAccept | nfDrop => exact ⟨hq, ht⟩

theorem settled_enqueue (hq : k'.queueList = k.queueList) (hn : k'.queueTotal = k.queueTotal)
    (ht : k'.trace = k.trace) :
    Settled k (kaodvQueueEnqueuePacket (answering e kmalloc copied) k' skb okfn).1 skb okfn
      .nfStolen ↔ kmalloc = true ∧ k.queueTotal.toNat < queueMaxlen := by
  have hlost : ¬ Settled k k' skb okfn .nfStolen := by
    rintro (⟨hlist, _⟩ | ⟨_, htrace⟩)
    · rw [hq] at hlist
      exact absurd (congrArg List.length hlist) (by simp)
    · rw [ht] at htrace
      exact absurd (congrArg List.length htrace) (by simp)
  rw [kaodvQueueEnqueuePacket]
  cases kmalloc with
  | false =>
      simp only [answering, Bool.false_eq_true, if_false, false_and, iff_false]
      exact hlost
  | true =>
      have htotal : (Kaodv.tock k').queueTotal = k.queueTotal := hn
      simp only [answering, if_true, true_and, Aodv.Locked.kaodvQueueEnqueueEntry, htotal]
      by_cases hroom : k.queueTotal.toNat < queueMaxlen
      · rw [if_neg (Nat.not_le.2 hroom)]
        simp only [hroom, iff_true]
        refine .inl ⟨?_, ht⟩
        change entryOf skb okfn :: k'.queueList = _
        rw [hq]
      · rw [if_pos (Nat.not_lt.1 hroom)]
        simp only [hroom, iff_false]
        exact hlost

theorem broadcast_queue (e : KEnv a) (k : Kaodv a) (m : RtMsg) :
    (netlinkBroadcast e k m).queueList = k.queueList ∧
      (netlinkBroadcast e k m).queueTotal = k.queueTotal ∧
      (netlinkBroadcast e k m).trace = k.trace := by
  rw [netlinkBroadcast]
  split
  · exact ⟨rfl, rfl, rfl⟩
  · exact ⟨rfl, rfl, rfl⟩

theorem settled_awaitRoute : Settled k (awaitRoute (answering e kmalloc copied) k skb okfn).1 skb
    okfn (awaitRoute (answering e kmalloc copied) k skb okfn).2 ↔
      kmalloc = true ∧ k.queueTotal.toNat < queueMaxlen := by
  rw [awaitRoute]
  dsimp only
  split
  · exact settled_enqueue rfl rfl rfl
  · obtain ⟨hq, hn, ht⟩ := broadcast_queue (answering e kmalloc copied) k
      ⟨.routeReq, 0, 0, skb.daddr, 0⟩
    exact settled_enqueue hq hn ht

def encapsulated (r : Kaodv a × Option Skb) : Kaodv a × Verdict :=
  match r with
  | (k, none) => (k, .nfStolen)
  | (k, some _) => (k, .nfAccept)

theorem settled_encapsulate (h : Refreshed k k') (dest : Addr) :
    Settled k (encapsulated (ipPktEncapsulate (answering e kmalloc copied) k' skb dest)).1 skb okfn
      (encapsulated (ipPktEncapsulate (answering e kmalloc copied) k' skb dest)).2 ↔
        copied = false := by
  cases copied with
  | false =>
      simp only [iff_true]
      refine .inr ⟨h.queueList, ?_⟩
      exact congrArg (SkbEvent.kfreeSkb skb :: ·) h.trace
  | true =>
      simp only [Bool.true_eq_false, iff_false]
      rintro ⟨_, htrace⟩
      have hlen : k'.trace.length + 1 = k.trace.length := congrArg List.length htrace
      rw [h.trace] at hlen
      omega

theorem fits_queues (hq : Queues e k hooknum skb dev) (he : ¬ Encapsulates e k hooknum skb dev) :
    Fits e k kmalloc copied hooknum skb dev ↔
      kmalloc = true ∧ k.queueTotal.toNat < queueMaxlen :=
  ⟨fun h => h.1 hq, fun h => ⟨fun _ => h, fun h' => absurd h' he⟩⟩

theorem fits_encapsulates (hq : ¬ Queues e k hooknum skb dev)
    (he : Encapsulates e k hooknum skb dev) :
    Fits e k kmalloc copied hooknum skb dev ↔ copied = false :=
  ⟨fun h => h.2 he, fun h => ⟨fun h' => absurd h' hq, fun _ => h⟩⟩

theorem fits_passes (hq : ¬ Queues e k hooknum skb dev)
    (he : ¬ Encapsulates e k hooknum skb dev) : Fits e k kmalloc copied hooknum skb dev :=
  ⟨fun h => absurd h hq, fun h => absurd h he⟩

theorem settled_localOut (hc : Considered e skb dev ifi) :
    Settled k (localOut (answering e kmalloc copied) k skb dev okfn).1 skb okfn
      (localOut (answering e kmalloc copied) k skb dev okfn).2 ↔
        Fits e k kmalloc copied .localOut skb dev := by
  rw [localOut]
  cases hget : kaodvExplGet k.expl skb.daddr with
  | none =>
      have hq : Queues e k .localOut skb dev := ⟨ifi, hc, .inl hget⟩
      have he : ¬ Encapsulates e k .localOut skb dev := by
        rintro ⟨_, _, _, r, hr, _⟩
        rw [hget] at hr
        cases hr
      rw [fits_queues hq he]
      exact settled_awaitRoute
  | some r =>
      dsimp only
      by_cases hrep : r.flags &&& kaodvRtRepair = 0
      · have hq : ¬ Queues e k .localOut skb dev := by
          rintro ⟨_, _, hr | ⟨r', hr, hrep'⟩⟩
          · rw [hget] at hr
            cases hr
          · rw [hget] at hr
            cases hr
            exact hrep' hrep
        rw [if_neg (not_not.2 hrep)]
        by_cases henc : r.flags &&& kaodvRtGwEncap = 0
        · have he : ¬ Encapsulates e k .localOut skb dev := by
            rintro ⟨_, _, _, r', hr, _, henc'⟩
            rw [hget] at hr
            cases hr
            exact henc' henc
          rw [if_neg (not_not.2 henc)]
          simp only [fits_passes hq he, iff_true]
          exact settled_same rfl rfl (by simp)
        · have he : Encapsulates e k .localOut skb dev := ⟨rfl, ifi, hc, r, hget, hrep, henc⟩
          have hcalm := refreshed_updateRouteTimeouts (answering e kmalloc copied) k .localOut dev skb
          rw [if_pos henc, fits_encapsulates hq he]
          exact settled_encapsulate hcalm r.nhop
      · have hq : Queues e k .localOut skb dev := ⟨ifi, hc, .inr ⟨r, hget, hrep⟩⟩
        have he : ¬ Encapsulates e k .localOut skb dev := by
          rintro ⟨_, _, _, r', hr, hrep', _⟩
          rw [hget] at hr
          cases hr
          exact hrep hrep'
        rw [if_pos hrep, fits_queues hq he]
        exact settled_awaitRoute

theorem Considered.unique {ifi' : IfInfo} (h : Considered e skb dev ifi)
    (h' : Considered e skb dev ifi') : ifi' = ifi :=
  Option.some.inj (h'.device.symm.trans h.device)

theorem repairing_refreshed (kmalloc copied : Bool) (hc : Considered e skb dev ifi)
    (ho : RouteList.Ordered k.expl) :
    Repairing (kaodvUpdateRouteTimeouts (answering e kmalloc copied) k .preRouting dev skb).expl
      skb.daddr ↔ k.expl.explLen.toNat ≤ explMaxLen ∧ Repairing k.expl skb.daddr := by
  have hcalm := refreshed_updateRouteTimeouts (answering e kmalloc copied) k .preRouting dev skb
  by_cases hroom : k.expl.explLen.toNat ≤ explMaxLen
  · have hroute := congrFun (hcalm.route ho hroom) skb.daddr
    simp only [hroom, true_and]
    constructor
    · rintro ⟨r, hr, hrep⟩
      rw [route, hr, Option.map_some] at hroute
      obtain ⟨r', hr', heq⟩ := Option.map_eq_some_iff.1 hroute.symm
      exact ⟨r', hr', by rwa [(Prod.mk.inj heq).2]⟩
    · rintro ⟨r, hr, hrep⟩
      rw [route, route, hr, Option.map_some] at hroute
      obtain ⟨r', hr', heq⟩ := Option.map_eq_some_iff.1 hroute
      exact ⟨r', hr', by rwa [(Prod.mk.inj heq).2]⟩
  · have hdev : ifInfoFromIfindex (answering e kmalloc copied) dev = some ifi := hc.device
    have hlost : kaodvExplGet (kaodvUpdateRouteTimeouts (answering e kmalloc copied) k .preRouting
        dev skb).expl skb.daddr = none := updateRouteTimeouts_full hdev ho (Nat.lt_of_not_le hroom)
    constructor
    · rintro ⟨r, hr, _⟩
      rw [hlost] at hr
      cases hr
    · rintro ⟨hle, _⟩
      exact absurd hle hroom

theorem settled_preRouting (hc : Considered e skb dev ifi) (ho : RouteList.Ordered k.expl) :
    Settled k (preRouting (answering e kmalloc copied) k skb dev ifi okfn).1 skb okfn
      (preRouting (answering e kmalloc copied) k skb dev ifi okfn).2 ↔
        Fits e k kmalloc copied .preRouting skb dev := by
  have hcalm := refreshed_updateRouteTimeouts (answering e kmalloc copied) k .preRouting dev skb
  have hiff := repairing_refreshed kmalloc copied hc ho
  have he : ¬ Encapsulates e k .preRouting skb dev := fun h => nomatch h.1
  rw [preRouting]
  dsimp only
  generalize kaodvUpdateRouteTimeouts (answering e kmalloc copied) k .preRouting dev skb = k₁
    at hcalm hiff ⊢
  split
  next hus =>
    have hq : ¬ Queues e k .preRouting skb dev := by
      rintro ⟨ifi', hc', hs, hd, _⟩
      obtain rfl := hc.unique hc'
      exact hus.elim hs hd
    simp only [fits_passes hq he, iff_true]
    exact settled_same hcalm.queueList hcalm.trace (by simp)
  next hus =>
    obtain ⟨hs, hd⟩ := not_or.1 hus
    split
    next hget =>
      have hq : ¬ Queues e k .preRouting skb dev := by
        rintro ⟨_, _, _, _, hrep⟩
        obtain ⟨r, hr, _⟩ := hiff.2 hrep
        rw [hget] at hr
        cases hr
      obtain ⟨hql, _, hqt⟩ := broadcast_queue (answering e kmalloc copied) k₁
        ⟨.sendRerr, pktInbound, skb.saddr, skb.daddr, dev⟩
      simp only [fits_passes hq he, iff_true]
      exact settled_same (hql.trans hcalm.queueList) (hqt.trans hcalm.trace) (by simp)
    next r hget =>
      split
      next hrep =>
        have hq : Queues e k .preRouting skb dev :=
          ⟨ifi, hc, hs, hd, hiff.1 ⟨r, hget, hrep⟩⟩
        obtain ⟨hql, hqn, hqt⟩ := broadcast_queue (answering e kmalloc copied) k₁
          ⟨.repair, 0, skb.saddr, skb.daddr, 0⟩
        rw [fits_queues hq he]
        exact settled_enqueue (hql.trans hcalm.queueList) (hqn.trans hcalm.queueTotal)
          (hqt.trans hcalm.trace)
      next hrep =>
        have hq : ¬ Queues e k .preRouting skb dev := by
          rintro ⟨_, _, _, _, hrep'⟩
          obtain ⟨r', hr', hne⟩ := hiff.2 hrep'
          rw [hget] at hr'
          cases hr'
          exact hrep hne
        simp only [fits_passes hq he, iff_true]
        exact settled_same hcalm.queueList hcalm.trace (by simp)

theorem settled_hook (ho : RouteList.Ordered k.expl) :
    Settled k (kaodvHook (answering e kmalloc copied) k hooknum skb dev okfn).1 skb okfn
      (kaodvHook (answering e kmalloc copied) k hooknum skb dev okfn).2 ↔
        Fits e k kmalloc copied hooknum skb dev := by
  have hpass (hno : ∀ ifi, ¬ Considered e skb dev ifi) :
      Fits e k kmalloc copied hooknum skb dev :=
    fits_passes (fun ⟨ifi, hc, _⟩ => hno ifi hc) (fun ⟨_, ifi, hc, _⟩ => hno ifi hc)
  have hsame : Settled k k skb okfn .nfAccept := ⟨rfl, rfl⟩
  rw [kaodvHook]
  split
  next hi =>
    have hno (ifi : IfInfo) (hc : Considered e skb dev ifi) : False := by
      simp [hc.hasIph] at hi
    simp only [hpass hno, iff_true]
    exact hsame
  next hi =>
    split
    next hu =>
      have hno (ifi : IfInfo) (hc : Considered e skb dev ifi) : False := by
        simp [hc.other] at hu
      simp only [hpass hno, iff_true]
      split
      · have hcalm := refreshed_updateRouteTimeouts (answering e kmalloc copied) k hooknum dev skb
        exact settled_same hcalm.queueList hcalm.trace (by simp)
      · exact hsame
    next hu =>
      split
      next hdev =>
        have hno (ifi : IfInfo) (hc : Considered e skb dev ifi) : False := by
          have hnone : ifInfoFromIfindex e dev = none := hdev
          rw [hc.device] at hnone
          cases hnone
        simp only [hpass hno, iff_true]
        exact hsame
      next ifi hdev =>
        split
        next hb =>
          have hno (ifi' : IfInfo) (hc : Considered e skb dev ifi') : False := by
            obtain rfl : ifi' = ifi := Option.some.inj (hc.device.symm.trans hdev)
            exact hc.unicast hb
          simp only [hpass hno, iff_true]
          exact hsame
        next hb =>
          have hc : Considered e skb dev ifi := ⟨by simpa using hi, by simpa using hu, hdev, hb⟩
          cases hooknum with
          | preRouting => exact settled_preRouting hc ho
          | localOut => exact settled_localOut hc
          | postRouting =>
              have hq : ¬ Queues e k .postRouting skb dev := fun ⟨_, _, h⟩ => h
              have he : ¬ Encapsulates e k .postRouting skb dev := fun h => nomatch h.1
              have hcalm :=
                refreshed_updateRouteTimeouts (answering e kmalloc copied) k .postRouting dev skb
              simp only [fits_passes hq he, iff_true]
              exact settled_same hcalm.queueList hcalm.trace (by simp)

end

section

variable {e : KEnv a} {k : Kaodv a} {skb : Skb} {okfn : Okfn}

theorem ordered_broadcast (m : RtMsg) (ho : RouteList.Ordered k.expl) :
    RouteList.Ordered (netlinkBroadcast e k m).expl := by
  rw [netlinkBroadcast]
  split
  · exact ho
  · exact ho

theorem ordered_enqueue (ho : RouteList.Ordered k.expl) :
    RouteList.Ordered (kaodvQueueEnqueuePacket e k skb okfn).1.expl := by
  rwa [(framed_enqueue e k skb okfn).expl]

theorem ordered_awaitRoute (ho : RouteList.Ordered k.expl) :
    RouteList.Ordered (awaitRoute e k skb okfn).1.expl := by
  rw [awaitRoute]
  dsimp only
  split
  · exact ordered_enqueue ho
  · exact ordered_enqueue (ordered_broadcast _ ho)

theorem ordered_encapsulate (dest : Addr) (ho : RouteList.Ordered k.expl) :
    RouteList.Ordered (ipPktEncapsulate e k skb dest).1.expl := by
  rw [ipPktEncapsulate]
  split
  · exact ho
  · exact ho

inductive HookDoes (e : KEnv a) (k : Kaodv a) (skb : Skb) (okfn : Okfn) : Kaodv a → Prop
  | passes {k' : Kaodv a} (h : Refreshed k k') : HookDoes e k skb okfn k'
  | reports {k' : Kaodv a} (h : Refreshed k k') (dev : Int) :
      HookDoes e k skb okfn
        (kaodvNetlinkSendRerrMsg e k' pktInbound skb.saddr skb.daddr dev)
  | repairs {k' : Kaodv a} (h : Refreshed k k') (hr : Repairing k'.expl skb.daddr) :
      HookDoes e k skb okfn (kaodvQueueEnqueuePacket e
        (kaodvNetlinkSendRtMsg e k' .repair skb.saddr skb.daddr) skb okfn).1
  | awaits (h : kaodvExplGet k.expl skb.daddr = none ∨ Repairing k.expl skb.daddr) :
      HookDoes e k skb okfn (awaitRoute e k skb okfn).1
  | copies {k' : Kaodv a} (h : Refreshed k k') (dest : Addr) :
      HookDoes e k skb okfn (ipPktEncapsulate e k' skb dest).1

theorem hook_does (e : KEnv a) (k : Kaodv a) (hooknum : Hooknum) (skb : Skb) (dev : Int)
    (okfn : Okfn) : HookDoes e k skb okfn (kaodvHook e k hooknum skb dev okfn).1 := by
  have hcalm (hooknum : Hooknum) : Refreshed k (kaodvUpdateRouteTimeouts e k hooknum dev skb) :=
    refreshed_updateRouteTimeouts e k hooknum dev skb
  rw [kaodvHook]
  split
  · exact .passes (.refl k)
  · split
    · dsimp only
      split
      · exact .passes (hcalm hooknum)
      · exact .passes (.refl k)
    · split
      · exact .passes (.refl k)
      · split
        · exact .passes (.refl k)
        · cases hooknum with
          | preRouting =>
              dsimp only
              rw [preRouting]
              dsimp only
              split
              · exact .passes (hcalm _)
              · split
                · exact .reports (hcalm _) dev
                next r hget =>
                  split
                  next hrep => exact .repairs (hcalm _) ⟨r, hget, hrep⟩
                  · exact .passes (hcalm _)
          | localOut =>
              dsimp only
              rw [localOut]
              split
              next hget => exact .awaits (.inl hget)
              next r hget =>
                split
                next hrep => exact .awaits (.inr ⟨r, hget, hrep⟩)
                · split
                  · have henc : HookDoes e k skb okfn (ipPktEncapsulate e
                        (kaodvUpdateRouteTimeouts e k .localOut dev skb) skb r.nhop).1 :=
                      .copies (hcalm _) r.nhop
                    split
                    next k' hk => rwa [hk] at henc
                    next k' nskb hk => rwa [hk] at henc
                  · exact .passes (.refl k)
          | postRouting => exact .passes (hcalm _)

theorem ordered_hook {k' : Kaodv a} (h : HookDoes e k skb okfn k') (ho : RouteList.Ordered k.expl) :
    RouteList.Ordered k'.expl := by
  cases h with
  | passes h => exact h.ordered ho
  | reports h dev => exact ordered_broadcast _ (h.ordered ho)
  | repairs h hr => exact ordered_enqueue (ordered_broadcast _ (h.ordered ho))
  | awaits h => exact ordered_awaitRoute ho
  | copies h dest => exact ordered_encapsulate dest (h.ordered ho)

theorem queue_enqueue (e : KEnv a) (k : Kaodv a) (skb : Skb) (okfn : Okfn) :
    (kaodvQueueEnqueuePacket e k skb okfn).1.queueList = k.queueList ∨
      (kaodvQueueEnqueuePacket e k skb okfn).1.queueList = entryOf skb okfn :: k.queueList := by
  rw [kaodvQueueEnqueuePacket]
  split
  · rw [Aodv.Locked.kaodvQueueEnqueueEntry]
    split
    · exact .inl rfl
    · exact .inr rfl
  · exact .inl rfl

theorem queue_hook {k' : Kaodv a} (h : HookDoes e k skb okfn k') :
    k'.queueList = k.queueList ∨ k'.queueList = entryOf skb okfn :: k.queueList := by
  have hbroad (k : Kaodv a) (m : RtMsg) : (netlinkBroadcast e k m).queueList = k.queueList :=
    (broadcast_queue e k m).1
  cases h with
  | passes h => exact .inl h.queueList
  | reports h dev => exact .inl ((hbroad _ _).trans h.queueList)
  | @repairs k₁ h hr =>
      have hq := queue_enqueue e (kaodvNetlinkSendRtMsg e k₁ .repair skb.saddr skb.daddr) skb okfn
      rwa [kaodvNetlinkSendRtMsg, hbroad, h.queueList] at hq
  | awaits h =>
      rw [awaitRoute]
      dsimp only
      split
      · exact queue_enqueue e k skb okfn
      · have hq := queue_enqueue e (kaodvNetlinkSendRtMsg e k .routeReq 0 skb.daddr) skb okfn
        rwa [kaodvNetlinkSendRtMsg, hbroad] at hq
  | copies h dest => exact .inl ((ipPktEncapsulate_queue e _ skb dest).1.trans h.queueList)

end

theorem ordered_receivePeer (e : KEnv a) {k : Kaodv a} (type : U8) (msg : Buf) (len : Nat)
    (ho : RouteList.Ordered k.expl) :
    RouteList.Ordered (kaodvNetlinkReceivePeer e k type msg len).1.expl := by
  have hverdict {k' : Kaodv a} (verdict : Int) (d : Addr) (h : RouteList.Ordered k'.expl) :
      RouteList.Ordered (kaodvQueueSetVerdict e k' verdict d).1.expl := by
    rwa [(framed_setVerdict e k' verdict d).expl]
  rw [kaodvNetlinkReceivePeer]
  split
  · split
    · exact ho
    · rw [receiveAddroute]
      generalize rtMsgOf a msg = m
      cases hget : kaodvExplGet k.expl m.dest with
      | some r =>
          exact hverdict _ _ (ordered_call ho
            (.update (e.jiffies k.tick) m.dest m.nhop m.time (m.flags.setWidth 16) m.ifindex.toInt))
      | none =>
          exact hverdict _ _ (ordered_call ho (.add (e.jiffies k.tick) (e.kmalloc k.tick) m.dest
            m.nhop m.time (m.flags.setWidth 16) m.ifindex.toInt))
  · split
    · split
      · exact ho
      · have hdel : RouteList.Ordered (call e.hz k.expl (.del (rtMsgOf a msg).dest)) :=
          ordered_call ho _
        exact hverdict _ _ hdel
    · split
      · split
        · exact ho
        · exact hverdict _ _ ho
      · split
        · split
          · exact ho
          · exact ho
        · exact ho

/-- The turns of the module: hook calls with the memory each finds, messages from
the daemon and flushes. -/
inductive Turn
  | hook (kmalloc copied : Bool) (hooknum : Hooknum) (skb : Skb) (dev : Int) (okfn : Okfn)
  | netlink (type : U8) (msg : Buf) (len : Nat)
  | flush
  | flushRoutes

def turn (e : KEnv a) (k : Kaodv a) : Turn → Kaodv a
  | .hook kmalloc copied hooknum skb dev okfn =>
      (kaodvHook (answering e kmalloc copied) k hooknum skb dev okfn).1
  | .netlink type msg len => (kaodvNetlinkReceivePeer e k type msg len).1
  | .flush => kaodvQueueFlush k
  | .flushRoutes => { k with expl := kaodvExplFlush k.expl }

/-- A run with its books: the entries that hook calls put on the queue, and the
events of all other turns, the oldest first. -/
structure Books (a : Arch) where
  k : Kaodv a
  entered : List QueueEntry
  events : List SkbEvent

def book (e : KEnv a) (b : Books a) (t : Turn) : Books a :=
  let k := turn e b.k t
  match t with
  | .hook .. =>
      ⟨k, b.entered ++ k.queueList.take (k.queueList.length - b.k.queueList.length), b.events⟩
  | _ => ⟨k, b.entered, b.events ++ (k.trace.take (k.trace.length - b.k.trace.length)).reverse⟩

def books (e : KEnv a) (ts : List Turn) : Books a := ts.foldl (book e) ⟨kaodvInit, [], []⟩

/-- The answer of a hook call is true of what it did. -/
def Truthful (e : KEnv a) (b : Books a) : Turn → Prop
  | .hook kmalloc copied hooknum skb dev okfn =>
      Settled b.k (kaodvHook (answering e kmalloc copied) b.k hooknum skb dev okfn).1 skb okfn
        (kaodvHook (answering e kmalloc copied) b.k hooknum skb dev okfn).2
  | _ => True

/-- The packet of a hook call fits. -/
def TurnFits (e : KEnv a) (b : Books a) : Turn → Prop
  | .hook kmalloc copied hooknum skb dev _ => Fits e b.k kmalloc copied hooknum skb dev
  | _ => True

/-- All entries that were ever queued have left once or still wait. -/
def Balanced (b : Books a) : Prop :=
  ∃ left : Left, (∀ x ∈ left, Leaves x.1 x.2) ∧ b.events = left.flatMap Prod.snd ∧
    b.entered.Perm (left.map Prod.fst ++ arrivals b.k)

theorem ordered_turn (e : KEnv a) {k : Kaodv a} (t : Turn) (ho : RouteList.Ordered k.expl) :
    RouteList.Ordered (turn e k t).expl := by
  cases t with
  | hook kmalloc copied hooknum skb dev okfn =>
      exact ordered_hook (hook_does (answering e kmalloc copied) k hooknum skb dev okfn) ho
  | netlink type msg len => exact ordered_receivePeer e type msg len ho
  | flush =>
      rw [turn, (framed_flush k).expl]
      exact ho
  | flushRoutes =>
      have hflush : RouteList.Ordered (call e.hz k.expl .flush) := ordered_call ho _
      exact hflush

theorem balanced_departs {b : Books a} {k' : Kaodv a} {left : Left} (hb : Balanced b)
    (h : Departs b.k k' left) : Balanced
      ⟨k', b.entered, b.events ++ (k'.trace.take (k'.trace.length - b.k.trace.length)).reverse⟩ := by
  obtain ⟨gone, hgone, hevents, hperm⟩ := hb
  obtain ⟨hleft, htrace, harr⟩ := h
  refine ⟨gone ++ left, ?_, ?_, ?_⟩
  · intro x hx
    rcases List.mem_append.1 hx with hx | hx
    · exact hgone x hx
    · exact hleft x hx
  · have hnew : k'.trace.take (k'.trace.length - b.k.trace.length) =
        (left.flatMap Prod.snd).reverse := by
      rw [htrace, List.length_append, Nat.add_sub_cancel, List.take_left']
      rfl
    rw [hnew, List.reverse_reverse, List.flatMap_append, hevents]
  · rw [List.map_append, List.append_assoc]
    exact hperm.trans (harr.append_left _)

theorem balanced_book (e : KEnv a) {b : Books a} (hb : Balanced b) (t : Turn) :
    Balanced (book e b t) := by
  cases t with
  | hook kmalloc copied hooknum skb dev okfn =>
      obtain ⟨gone, hgone, hevents, hperm⟩ := hb
      refine ⟨gone, hgone, hevents, ?_⟩
      have hq := queue_hook (hook_does (answering e kmalloc copied) b.k hooknum skb dev okfn)
      rw [book, turn, arrivals]
      dsimp only
      rcases hq with hq | hq
      · rw [hq, Nat.sub_self, List.take_zero, List.append_nil]
        exact hperm
      · rw [hq, List.length_cons, Nat.add_sub_cancel_left, List.take_one, List.reverse_cons,
          ← List.append_assoc]
        exact hperm.append_right _
  | netlink type msg len =>
      obtain ⟨left, h⟩ := receivePeer_departs e b.k type msg len
      exact balanced_departs hb h
  | flush =>
      obtain ⟨left, h⟩ := flush_departs b.k
      exact balanced_departs hb h
  | flushRoutes => exact balanced_departs hb (.none rfl rfl)

theorem books_kept (e : KEnv a) (ts : List Turn) :
    RouteList.Ordered (books e ts).k.expl ∧ Balanced (books e ts) := by
  induction ts using List.reverseRecOn with
  | nil => exact ⟨⟨.nil, List.nodup_nil⟩, [], by simp, rfl, .refl _⟩
  | append_singleton ts t ih =>
      have hk : (book e (books e ts) t).k = turn e (books e ts).k t := by cases t <;> rfl
      rw [books, List.foldl_append]
      refine ⟨?_, balanced_book e ih.2 t⟩
      change RouteList.Ordered (book e (books e ts) t).k.expl
      rw [hk]
      exact ordered_turn e t ih.1

theorem truthful_iff (e : KEnv a) (ts : List Turn) (t : Turn) :
    Truthful e (books e ts) t ↔ TurnFits e (books e ts) t := by
  cases t with
  | hook kmalloc copied hooknum skb dev okfn => exact settled_hook (books_kept e ts).1
  | netlink type msg len | flush | flushRoutes => exact Iff.rfl

/-- In every run each queued packet leaves the queue at most once and meets one
fate then; and the answers of the hook are all true exactly when all packets fit. -/
theorem packets_owned (e : KEnv a) (ts : List Turn) :
    (∀ pre, pre <+: ts → Balanced (books e pre)) ∧
      ((∀ pre t, pre ++ [t] <+: ts → Truthful e (books e pre) t) ↔
        ∀ pre t, pre ++ [t] <+: ts → TurnFits e (books e pre) t) := by
  refine ⟨fun pre _ => (books_kept e pre).2, ?_⟩
  constructor
  · exact fun h pre t hpre => (truthful_iff e pre t).1 (h pre t hpre)
  · exact fun h pre t hpre => (truthful_iff e pre t).2 (h pre t hpre)

/-- A kernel with one interface, 10.0.0.1 on device 2, in which every call succeeds. -/
def wlan : KEnv .long32 where
  hz := 100
  jiffies := fun _ => 0
  ifihead := [⟨0x0100000a, 0xff00000a, 2⟩]
  kmalloc := fun _ => true
  nlmsgNew := fun _ => true
  skbCopyExpand := fun _ => true
  ident := fun _ => 0
  ipSendCheck := id

def packetTo (d : Addr) : Skb :=
  ⟨0, true, 20, storeLE (storeLE (store (store zeroed 0 0x45) 9 1) 12 0x0100000a) 16 d⟩

/-- An ADDROUTE for 10.0.0.9 through the gateway 10.0.0.2. -/
def gatewayRoute : Turn :=
  .netlink kaodvmAddroute (store (storeLE (storeLE zeroed 8 0x0900000a) 12 0x0200000a) 16 1) 28

/-- A packet without a route is lost for want of memory, and one with a route
through a gateway is freed by its encapsulation and then accepted. -/
theorem packets_disowned :
    ¬ Truthful wlan (books wlan []) (.hook false true .localOut (packetTo 0x0900000a) 2 0) ∧
      ¬ Truthful wlan (books wlan [gatewayRoute])
        (.hook true true .localOut (packetTo 0x0900000a) 2 0) := by
  have hc : Considered wlan (packetTo 0x0900000a) 2 ⟨0x0100000a, 0xff00000a, 2⟩ :=
    ⟨rfl, by decide +kernel, by decide +kernel, by decide +kernel⟩
  constructor
  · intro h
    have hfits : Fits wlan (books wlan []).k false true .localOut _ 2 := (truthful_iff wlan [] _).1 h
    have hq : Queues wlan (books wlan []).k .localOut (packetTo 0x0900000a) 2 :=
      ⟨_, hc, .inl (by decide +kernel)⟩
    exact absurd (hfits.1 hq).1 (by decide)
  · intro h
    have hfits : Fits wlan (books wlan [gatewayRoute]).k true true .localOut _ 2 :=
      (truthful_iff wlan [gatewayRoute] _).1 h
    have hget : kaodvExplGet (books wlan [gatewayRoute]).k.expl (packetTo 0x0900000a).daddr =
        some ⟨0, 1, 0x0900000a, 0x0200000a, 0⟩ := by decide +kernel
    have he : Encapsulates wlan (books wlan [gatewayRoute]).k .localOut (packetTo 0x0900000a) 2 :=
      ⟨rfl, _, hc, _, hget, by decide, by decide⟩
    exact absurd (hfits.2 he) (by decide)

end Aodv.PacketOwner
