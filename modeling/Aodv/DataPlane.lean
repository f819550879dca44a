import Mathlib.Data.Fintype.EquivFin
import Aodv.Askers
import Aodv.Combined

namespace Aodv.DataPlane

open Lib.Bytes Lib.Chains Kernel Mesh
open Relation

variable {a : Arch} {ι : Type}

section Networks

variable [DecidableEq ι]

/-- The states of a network whose nodes run both programs. Any node may go on: a
packet comes to a hook of its module, or its daemon runs, on a datagram of the
network, a timer or what it reads from nlsock. -/
inductive Whole (N : Network ι) (ke : ι → KEnv a) : (ι → System a) → Prop
  | start (activeRouteTimeout : ι → Int) : Whole N ke fun i =>
      ⟨init (N.env i) (N.addr i) (N.broadcast i) (N.ifindex i),
        { kaodvInit with activeRouteTimeout := activeRouteTimeout i }⟩
  | step {Y : ι → System a} (h : Whole N ke Y) (i : ι) (x : Happening)
      (hpkt : ∀ pkt during, x = .daemon (.recv pkt) during →
        Carried N (fun j => (Y j).daemon) i pkt)
      (hroom : Roomy (ke i) (turnsIn (N.env i) (Y i) x).1 (turnsIn (N.env i) (Y i) x).2) :
      Whole N ke (Function.update Y i (happen (N.env i) (ke i) (Y i) x))

variable {N : Network ι} {ke : ι → KEnv a} {Y : ι → System a}

theorem whole_together (h : Whole N ke Y) (k : ι) : Together (N.env k) (ke k) (Y k) := by
  induction h with
  | start timeout => exact .start _ _ _ _
  | @step Y _ i x _ hroom ih =>
      by_cases hk : k = i
      · subst k
        rw [Function.update_self]
        exact ih.step x hroom
      · rw [Function.update_of_ne hk]
        exact ih

theorem whole_reached (h : Whole N ke Y) : Reached N fun i => (Y i).daemon := by
  induction h with
  | start => exact .start
  | @step Y _ i x hpkt _ ih =>
      have hupdate (y : System a) : (fun j => (Function.update Y i y j).daemon) =
          Function.update (fun j => (Y j).daemon) i y.daemon :=
        Function.comp_update System.daemon Y i y
      have hidle (hsame : daemonAfter (N.env i) (Y i) x = (Y i).daemon) : Reached N
          (Function.update (fun j => (Y j).daemon) i (daemonAfter (N.env i) (Y i) x)) := by
        rw [hsame, Function.update_eq_self]
        exact ih
      rw [hupdate]
      change Reached N (Function.update _ i (daemonAfter (N.env i) (Y i) x))
      cases x with
      | packet c => exact hidle rfl
      | daemon input during =>
          cases htaken : taken (Y i).kernel input with
          | none =>
              apply hidle
              rw [daemonAfter, htaken]
          | some evk =>
              obtain ⟨ev, k⟩ := evk
              rw [daemonAfter, htaken]
              refine ih.step i fun pkt hev => ?_
              subst ev
              cases input with
              | recv pkt' =>
                  obtain ⟨⟨⟩, -⟩ := Prod.mk.inj (Option.some.inj htaken)
                  exact hpkt _ during rfl
              | age => cases htaken
              | fire => cases htaken
              | hear =>
                  rw [taken] at htaken
                  split at htaken
                  · cases htaken
                  · cases htaken

end Networks

theorem together_room {e : Env} {ke : KEnv a} {y : System a} (h : Together e ke y) :
    y.kernel.expl.explHead.length < explMaxLen := by
  cases h with
  | start => exact Nat.succ_pos _
  | step _ x hroom => exact hroom _ List.prefix_rfl

structure Data (e : KEnv a) (own : Addr) (skb : Skb) (dev : Int) : Prop where
  header : skb.hasIph = true
  payload : isAodv skb = false
  group : inMulticast skb = false
  everyone : skb.daddr ≠ inaddrBroadcast
  device : ∃ ifi, ifInfoFromIfindex e dev = some ifi ∧ ifi.ifAddr = own ∧ skb.daddr ≠ ifi.bcAddr

def hookOf (own : Addr) (skb : Skb) : Hooknum := if skb.saddr = own then .localOut else .preRouting

/-- What the module says to the packet. -/
def verdict (e : KEnv a) (k : Kaodv a) (own : Addr) (skb : Skb) (dev : Int) (okfn : Okfn) :
    Kaodv a × Verdict :=
  kaodvHook e k (hookOf own skb) skb dev okfn

section Hooks

variable {e : KEnv a} {k : Kaodv a} {next : Addr → Option Addr} {W : Addr → Prop} {own d n : Addr}
  {skb : Skb} {dev : Int} {okfn : Okfn}

theorem found (h : Waits next W k) (hn : next d = some n) :
    ∃ r, kaodvExplGet k.expl d = some r ∧ r.flags &&& kaodvRtRepair = 0 := by
  have hnhop := h.carries.nhop d
  rw [nhopOf, hn] at hnhop
  obtain ⟨r, hget, -⟩ := Option.map_eq_some_iff.1 hnhop
  refine ⟨r, hget, h.plain d (r.nhop, r.flags) ?_⟩
  rw [RouteList.route, hget]
  rfl

theorem absent (h : Waits next W k) (hn : next d = none) : kaodvExplGet k.expl d = none := by
  have hnhop := h.carries.nhop d
  rw [nhopOf, hn] at hnhop
  exact Option.map_eq_none_iff.1 hnhop

theorem hook_pre (h : Data e own skb dev) (k : Kaodv a) (okfn : Okfn) : ∃ ifi, ifi.ifAddr = own ∧
    kaodvHook e k .preRouting skb dev okfn = preRouting e k skb dev ifi okfn := by
  obtain ⟨ifi, hfind, hown, hbc⟩ := h.device
  refine ⟨ifi, hown, ?_⟩
  simp [kaodvHook, h.header, h.payload, h.group, h.everyone, hfind, hbc]

theorem hook_out (h : Data e own skb dev) :
    kaodvHook e k .localOut skb dev okfn = localOut e k skb dev okfn := by
  obtain ⟨ifi, hfind, rfl, hbc⟩ := h.device
  simp [kaodvHook, h.header, h.payload, h.group, h.everyone, hfind, hbc]

theorem passes (hw : Waits next W k) (hlen : k.expl.explHead.length < explMaxLen)
    (hcopy : ∀ n, e.skbCopyExpand n = true) (h : Data e own skb dev) (hd : skb.daddr ≠ own)
    (hn : next skb.daddr = some n) : (verdict e k own skb dev okfn).2 = .nfAccept := by
  rw [verdict, hookOf]
  split
  · rw [hook_out h, localOut]
    obtain ⟨r, hget, hplain⟩ := found hw hn
    rw [hget]
    dsimp only
    rw [if_neg (not_not.2 hplain)]
    split
    · rw [ipPktEncapsulate, if_pos (hcopy _)]
    · rfl
  next hs =>
    obtain ⟨ifi, rfl, heq⟩ := hook_pre h k okfn
    have hafter := hw.refreshed hlen (RouteList.refreshed_updateRouteTimeouts e k .preRouting dev skb)
    obtain ⟨r, hget, hplain⟩ := found hafter hn
    rw [heq, preRouting]
    dsimp only
    rw [if_neg (not_or.2 ⟨hs, hd⟩), hget]
    dsimp only
    rw [if_neg (not_not.2 hplain)]

theorem arrives (h : Data e own skb dev) (hs : skb.saddr ≠ own) (hd : skb.daddr = own) :
    (verdict e k own skb dev okfn).2 = .nfAccept := by
  obtain ⟨ifi, rfl, heq⟩ := hook_pre h k okfn
  rw [verdict, hookOf, if_neg hs, heq, preRouting]
  dsimp only
  rw [if_pos (.inr hd)]

/-- Without a route, a packet of another node is dropped and reported, and one of
the node itself is kept back, and unless others are waiting a route is asked for. -/
theorem refuses (hw : Waits next W k) (hlen : k.expl.explHead.length < explMaxLen)
    (hnl : ∀ n, e.nlmsgNew n = true) (h : Data e own skb dev) (hd : skb.daddr ≠ own)
    (hn : next skb.daddr = none) :
    if skb.saddr = own then (verdict e k own skb dev okfn).2 = .nfStolen ∧
      (kaodvQueueCheck k skb.daddr = true ∨ Requested (verdict e k own skb dev okfn).1 skb.daddr)
    else (verdict e k own skb dev okfn).2 = .nfDrop ∧
      ⟨.sendRerr, pktInbound, skb.saddr, skb.daddr, dev⟩ ∈
        (verdict e k own skb dev okfn).1.nlsock := by
  rw [verdict, hookOf]
  split
  · rw [hook_out h, localOut, absent hw hn]
    refine ⟨rfl, ?_⟩
    dsimp only
    rw [awaitRoute]
    split
    next hwait => exact .inl hwait
    · refine .inr ⟨⟨.routeReq, 0, 0, skb.daddr, 0⟩, ?_, rfl, rfl⟩
      dsimp only
      rw [(PacketQueue.framed_enqueue e _ skb okfn).nlsock, kaodvNetlinkSendRtMsg, netlinkBroadcast,
        if_pos (hnl _)]
      exact List.mem_append.2 (.inr (List.mem_singleton.2 rfl))
  next hs =>
    obtain ⟨ifi, rfl, heq⟩ := hook_pre h k okfn
    have hafter := hw.refreshed hlen (RouteList.refreshed_updateRouteTimeouts e k .preRouting dev skb)
    rw [heq, preRouting]
    dsimp only
    rw [if_neg (not_or.2 ⟨hs, hd⟩), absent hafter hn]
    refine ⟨rfl, ?_⟩
    dsimp only
    rw [kaodvNetlinkSendRerrMsg, netlinkBroadcast, if_pos (hnl _)]
    exact List.mem_append.2 (.inr (List.mem_singleton.2 rfl))

end Hooks

/-- The VALID entry of node i for d has node j for its next hop, the gateway that the
daemon asks the kernel for. -/
def Forwards (N : Network ι) (Y : ι → System a) (d : Addr) : ι → ι → Prop :=
  Hop N (fun i => (Y i).daemon) d

section Ways

variable [DecidableEq ι] {N : Network ι} {ke : ι → KEnv a} {Y : ι → System a} {d n : Addr}
  {i j k : ι}

theorem told_node (h : Whole N ke Y) (hrel : Reliable (N.env i))
    (hc : ∀ o ∈ (Y i).daemon.trace, keepsKernel o = true)
    (hn : told (Y i).daemon.trace d = some n) : ∃ j, n = N.addr j ∧ Forwards N Y d i j := by
  have hreached := whole_reached h
  obtain ⟨log, hlog⟩ := reached_delivered hreached
  obtain ⟨hops, p, hp, hv, hd, rfl, -⟩ := (told_held hrel (daemons hreached i) hc d n).1 hn
  obtain ⟨j, hj, -⟩ := ((grounded Mesh.askers_closed hlog i).met p hp).hop
  exact ⟨j, hj.symm, p, hp, hv, hd, hj.symm⟩

theorem forwards_told (h : Whole N ke Y) (hrel : Reliable (N.env i))
    (hc : ∀ o ∈ (Y i).daemon.trace, keepsKernel o = true) :
    Forwards N Y d i j ↔ told (Y i).daemon.trace d = some (N.addr j) := by
  constructor
  · rintro ⟨p, hp, hv, hd, hj⟩
    exact (told_held hrel (daemons (whole_reached h) i) hc d _).2
      ⟨_, p, hp, hv, hd, hj, rfl⟩
  · intro hn
    obtain ⟨j', hj', hnext⟩ := told_node h hrel hc hn
    obtain rfl := N.distinct hj'
    exact hnext

variable (h : Whole N ke Y) (hrel : ∀ i, Reliable (N.env i))
  (hc : ∀ i, ∀ o ∈ (Y i).daemon.trace, keepsKernel o = true)

include h hrel hc

theorem forwards_one : Relator.RightUnique (Forwards N Y d) := by
  intro i j k hj hk
  rw [forwards_told h (hrel i) (hc i)] at hj hk
  exact N.distinct (Option.some.inj (hj.symm.trans hk))

omit hrel hc in
theorem forwards_acyclic (hrise : ∀ i, Rising (Y i).daemon.trace) (i : ι) :
    ¬ TransGen (Forwards N Y d) i i :=
  acyclic (fun _ _ _ hab hbc => hop_rises (whole_reached h) hrise hab hbc) i

theorem forwards_iff : (∃ j, Forwards N Y d i j) ↔ ∃ n, told (Y i).daemon.trace d = some n := by
  constructor
  · rintro ⟨j, hj⟩
    exact ⟨_, (forwards_told h (hrel i) (hc i)).1 hj⟩
  · rintro ⟨n, hn⟩
    obtain ⟨j, rfl, hj⟩ := told_node h (hrel i) (hc i) hn
    exact ⟨j, hj⟩

/-- What becomes of a packet at the last node it comes to: it is there, or the node
has no route, and the packet is kept or given up with a word to the daemon. -/
def Ends (N : Network ι) (ke : ι → KEnv a) (Y : ι → System a) (skb : Skb) (dev : ι → Int)
    (okfn : Okfn) (j : ι) : Prop :=
  N.addr j = skb.daddr ∧ (skb.saddr ≠ N.addr j →
    (verdict (ke j) (Y j).kernel (N.addr j) skb (dev j) okfn).2 = .nfAccept) ∨
    if skb.saddr = N.addr j then
      (verdict (ke j) (Y j).kernel (N.addr j) skb (dev j) okfn).2 = .nfStolen ∧
        (kaodvQueueCheck (Y j).kernel skb.daddr = true ∨
          Requested (verdict (ke j) (Y j).kernel (N.addr j) skb (dev j) okfn).1 skb.daddr)
    else
      (verdict (ke j) (Y j).kernel (N.addr j) skb (dev j) okfn).2 = .nfDrop ∧
        ⟨.sendRerr, pktInbound, skb.saddr, skb.daddr, dev j⟩ ∈
          (verdict (ke j) (Y j).kernel (N.addr j) skb (dev j) okfn).1.nlsock

/-- In every state of the network the next hops of all nodes lead a packet along one
way, on which no node stands twice and the modules let it through, to its destination
or to a node without a route that keeps it or gives it up. -/
theorem packets_come_to_rest [Finite ι] (hmem : ∀ i n, (ke i).kmalloc n = true)
    (hnl : ∀ i n, (ke i).nlmsgNew n = true) (hcopy : ∀ i n, (ke i).skbCopyExpand n = true)
    (hrise : ∀ i, Rising (Y i).daemon.trace) {skb : Skb} {dev : ι → Int}
    (hdata : ∀ i, Data (ke i) (N.addr i) skb (dev i)) (okfn : Okfn) (i : ι) :
    (∀ k, ¬ TransGen (Forwards N Y skb.daddr) k k) ∧
      ∃ j, ReflTransGen (Forwards N Y skb.daddr) i j ∧ Ends N ke Y skb dev okfn j ∧
        ∀ k, ReflTransGen (Forwards N Y skb.daddr) i k → k ≠ j →
          (verdict (ke k) (Y k).kernel (N.addr k) skb (dev k) okfn).2 = .nfAccept ∧
            ∃! l, Forwards N Y skb.daddr k l := by
  have hacyclic := forwards_acyclic (d := skb.daddr) h hrise
  have hone := forwards_one (d := skb.daddr) h hrel hc
  have hwaits (k : ι) := waits_together (hrel k) (hnl k) (hmem k) (whole_together h k)
    (hc k)
  obtain ⟨j, hpath, hend, hall⟩ := exists_end (wellFounded_of_acyclic hacyclic) hone i
  refine ⟨hacyclic, j, hpath, ?_, fun k hk hne => ?_⟩
  · by_cases hdest : N.addr j = skb.daddr
    · exact .inl ⟨hdest, fun hs => arrives (hdata j) hs hdest.symm⟩
    · have hnone : told (Y j).daemon.trace skb.daddr = none := by
        cases hn : told (Y j).daemon.trace skb.daddr with
        | none => rfl
        | some n =>
            obtain ⟨l, hl⟩ := (forwards_iff h hrel hc).2 ⟨n, hn⟩
            exact absurd hl (hend l)
      exact .inr (refuses (hwaits j) (together_room (whole_together h j)) (hnl j) (hdata j)
        (Ne.symm hdest) hnone)
  · obtain ⟨l, hkl, -⟩ : ∃ l, Forwards N Y skb.daddr k l ∧ _ := by
      rcases (hall k hk).cases_head with rfl | hnext
      · exact absurd rfl hne
      · exact hnext
    obtain ⟨n, hn⟩ := (forwards_iff h hrel hc).1 ⟨l, hkl⟩
    have hforeign : skb.daddr ≠ N.addr k := by
      obtain ⟨_, -, hhop⟩ := told_node h (hrel k) (hc k) hn
      exact (hop_foreign (loyal_of_reached (whole_reached h) hrise k) hhop).symm
    exact ⟨passes (hwaits k) (together_room (whole_together h k)) (hcopy k) (hdata k) hforeign hn,
      l, hkl, fun l' hl' => hone hl' hkl⟩

end Ways

def trioKernel (i : Fin 3) :
    KEnv .long32 := { PacketOwner.wlan with ifihead := [⟨trio.addr i, 0xff00000a, 2⟩] }

def happened (Y : Fin 3 → System .long32) (i : Fin 3) (x : Happening) : Fin 3 → System .long32 :=
  Function.update Y i (happen plain (trioKernel i) (Y i) x)

def booted : Fin 3 → System .long32 := fun i =>
  ⟨init plain (trio.addr i) 0xff00000a 2, { kaodvInit with activeRouteTimeout := 3000 }⟩

def inquiring (i : Fin 3) : Fin 3 → System .long32 :=
  happened (happened booted i (ping 0x0900000a)) i (.daemon .hear [])

def inquiry (hops ttl : U8) (j : Fin 3) : Happening :=
  .daemon (.recv (.of (.rreq (asked 0 0x0900000a hops)) (trio.addr j) aodvBroadcast ttl
    (fits_rreq _))) []

/-- The RREQ of node i has come to node j and over it to node k. -/
def inquired (i j k : Fin 3) : Fin 3 → System .long32 :=
  happened (happened (inquiring i) j (inquiry 0 2 i)) k (inquiry 1 1 j)

theorem whole_inquiry {Y : Fin 3 → System .long32} (h : Whole trio trioKernel Y) (i : Fin 3)
    {j : Fin 3} {hops : U8} (ttl : Int)
    (hsent : (Y j).daemon.trace.any (offers (asked 0 0x0900000a hops) ttl) = true)
    (hroom : Roomy (trioKernel i) (turnsIn plain (Y i) (inquiry hops (BitVec.ofInt 8 ttl) j)).1
      (turnsIn plain (Y i) (inquiry hops (BitVec.ofInt 8 ttl) j)).2) :
    Whole trio trioKernel (happened Y i (inquiry hops (BitVec.ofInt 8 ttl) j)) := by
  apply Whole.step h i _ _ hroom
  rintro pkt during ⟨⟩
  exact carried_rreq (σ := fun j => (Y j).daemon) hsent i

theorem whole_inquired : Whole trio trioKernel (inquired 0 1 2) := by
  have hping : Whole trio trioKernel (happened booted 0 (ping 0x0900000a)) := by
    apply Whole.step (.start fun _ => 3000)
    · rintro _ _ ⟨⟩
    · exact roomy_take (by decide +kernel)
  have hasked : Whole trio trioKernel (inquiring 0) := by
    apply Whole.step hping
    · rintro _ _ ⟨⟩
    · exact roomy_take (by decide +kernel)
  have hfirst : Whole trio trioKernel (happened (inquiring 0) 1 (inquiry 0 2 0)) := by
    apply whole_inquiry hasked 1 2
    · decide +kernel
    · exact roomy_take (by decide +kernel)
  apply whole_inquiry hfirst 2 1
  · decide +kernel
  · exact roomy_take (by decide +kernel)

def reply : Skb :=
  ⟨0, true, 20, storeLE (storeLE (store (store zeroed 0 0x45) 9 1) 12 0x0300000a) 16 0x0100000a⟩

theorem data_reply (i : Fin 3) : Data (trioKernel i) (trio.addr i) reply 2 := by
  refine ⟨rfl, by decide, by decide, by decide, _, rfl, rfl, ?_⟩
  change reply.daddr ≠ 0xff00000a
  decide

theorem packets_come_to_rest_inquired :
    Forwards trio (inquired 0 1 2) reply.daddr 2 1 ∧
    ∃ j, ReflTransGen (Forwards trio (inquired 0 1 2) reply.daddr) 2 j ∧
      Ends trio trioKernel (inquired 0 1 2) reply (fun _ => 2) 0 j ∧
      ∀ k, ReflTransGen (Forwards trio (inquired 0 1 2) reply.daddr) 2 k → k ≠ j →
        (verdict (trioKernel k) (inquired 0 1 2 k).kernel (trio.addr k) reply 2 0).2 = .nfAccept ∧
          ∃! l, Forwards trio (inquired 0 1 2) reply.daddr k l := by
  have hentry : ∃ p ∈ entries (inquired 0 1 2 2).daemon.rtTbl,
      ((inquired 0 1 2 2).daemon.rt p).state = .valid ∧
        ((inquired 0 1 2 2).daemon.rt p).destAddr = reply.daddr ∧
          ((inquired 0 1 2 2).daemon.rt p).nextHop = trio.addr 1 := by decide +kernel
  obtain ⟨p, hp, hroute⟩ := hentry
  refine ⟨⟨p, (mem_entries _ p).1 hp, hroute⟩, (packets_come_to_rest whole_inquired
    (fun _ => fun _ => rfl) ?_ (fun _ _ => rfl) (fun _ _ => rfl) (fun _ _ => rfl) ?_ data_reply
    0 2).2⟩
  · decide +kernel
  · decide +kernel

end Aodv.DataPlane
