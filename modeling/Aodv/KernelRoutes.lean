import Aodv.Counter
import Aodv.Ledger
import Aodv.RouteMessages

namespace Aodv.Kernel

open Lib.Bytes
open RouteList PacketQueue
open PacketOwner (Turn turn HookDoes hook_does wlan)

def nlOf : Obs → Option NlMsg
  | .nl m => some m
  | _ => none

/-- The messages to the kernel module in the order in which they were sent. -/
def sent (tr : List Obs) : List NlMsg := tr.reverse.filterMap nlOf

def tell (next : Addr → Option Addr) : NlMsg → Addr → Option Addr
  | .addRoute dest nhop _ _ _ _ => Function.update next dest (some nhop)
  | .delRoute dest _ => Function.update next dest none
  | .noRouteFound _ => next

def told (tr : List Obs) : Addr → Option Addr := (sent tr).foldl tell fun _ => none

theorem sent_append (l tr : List Obs) : sent (l ++ tr) = sent tr ++ sent l := by
  rw [sent, List.reverse_append, List.filterMap_append]
  rfl

theorem told_nl (m : NlMsg) (tr : List Obs) : told (.nl m :: tr) = tell (told tr) m := by
  have hsent : sent (.nl m :: tr) = sent tr ++ [m] := sent_append [.nl m] tr
  rw [told, hsent, List.foldl_append]
  rfl

theorem told_other {o : Obs} (ho : nlOf o = none) (tr : List Obs) : told (o :: tr) = told tr := by
  have hsent : sent (o :: tr) = sent tr := by
    rw [← List.singleton_append, sent_append]
    simp [sent, ho]
  rw [told, hsent, told]

theorem told_netlink (tr : List Obs) : told (tr.filter isNetlink) = told tr := by
  induction tr with
  | nil => rfl
  | cons o tr ih =>
      cases o with
      | nl m =>
          cases m with
          | addRoute | delRoute => rw [List.filter_cons_of_pos rfl, told_nl, told_nl, ih]
          | noRouteFound d =>
              rw [List.filter_cons_of_neg (by simp [isNetlink]), told_nl, ih]
              rfl
      | kernelRoute =>
          rw [List.filter_cons_of_pos rfl, told_other rfl, told_other rfl, ih]
      | _ => rw [List.filter_cons_of_neg (by simp [isNetlink]), told_other rfl, ih]

/-- One next hop for each destination: a message about it replaces what was said before. -/
def kernelBooks : Books (Addr × Addr) where
  has := fun tr k => told tr k.1 = some k.2
  key := fun d n _ => (d, n)
  dest := Prod.fst
  replaces := fun k k' => k.1 = k'.1
  clears := fun k k' => k.1 = k'.1
  dest_key := fun _ _ _ => rfl
  replaces_dest := id
  clears_dest := id
  clears_self := fun _ => rfl
  has_nil := by
    rintro k ⟨⟩
  has_up := by
    rintro l d n hops lifetime flags ifindex ⟨d', n'⟩
    rw [upMsgs, List.cons_append, List.cons_append, List.nil_append, told_other rfl, told_nl, tell]
    by_cases hd : d' = d
    · subst d'
      simp [eq_comm]
    · simp [hd, Ne.symm hd]
  has_down := by
    rintro l r ⟨d', n'⟩
    rw [downMsgs, List.cons_append, List.cons_append, List.nil_append, told_other rfl, told_nl, tell]
    by_cases hd : d' = r.destAddr
    · subst d'
      simp
    · simp [hd, Ne.symm hd]

/-- An update of a VALID entry does not demote a neighbour, and finds a next
hop other than 0.0.0.0 or writes none. -/
def keepsKernel : Obs → Bool
  | .rtUpdate _ r next hops _ _ .valid _ =>
      decide (r.state = .invalid ∨ (¬ Demotes r hops ∧ (r.nextHop = 0 → next = 0)))
  | _ => true

theorem fits_kernel {r : RtEntry} {next : Addr} {hops : U32} {p : Ptr} {seqno lifetime : U32}
    {flags : RtFlags}
    (h : keepsKernel (.rtUpdate p r next hops seqno lifetime .valid flags) = true) :
    kernelBooks.Fits r next hops := by
  rintro ⟨d, n⟩ hd
  obtain rfl : d = r.destAddr := hd
  rcases of_decide_eq_true h with hst | ⟨hdem, hzero⟩
  · have htells : Tells r next := .inl hst
    simp [kernelBooks, htells, hst]
  · by_cases htells : Tells r next
    · simp [kernelBooks, htells, hdem]
    · have hst : r.state = .valid := by
        cases hst : r.state with
        | valid => rfl
        | invalid => exact absurd (.inl hst) htells
      have hnext : next = r.nextHop := by
        by_cases h0 : r.nextHop = 0
        · rw [h0, hzero h0]
        · by_contra hne
          exact htells (.inr ⟨h0, Ne.symm hne⟩)
      subst hnext
      simp [kernelBooks, Books.keyOf, htells, hdem, hst]

theorem told_held {e : Env} (hrel : Reliable e) {s : Daemon} (h : Reachable e s)
    (hc : ∀ o ∈ s.trace, keepsKernel o = true) (dest next : Addr) :
    told s.trace dest = some next ↔ ∃ hops, Holds s dest next hops := by
  have hb := kernelBooks.balanced_of_reachable (C := fun o => keepsKernel o = true)
    (fun _ _ _ _ _ _ _ => rfl) (fun p r next hops seqno lifetime flags hk => fits_kernel hk) hrel h hc
  rw [← told_netlink]
  refine (hb (dest, next)).trans ?_
  constructor
  · rintro ⟨d, n, m, hh, hk⟩
    obtain ⟨rfl, rfl⟩ : dest = d ∧ next = n := by simpa [kernelBooks] using hk
    exact ⟨m, hh⟩
  · rintro ⟨m, hh⟩
    exact ⟨dest, next, m, hh, rfl⟩

variable {a : Arch} {e : KEnv a} {k k' : Kaodv a} {next : Addr → Option Addr}

def nhopOf (x : Expl a) (d : Addr) : Option Addr := (kaodvExplGet x d).map ExplEntry.nhop

/-- The turns that change which routes there are. -/
def changesRoutes : Turn → Bool
  | .netlink type _ _ => decide (type = kaodvmAddroute ∨ type = kaodvmDelroute)
  | .flushRoutes => true
  | .hook .. | .flush => false

def isRoute : NlMsg → Bool
  | .addRoute .. | .delRoute .. => true
  | .noRouteFound _ => false

/-- The route list counts right and holds the routes that were told. -/
structure Carries (next : Addr → Option Addr) (k : Kaodv a) : Prop where
  accurate : Accurate k.expl
  nhop : ∀ d, nhopOf k.expl d = next d

theorem receiveAddroute_expl (hx : Accurate k.expl) (hroom : k.expl.explLen.toNat ≤ explMaxLen)
    (hmem : e.kmalloc k.tick = true) (m : KaodvRtMsg a) :
    Accurate (receiveAddroute e k m).1.expl ∧
      ∀ d, kaodvExplGet (receiveAddroute e k m).1.expl d =
        if d = m.dest then some ⟨expiry e.hz (e.jiffies k.tick) m.time, m.flags.setWidth 16, m.dest,
          m.nhop, m.ifindex.toInt⟩
        else kaodvExplGet k.expl d := by
  rw [receiveAddroute]
  cases hget : kaodvExplGet k.expl m.dest with
  | some r =>
      have hold : kaodvExplGet k.expl m.dest ≠ none := by simp [hget]
      dsimp only
      rw [(framed_setVerdict e _ kaodvQueueSend m.dest).expl]
      refine ⟨(accurate_call hx (.update (e.jiffies k.tick) m.dest m.nhop m.time
        (m.flags.setWidth 16) m.ifindex.toInt)).2 fun _ => hroom, fun d => ?_⟩
      exact get_update m.nhop m.time _ _ d hx.toOrdered hold hroom
  | none =>
      dsimp only
      rw [(framed_setVerdict e _ kaodvQueueSend m.dest).expl, Kaodv.explAdd, hmem]
      refine ⟨(accurate_call hx (.add (e.jiffies k.tick) true m.dest m.nhop m.time
        (m.flags.setWidth 16) m.ifindex.toInt)).2 fun _ _ => hroom, fun d => ?_⟩
      exact get_add m.nhop m.time _ _ d hx.toOrdered hget hroom

namespace Carries

theorem room (h : Carries next k) (hlen : k.expl.explHead.length < explMaxLen) :
    k.expl.explLen.toNat ≤ explMaxLen := by
  rw [h.accurate.count]
  exact Nat.le_of_lt hlen

theorem congr (h : Carries next k) (hx : k'.expl = k.expl) : Carries next k' := by
  constructor
  · rw [hx]
    exact h.accurate
  · rw [hx]
    exact h.nhop

theorem refreshed (h : Carries next k) (hlen : k.expl.explHead.length < explMaxLen)
    (hr : Refreshed k k') : Carries next k' := by
  have hroom := h.room hlen
  refine ⟨hr.accurate h.accurate hroom, fun d => ?_⟩
  have hroute := congrFun (hr.route h.accurate.toOrdered hroom) d
  have hnhop (x : Expl a) : nhopOf x d = (route x d).map Prod.fst := by
    rw [route, Option.map_map]
    rfl
  rw [hnhop, hroute, ← hnhop]
  exact h.nhop d

theorem broadcast (h : Carries next k) (m : RtMsg) : Carries next (netlinkBroadcast e k m) := by
  apply h.congr
  rw [netlinkBroadcast]
  split <;> rfl

theorem enqueue (h : Carries next k) (skb : Skb) (okfn : Okfn) :
    Carries next (kaodvQueueEnqueuePacket e k skb okfn).1 :=
  h.congr (framed_enqueue e k skb okfn).expl

theorem hook (h : Carries next k) (hlen : k.expl.explHead.length < explMaxLen) {skb : Skb}
    {okfn : Okfn} (hd : HookDoes e k skb okfn k') : Carries next k' := by
  cases hd with
  | passes hr => exact h.refreshed hlen hr
  | reports hr dev => exact (h.refreshed hlen hr).broadcast _
  | repairs hr _ => exact ((h.refreshed hlen hr).broadcast _).enqueue skb okfn
  | awaits =>
      rw [awaitRoute]
      dsimp only
      split
      · exact h.enqueue skb okfn
      · exact (h.broadcast _).enqueue skb okfn
  | copies hr dest =>
      apply (h.refreshed hlen hr).congr
      rw [Aodv.ipPktEncapsulate]
      split <;> rfl

theorem addRoute (h : Carries next k) (hlen : k.expl.explHead.length < explMaxLen)
    (hmem : e.kmalloc k.tick = true) (dest nhop : Addr) (time : U32) (encap repair : Bool)
    (ifindex : Int) : Carries (tell next (.addRoute dest nhop time encap repair ifindex))
      (turn e k (nlSend a (.addRoute dest nhop time encap repair ifindex))) := by
  obtain ⟨hacc, hget⟩ := receiveAddroute_expl (e := e) h.accurate (h.room hlen) hmem
    (rtMsgOf a (rtMsgBytes dest nhop (rtMsgFlags encap repair) ifindex time))
  rw [turn_addRoute]
  refine ⟨hacc, fun d => ?_⟩
  rw [nhopOf, hget, dest_rtMsgBytes, nhop_rtMsgBytes, tell, Function.update_apply]
  split
  · rfl
  · exact h.nhop d

theorem delRoute (h : Carries next k) (dest nhop : Addr) :
    Carries (tell next (.delRoute dest nhop)) (turn e k (nlSend a (.delRoute dest nhop))) := by
  rw [turn_delRoute, receiveDelroute, dest_rtMsgBytes]
  have hacc : Accurate (RouteList.call e.hz k.expl (.del dest)) :=
    (accurate_call h.accurate (.del dest)).2 trivial
  refine Carries.congr (k := { k with expl := (kaodvExplDel k.expl dest).1 }) ⟨hacc, fun d => ?_⟩
    (framed_setVerdict e _ _ _).expl
  dsimp only
  rw [nhopOf, get_del h.accurate.toOrdered, tell, Function.update_apply]
  split
  · rfl
  · exact h.nhop d

theorem message (h : Carries next k) (hlen : k.expl.explHead.length < explMaxLen)
    (hmem : e.kmalloc k.tick = true) (m : NlMsg) :
    Carries (tell next m) (turn e k (nlSend a m)) := by
  cases m with
  | addRoute dest nhop time encap repair ifindex =>
      exact h.addRoute hlen hmem dest nhop time encap repair ifindex
  | delRoute dest nhop => exact h.delRoute dest nhop
  | noRouteFound dest =>
      rw [turn_noRouteFound]
      exact h.congr (framed_setVerdict e k _ dest).expl

theorem other (h : Carries next k) (hlen : k.expl.explHead.length < explMaxLen) {t : Turn}
    (ht : changesRoutes t = false) : Carries next (turn e k t) := by
  cases t with
  | hook kmalloc copied hooknum skb dev okfn => exact h.hook hlen (hook_does _ k hooknum skb dev okfn)
  | flush => exact h.congr (framed_flush k).expl
  | flushRoutes => cases ht
  | netlink type msg len =>
      apply h.congr
      obtain ⟨hadd, hdel⟩ : ¬ type = kaodvmAddroute ∧ ¬ type = kaodvmDelroute := by
        simpa [changesRoutes] using ht
      rw [turn, kaodvNetlinkReceivePeer, if_neg hadd, if_neg hdel]
      split
      · split
        · rfl
        · exact (framed_setVerdict e k _ _).expl
      · split
        · split <;> rfl
        · rfl

end Carries

/-- The route list is below its limit before each of the turns and after the last. -/
def Roomy (e : KEnv a) (k : Kaodv a) (ts : List Turn) : Prop :=
  ∀ pre, pre <+: ts → (pre.foldl (turn e) k).expl.explHead.length < explMaxLen

theorem Roomy.first {ts : List Turn} (h : Roomy e k ts) : k.expl.explHead.length < explMaxLen :=
  h [] List.nil_prefix

theorem Roomy.append {ts ts' : List Turn} (h : Roomy e k (ts ++ ts')) :
    Roomy e k ts ∧ Roomy e (ts.foldl (turn e) k) ts' := by
  constructor
  · intro pre hpre
    exact h pre (hpre.trans (List.prefix_append ts ts'))
  · intro pre hpre
    have hall := h (ts ++ pre) ((List.prefix_append_right_inj ts).2 hpre)
    rwa [List.foldl_append] at hall

theorem Roomy.tail {t : Turn} {ts : List Turn} (h : Roomy e k (t :: ts)) :
    Roomy e (turn e k t) ts := by
  have hsplit : Roomy e k ([t] ++ ts) := h
  exact hsplit.append.2

theorem foldl_tell_routes (ms : List NlMsg) (next : Addr → Option Addr) :
    (ms.filter isRoute).foldl tell next = ms.foldl tell next := by
  induction ms generalizing next with
  | nil => rfl
  | cons m ms ih =>
      cases m with
      | addRoute | delRoute =>
          rw [List.filter_cons_of_pos rfl]
          exact ih _
      | noRouteFound =>
          rw [List.filter_cons_of_neg (by simp [isRoute])]
          exact ih _

/-- The module takes the daemon's messages one after the other, with any other
turns in between. -/
theorem carries_turns {ms : List NlMsg} {ts : List Turn} (h : Carries next k)
    (hmem : ∀ n, e.kmalloc n = true) (hroom : Roomy e k ts)
    (hts : ts.filter changesRoutes = ms.map (nlSend a)) :
    Carries (ms.foldl tell next) (ts.foldl (turn e) k) := by
  induction ts generalizing k next ms with
  | nil =>
      obtain rfl : ms = [] := by simpa using hts.symm
      exact h
  | cons t ts ih =>
      have hfirst := hroom.first
      have hrest : Roomy e (turn e k t) ts := hroom.tail
      cases ht : changesRoutes t with
      | false =>
          rw [List.filter_cons_of_neg (by simp [ht])] at hts
          exact ih (h.other hfirst ht) hrest hts
      | true =>
          rw [List.filter_cons_of_pos ht] at hts
          cases ms with
          | nil => cases hts
          | cons m ms =>
              obtain ⟨rfl, htail⟩ := List.cons.inj hts
              have hdone := ih (h.message hfirst (hmem _) m) hrest htail
              exact hdone

theorem carries_init : Carries (fun _ => none) (kaodvInit : Kaodv a) :=
  ⟨⟨⟨.nil, List.nodup_nil⟩, rfl⟩, fun _ => rfl⟩

/-- If every update meets the condition, the module's route list has an entry for
an address exactly if the daemon has a VALID one, and then with its next hop. -/
theorem kernel_agrees {env : Env} (hrel : Reliable env) {s : Daemon} (h : Reachable env s)
    (hc : ∀ o ∈ s.trace, keepsKernel o = true) (hmem : ∀ n, e.kmalloc n = true) {ts : List Turn}
    (hroom : Roomy e kaodvInit ts)
    (hts : ts.filter changesRoutes = ((sent s.trace).filter isRoute).map (nlSend a))
    (dest nhop : Addr) :
    (∃ r ∈ (ts.foldl (turn e) kaodvInit).expl.explHead, r.daddr = dest ∧ r.nhop = nhop) ↔
      ∃ p, Linked s.rtTbl p ∧ (s.rt p).state = .valid ∧ (s.rt p).destAddr = dest ∧
        (s.rt p).nextHop = nhop := by
  have hcarries := carries_turns carries_init hmem hroom hts
  rw [foldl_tell_routes] at hcarries
  have hkernel : (∃ r ∈ (ts.foldl (turn e) kaodvInit).expl.explHead,
      r.daddr = dest ∧ r.nhop = nhop) ↔ told s.trace dest = some nhop := by
    rw [told, ← hcarries.nhop, nhopOf, Option.map_eq_some_iff]
    constructor
    · rintro ⟨r, hr, hd, hn⟩
      exact ⟨r, (get_eq_some hcarries.accurate.toOrdered).2 ⟨hr, hd⟩, hn⟩
    · rintro ⟨r, hget, hn⟩
      obtain ⟨hr, hd⟩ := mem_of_get hget
      exact ⟨r, hr, hd, hn⟩
  rw [hkernel, told_held hrel h hc]
  constructor
  · rintro ⟨m, p, hp, hv, hd, hn, _⟩
    exact ⟨p, hp, hv, hd, hn⟩
  · rintro ⟨p, hp, hv, hd, hn⟩
    exact ⟨_, p, hp, hv, hd, hn, rfl⟩

/-- The module's turns when nothing but these messages comes. -/
def turnsOf (tr : List Obs) : List Turn := (sent tr).map (nlSend .long32)

theorem filter_turnsOf (tr : List Obs) :
    (turnsOf tr).filter changesRoutes = ((sent tr).filter isRoute).map (nlSend .long32) := by
  rw [turnsOf, List.filter_map]
  congr 1
  apply List.filter_congr
  intro m _
  cases m <;> rfl

theorem roomy_take {k : Kaodv a} {ts : List Turn}
    (h : ∀ n ≤ ts.length, ((ts.take n).foldl (turn e) k).expl.explHead.length < explMaxLen) :
    Roomy e k ts := by
  intro pre hpre
  rw [List.prefix_iff_eq_take.1 hpre]
  exact h _ hpre.length_le

theorem kernel_agrees_neighbor :
    (∃ r ∈ ((turnsOf (run plain (init plain 0x0100000a 0xff00000a 2)
        [.recv Counter.nearHello]).trace).foldl (turn wlan) kaodvInit).expl.explHead,
      r.daddr = 0x0200000a ∧ r.nhop = 0x0200000a) :=
  (kernel_agrees (fun _ => rfl) ⟨0x0100000a, 0xff00000a, 2, _, rfl⟩ (by decide +kernel)
    (fun _ => rfl) (roomy_take (by decide +kernel)) (filter_turnsOf _) 0x0200000a 0x0200000a).2
    ⟨0, (mem_entries _ 0).1 (by decide +kernel), by decide +kernel⟩

def demoted : Daemon :=
  run plain (init plain 0x0100000a 0xff00000a 2) [.recv Counter.nearHello, .recv Counter.farRreq]

/-- The link break of the demotion deletes the route that the update has announced. -/
theorem kernel_disagrees : ¬ ∀ s, Reachable plain s → ∀ ts : List Turn,
    Roomy wlan kaodvInit ts →
    ts.filter changesRoutes = ((sent s.trace).filter isRoute).map (nlSend .long32) →
    ∀ dest nhop, (∃ r ∈ (ts.foldl (turn wlan) kaodvInit).expl.explHead,
        r.daddr = dest ∧ r.nhop = nhop) ↔
      ∃ p, Linked s.rtTbl p ∧ (s.rt p).state = .valid ∧ (s.rt p).destAddr = dest ∧
        (s.rt p).nextHop = nhop := by
  intro hall
  have hagree := hall demoted ⟨0x0100000a, 0xff00000a, 2, _, rfl⟩ (turnsOf demoted.trace)
    (roomy_take (by decide +kernel)) (filter_turnsOf _) 0x0200000a 0x0300000a
  obtain ⟨r, hr, hd, _⟩ := hagree.2
    ⟨0, (mem_entries _ 0).1 (by decide +kernel), by decide +kernel⟩
  have hnone : ∀ r ∈ ((turnsOf demoted.trace).foldl (turn wlan) kaodvInit).expl.explHead,
      r.daddr ≠ 0x0200000a := by decide +kernel
  exact hnone r hr hd

end Aodv.Kernel
