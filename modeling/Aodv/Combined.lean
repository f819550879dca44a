import Aodv.KernelRoutes
import Aodv.Searches

namespace Aodv.Kernel

open RouteList PacketQueue
open PacketOwner (Turn turn HookDoes hook_does answering Repairing broadcast_queue queue_enqueue wlan packetTo)

variable {a : Arch}

def Requested (k : Kaodv a) (d : Addr) : Prop :=
  ∃ m ∈ k.nlsock, m.nlmsgType = .routeReq ∧ m.dest = d

/-- The packets that wait have no route, and for each the daemon looks after the
destination or will hear of it. -/
structure Waits (next : Addr → Option Addr) (W : Addr → Prop) (k : Kaodv a) : Prop where
  carries : Kernel.Carries next k
  plain : ∀ d r, route k.expl d = some r → r.2 &&& kaodvRtRepair = 0
  clear : ∀ entry ∈ k.queueList, next entry.rtInfo.daddr = none
  asked : ∀ entry ∈ k.queueList, W entry.rtInfo.daddr ∨ Requested k entry.rtInfo.daddr

namespace Waits

variable {e : KEnv a} {k k' : Kaodv a} {next : Addr → Option Addr} {W W' : Addr → Prop}

theorem no_route (h : Waits next W k) {d : Addr}
    (hd : kaodvExplGet k.expl d = none ∨ Repairing k.expl d) : next d = none := by
  rcases hd with hd | ⟨r, hget, hrep⟩
  · rw [← h.carries.nhop, nhopOf, hd]
    rfl
  · refine absurd (h.plain d (r.nhop, r.flags) ?_) hrep
    rw [route, hget]
    rfl

theorem frame (h : Waits next W k) (hc : Kernel.Carries next k')
    (hroute : route k'.expl = route k.expl)
    (hq : k'.queueList = k.queueList) (hnl : ∀ m ∈ k.nlsock, m ∈ k'.nlsock) : Waits next W k' := by
  refine ⟨hc, fun d r hr => h.plain d r (by rwa [← hroute]), fun entry he => ?_, fun entry he => ?_⟩
  · rw [hq] at he
    exact h.clear entry he
  · rw [hq] at he
    refine (h.asked entry he).imp id ?_
    rintro ⟨m, hm, ht, hd⟩
    exact ⟨m, hnl m hm, ht, hd⟩

theorem refreshed (h : Waits next W k) (hlen : k.expl.explHead.length < explMaxLen)
    (hr : Refreshed k k') : Waits next W k' := by
  refine h.frame (h.carries.refreshed hlen hr) ?_ hr.queueList fun m hm => ?_
  · exact hr.route h.carries.accurate.toOrdered (h.carries.room hlen)
  · obtain ⟨ms, hms, -⟩ := hr.nlsock
    rw [hms]
    exact List.mem_append.2 (.inl hm)

theorem broadcast (h : Waits next W k) (m : RtMsg) : Waits next W (netlinkBroadcast e k m) := by
  refine h.frame (h.carries.broadcast m) ?_ (broadcast_queue e k m).1 fun m' hm => ?_
  · rw [netlinkBroadcast]
    split <;> rfl
  · rw [netlinkBroadcast]
    split
    · exact List.mem_append.2 (.inl hm)
    · exact hm

theorem enqueue (h : Waits next W k) {skb : Skb} (okfn : Okfn) (hnone : next skb.daddr = none)
    (hask : W skb.daddr ∨ Requested k skb.daddr) :
    Waits next W (kaodvQueueEnqueuePacket e k skb okfn).1 := by
  have hframe := framed_enqueue e k skb okfn
  have hmem {entry : QueueEntry}
      (he : entry ∈ (kaodvQueueEnqueuePacket e k skb okfn).1.queueList) :
      entry ∈ k.queueList ∨ entry.rtInfo.daddr = skb.daddr := by
    rcases queue_enqueue e k skb okfn with hq | hq
    · rw [hq] at he
      exact .inl he
    · rw [hq] at he
      rcases List.mem_cons.1 he with rfl | he
      · exact .inr rfl
      · exact .inl he
  refine ⟨h.carries.enqueue skb okfn, ?_, fun entry he => ?_, fun entry he => ?_⟩
  · rw [hframe.expl]
    exact h.plain
  · rcases hmem he with he | hd
    · exact h.clear entry he
    · rwa [hd]
  · rw [Requested, hframe.nlsock]
    rcases hmem he with he | hd
    · exact h.asked entry he
    · rw [hd]
      exact hask

theorem awaitRoute (h : Waits next W k) (hnl : ∀ n, e.nlmsgNew n = true) {skb : Skb} (okfn : Okfn)
    (hnone : next skb.daddr = none) : Waits next W (Aodv.awaitRoute e k skb okfn).1 := by
  rw [Aodv.awaitRoute]
  dsimp only
  split
  next hcheck =>
    refine h.enqueue okfn hnone ?_
    rw [kaodvQueueCheck, Aodv.Locked.kaodvQueueCheckEntry, Option.isSome_iff_exists] at hcheck
    obtain ⟨entry, hentry⟩ := hcheck
    have hd : skb.daddr = entry.rtInfo.daddr := by
      have hfound := List.find?_some hentry
      simpa [matched, destCmp] using hfound
    rw [hd]
    exact h.asked entry (List.mem_reverse.1 (List.mem_of_find?_eq_some hentry))
  · refine (h.broadcast _).enqueue okfn hnone (.inr ⟨⟨.routeReq, 0, 0, skb.daddr, 0⟩, ?_, rfl, rfl⟩)
    rw [netlinkBroadcast, if_pos (hnl _)]
    exact List.mem_append.2 (.inr (List.mem_singleton.2 rfl))

theorem hook (h : Waits next W k) (hlen : k.expl.explHead.length < explMaxLen)
    (hnl : ∀ n, e.nlmsgNew n = true) {skb : Skb} {okfn : Okfn} (hd : HookDoes e k skb okfn k') :
    Waits next W k' := by
  cases hd with
  | passes hr => exact h.refreshed hlen hr
  | reports hr dev => exact (h.refreshed hlen hr).broadcast _
  | repairs hr hrep =>
      have hafter := h.refreshed hlen hr
      obtain ⟨r, hget, hrep⟩ := hrep
      refine absurd (hafter.plain skb.daddr (r.nhop, r.flags) ?_) hrep
      rw [route, hget]
      rfl
  | awaits hd => exact h.awaitRoute hnl okfn (h.no_route hd)
  | @copies k₁ hr dest =>
      have hafter := h.refreshed hlen hr
      have hdoes : HookDoes e k skb okfn (Aodv.ipPktEncapsulate e k₁ skb dest).1 := .copies hr dest
      refine hafter.frame (h.carries.hook hlen hdoes) ?_ (ipPktEncapsulate_queue e k₁ skb dest).1
        fun m hm => ?_
      · rw [Aodv.ipPktEncapsulate]
        split <;> rfl
      · rw [Aodv.ipPktEncapsulate]
        split <;> exact hm

theorem receiveAddroute_queue (e : KEnv a) (k : Kaodv a) (m : KaodvRtMsg a) :
    arrivals (receiveAddroute e k m).1 = othersThan k m.dest ∧
      (receiveAddroute e k m).1.nlsock = k.nlsock := by
  rw [receiveAddroute]
  cases kaodvExplGet k.expl m.dest with
  | some r =>
      exact ⟨(setVerdict_queue e _ m.dest (.inr rfl)).1, (framed_setVerdict e _ _ m.dest).nlsock⟩
  | none =>
      exact ⟨(setVerdict_queue e _ m.dest (.inr rfl)).1, (framed_setVerdict e _ _ m.dest).nlsock⟩

theorem leave (h : Waits next W k) {next' : Addr → Option Addr} (hc : Kernel.Carries next' k')
    (hplain : ∀ x r, route k'.expl x = some r → r.2 &&& kaodvRtRepair = 0) {d : Addr}
    (hnext : ∀ x, x ≠ d → next' x = next x) (hq : arrivals k' = othersThan k d)
    (hnl : k'.nlsock = k.nlsock) : Waits next' (fun x => W x ∧ x ≠ d) k' := by
  have hmem {entry : QueueEntry} (he : entry ∈ k'.queueList) :
      entry ∈ k.queueList ∧ entry.rtInfo.daddr ≠ d := by
    have harr : entry ∈ arrivals k' := List.mem_reverse.2 he
    rw [hq, othersThan, List.mem_filter] at harr
    obtain ⟨harr, hne⟩ := harr
    refine ⟨List.mem_reverse.1 harr, fun hd => ?_⟩
    simp [destCmp, hd] at hne
  refine ⟨hc, hplain, fun entry he => ?_, fun entry he => ?_⟩
  · rw [hnext _ (hmem he).2]
    exact h.clear entry (hmem he).1
  · rw [Requested, hnl]
    exact (h.asked entry (hmem he).1).imp (fun hw => ⟨hw, (hmem he).2⟩) id

theorem message (h : Waits next W k) (hlen : k.expl.explHead.length < explMaxLen)
    (hmem : e.kmalloc k.tick = true) {m : NlMsg} (hm : unmarked (.nl m) = true) :
    Waits (tell next m) (fun x => W x ∧ x ≠ destOf m) (turn e k (nlSend a m)) := by
  have hc := h.carries.message hlen hmem m
  cases m with
  | addRoute dest nhop time encap repair ifindex =>
      obtain rfl : repair = false := by simpa [unmarked] using hm
      rw [turn_addRoute] at hc ⊢
      obtain ⟨-, hget⟩ := receiveAddroute_expl (e := e) h.carries.accurate (h.carries.room hlen) hmem
        (rtMsgOf a (rtMsgBytes dest nhop (rtMsgFlags encap false) ifindex time))
      refine h.leave hc (fun x r hr => ?_) (fun x hx => ?_) ?_ ?_
      · rw [route, hget, dest_rtMsgBytes, flags_rtMsgBytes] at hr
        split at hr
        · obtain rfl : _ = r := by simpa using hr
          exact repair_rtMsgFlags encap
        · exact h.plain x r hr
      · exact Function.update_of_ne hx _ _
      · obtain ⟨harr, -⟩ := receiveAddroute_queue e k
          (rtMsgOf a (rtMsgBytes dest nhop (rtMsgFlags encap false) ifindex time))
        rwa [dest_rtMsgBytes] at harr
      · exact (receiveAddroute_queue e k _).2
  | delRoute dest nhop =>
      rw [turn_delRoute, receiveDelroute, dest_rtMsgBytes] at hc ⊢
      obtain ⟨harr, -⟩ := setVerdict_queue e { k with expl := (kaodvExplDel k.expl dest).1 } dest
        (.inl rfl)
      have hframe := framed_setVerdict e { k with expl := (kaodvExplDel k.expl dest).1 }
        kaodvQueueDrop dest
      refine h.leave hc (fun x r hr => ?_) (fun x hx => ?_) harr hframe.nlsock
      · rw [hframe.expl] at hr
        dsimp only at hr
        rw [route, get_del h.carries.accurate.toOrdered] at hr
        split at hr
        · cases hr
        · exact h.plain x r hr
      · exact Function.update_of_ne hx _ _
  | noRouteFound dest =>
      rw [turn_noRouteFound] at hc ⊢
      obtain ⟨harr, -⟩ := setVerdict_queue e k dest (.inl rfl)
      have hframe := framed_setVerdict e k kaodvQueueDrop dest
      refine h.leave hc (fun x r hr => ?_) (fun _ _ => rfl) harr hframe.nlsock
      rw [hframe.expl] at hr
      exact h.plain x r hr

end Waits

/-- A packet at a netfilter hook, with what the allocators of the kernel answer. -/
structure HookCall where
  kmalloc : Bool
  copied : Bool
  hooknum : Hooknum
  skb : Skb
  dev : Int
  okfn : Okfn

def HookCall.turn (c : HookCall) : Turn := .hook c.kmalloc c.copied c.hooknum c.skb c.dev c.okfn

/-- The messages of one event of the daemon, with the packets that come before
each of them and those after the last. -/
def weave (a : Arch) : List (List HookCall) → List NlMsg → List Turn
  | [], ms => ms.map (nlSend a)
  | cs :: _, [] => cs.map HookCall.turn
  | cs :: css, m :: ms => cs.map HookCall.turn ++ nlSend a m :: weave a css ms

structure System (a : Arch) where
  daemon : Daemon
  kernel : Kaodv a

/-- What the daemon makes of a message of the kernel module. -/
def heard (m : RtMsg) : KernelMsg :=
  match m.nlmsgType with
  | .timeout => .timeout m.dest
  | .routeReq => .routeReq m.dest
  | .repair => .repair m.src m.dest
  | .routeUpdate => .routeUpdate m.src m.dest
  | .sendRerr => .sendRerr m.src m.dest
  | .addroute | .delroute | .norouteFound | .config | .debug => .other

inductive Input
  | recv (pkt : Packet)
  | age
  | fire (t : TimerId)
  | hear

/-- The daemon's event and the module's state once the event has taken its message. -/
def taken (k : Kaodv a) : Input → Option (Event × Kaodv a)
  | .recv pkt => some (.recv pkt, k)
  | .age => some (.age, k)
  | .fire t => some (.fire t, k)
  | .hear =>
      match k.nlsock with
      | [] => none
      | m :: rest => some (.kernel (heard m), { k with nlsock := rest })

/-- Packets can come at any time, also while the daemon sends. -/
inductive Happening
  | packet (c : HookCall)
  | daemon (i : Input) (during : List (List HookCall))

def turnsIn (e : Env) (y : System a) : Happening → Kaodv a × List Turn
  | .packet c => (y.kernel, [c.turn])
  | .daemon i during =>
      match taken y.kernel i with
      | none => (y.kernel, [])
      | some (ev, k) => (k, weave a during (sent (since y.daemon (step e y.daemon ev))))

def daemonAfter (e : Env) (y : System a) : Happening → Daemon
  | .packet _ => y.daemon
  | .daemon i _ =>
      match taken y.kernel i with
      | none => y.daemon
      | some (ev, _) => step e y.daemon ev

def happen (e : Env) (ke : KEnv a) (y : System a) (h : Happening) : System a where
  daemon := daemonAfter e y h
  kernel := (turnsIn e y h).2.foldl (turn ke) (turnsIn e y h).1

/-- The states of the two programs in runs in which the route list stays below
its limit. The module has the configuration that the daemon sends first. -/
inductive Together (e : Env) (ke : KEnv a) : System a → Prop
  | start (ipaddr broadcast : Addr) (ifindex activeRouteTimeout : Int) :
      Together e ke ⟨init e ipaddr broadcast ifindex,
        { kaodvInit with activeRouteTimeout := activeRouteTimeout }⟩
  | step {y : System a} (hy : Together e ke y) (h : Happening)
      (hroom : Roomy ke (turnsIn e y h).1 (turnsIn e y h).2) : Together e ke (happen e ke y h)

namespace Waits

variable {ke : KEnv a} {k : Kaodv a} {next : Addr → Option Addr} {W W' : Addr → Prop}

theorem weaken (h : Waits next W k) (hw : ∀ x, W x → next x = none → W' x) : Waits next W' k :=
  ⟨h.carries, h.plain, h.clear, fun entry he =>
    (h.asked entry he).imp (fun hx => hw _ hx (h.clear entry he)) id⟩

theorem packets (h : Waits next W k) (hnl : ∀ n, ke.nlmsgNew n = true) {cs : List HookCall}
    (hroom : Roomy ke k (cs.map HookCall.turn)) :
    Waits next W ((cs.map HookCall.turn).foldl (turn ke) k) := by
  induction cs generalizing k with
  | nil => exact h
  | cons c cs ih =>
      refine ih ?_ hroom.tail
      exact Waits.hook (e := answering ke c.kmalloc c.copied) h hroom.first hnl
        (hook_does _ k c.hooknum c.skb c.dev c.okfn)

theorem turns (h : Waits next W k) (hnl : ∀ n, ke.nlmsgNew n = true)
    (hmem : ∀ n, ke.kmalloc n = true) {css : List (List HookCall)} {ms : List NlMsg}
    (hms : ∀ m ∈ ms, unmarked (.nl m) = true) (hroom : Roomy ke k (weave a css ms)) :
    Waits (ms.foldl tell next) (fun x => W x ∧ ∀ m ∈ ms, x ≠ destOf m)
      ((weave a css ms).foldl (turn ke) k) := by
  induction ms generalizing k next W css with
  | nil =>
      cases css with
      | nil => exact h.weaken fun x hx _ => ⟨hx, by simp⟩
      | cons cs css => exact (h.packets hnl hroom).weaken fun x hx _ => ⟨hx, by simp⟩
  | cons m ms ih =>
      have hrest {k : Kaodv a} (css : List (List HookCall)) (h : Waits next W k)
          (hroom : Roomy ke k (nlSend a m :: weave a css ms)) :
          Waits ((m :: ms).foldl tell next) (fun x => W x ∧ ∀ m' ∈ m :: ms, x ≠ destOf m')
            ((nlSend a m :: weave a css ms).foldl (turn ke) k) := by
        have hfirst := h.message hroom.first (hmem _) (hms m List.mem_cons_self)
        have hdone := ih hfirst (fun m' hm' => hms m' (List.mem_cons_of_mem _ hm'))
          hroom.tail
        refine Waits.weaken hdone fun x hx _ => ?_
        obtain ⟨⟨hw, hne⟩, hx⟩ := hx
        refine ⟨hw, fun m' hm' => ?_⟩
        rcases List.mem_cons.1 hm' with rfl | hm'
        · exact hne
        · exact hx m' hm'
      cases css with
      | nil => exact hrest [] h hroom
      | cons cs css =>
          obtain ⟨hcs, hafter⟩ := Roomy.append hroom
          rw [weave, List.foldl_append]
          exact hrest css (h.packets hnl hcs) hafter

end Waits

section Runs

variable {e : Env} {ke : KEnv a} {y : System a} {W : Addr → Prop}

theorem reachable_step {s : Daemon} (h : Reachable e s) (ev : Event) : Reachable e (step e s ev) := by
  obtain ⟨ipaddr, broadcast, ifindex, es, heq⟩ := h
  refine ⟨ipaddr, broadcast, ifindex, es ++ [ev], ?_⟩
  rw [run, List.foldl_append]
  exact congrArg (step e · ev) heq

theorem daemon_reachable (h : Together e ke y) : Reachable e y.daemon := by
  induction h with
  | start ipaddr broadcast ifindex timeout => exact ⟨ipaddr, broadcast, ifindex, [], rfl⟩
  | @step y hy h hroom ih =>
      cases h with
      | packet c => exact ih
      | daemon i during =>
          rw [happen, daemonAfter]
          dsimp only
          split
          · exact ih
          · exact reachable_step ih _

theorem mem_sent {m : NlMsg} {l : List Obs} : m ∈ sent l ↔ .nl m ∈ l := by
  rw [sent, List.mem_filterMap]
  constructor
  · rintro ⟨o, ho, heq⟩
    cases o with
    | nl m' =>
        obtain rfl : m' = m := by simpa [nlOf] using heq
        exact List.mem_reverse.1 ho
    | _ => cases heq
  · intro h
    exact ⟨.nl m, List.mem_reverse.2 h, rfl⟩

theorem sent_since {s : Daemon} (h : Reachable e s) (ev : Event) :
    told (step e s ev).trace = (sent (since s (step e s ev))).foldl tell (told s.trace) ∧
      ∀ x, About s (step e s ev) x → ∃ m ∈ sent (since s (step e s ev)), destOf m = x := by
  obtain ⟨l, hl⟩ := moves_trace (step_moves (e := e) (Aodv.Reachable.resting h) ev).1
  rw [since_eq hl.symm]
  constructor
  · rw [told, ← hl, sent_append, List.foldl_append, told]
  · rintro x ⟨l', hl', m, hm, hd⟩
    obtain rfl : l' = l := List.append_cancel_right (hl'.symm.trans hl.symm)
    exact ⟨m, mem_sent.2 hm, hd⟩

theorem sent_unmarked (hrel : Reliable e) {s : Daemon} (h : Reachable e s) (ev : Event) :
    ∀ m ∈ sent (since s (step e s ev)), unmarked (.nl m) = true := by
  intro m hm
  obtain ⟨l, hl⟩ := moves_trace (step_moves (e := e) (Aodv.Reachable.resting h) ev).1
  rw [since_eq hl.symm, mem_sent] at hm
  have hplain := (Kernel.Reachable.searches hrel (reachable_step h ev)).2.2
  have htrace : .nl m ∈ (step e s ev).trace := by
    rw [← hl]
    exact List.mem_append.2 (.inl hm)
  cases m with
  | addRoute | delRoute => exact hplain _ (List.mem_filter.2 ⟨htrace, rfl⟩)
  | noRouteFound => rfl

/-- What waits in the module after an event that the daemon has taken from state k. -/
theorem waits_daemon (hrel : Reliable e) (hnl : ∀ n, ke.nlmsgNew n = true)
    (hmem : ∀ n, ke.kmalloc n = true) {s : Daemon} (h : Reachable e s) {ev : Event}
    (hc : ∀ o ∈ (step e s ev).trace, keepsKernel o = true) {k : Kaodv a} {W : Addr → Prop}
    (hwaits : Waits (told s.trace) W k)
    (hW : ∀ x, W x → Sought s x ∨ Sought (step e s ev) x) {css : List (List HookCall)}
    (hroom : Roomy ke k (weave a css (sent (since s (step e s ev))))) :
    Waits (told (step e s ev).trace) (Sought (step e s ev))
      ((weave a css (sent (since s (step e s ev)))).foldl (turn ke) k) := by
  obtain ⟨htold, hsaid⟩ := sent_since h ev
  have hafter := hwaits.turns hnl hmem (sent_unmarked hrel h ev) hroom
  rw [← htold] at hafter
  apply hafter.weaken
  rintro x ⟨hx, hne⟩ hnone
  rcases hW x hx with hx | hx
  · rcases step_alive hrel h ev (.inl hx) with (hlive | ⟨n, hops, hheld⟩) | habout
    · exact hlive
    · have hnext := (told_held hrel (reachable_step h ev) hc x n).2 ⟨hops, hheld⟩
      rw [hnone] at hnext
      cases hnext
    · obtain ⟨m, hm, hd⟩ := hsaid x habout
      exact absurd hd.symm (hne m hm)
  · exact hx

theorem Waits.taken {next : Addr → Option Addr} {s : Daemon} {k k' : Kaodv a} {i : Input} {ev : Event}
    (h : Waits next (Sought s) k) (ht : taken k i = some (ev, k')) :
    ∃ W, Waits next W k' ∧ ∀ x, W x → Sought s x ∨ Sought (step e s ev) x := by
  cases i with
  | recv | age | fire =>
      obtain ⟨-, rfl⟩ := Prod.mk.inj (Option.some.inj ht)
      exact ⟨_, h, fun _ => .inl⟩
  | hear =>
      rw [Kernel.taken] at ht
      split at ht
      · cases ht
      next m rest hm =>
        obtain ⟨rfl, rfl⟩ := Prod.mk.inj (Option.some.inj ht)
        refine ⟨fun x => Sought s x ∨ Sought (step e s (.kernel (heard m))) x,
          ⟨h.carries.congr rfl, h.plain, h.clear, fun entry he => ?_⟩, fun _ => id⟩
        rcases h.asked entry he with hs | ⟨m', hm', hreq, hd⟩
        · exact .inl (.inl hs)
        · rw [hm] at hm'
          rcases List.mem_cons.1 hm' with rfl | hm'
          · left
            right
            rw [heard, hreq, hd]
            exact sought_routeReq s _
          · exact .inr ⟨m', hm', hreq, hd⟩

theorem waits_init (timeout : Int) :
    Waits (fun _ => none) W { (kaodvInit : Kaodv a) with activeRouteTimeout := timeout } :=
  ⟨carries_init.congr rfl, (fun _ _ hr => by cases hr), fun _ he => absurd he List.not_mem_nil,
    fun _ he => absurd he List.not_mem_nil⟩

theorem waits_together (hrel : Reliable e) (hnl : ∀ n, ke.nlmsgNew n = true)
    (hmem : ∀ n, ke.kmalloc n = true) (h : Together e ke y)
    (hc : ∀ o ∈ y.daemon.trace, keepsKernel o = true) :
    Waits (told y.daemon.trace) (Sought y.daemon) y.kernel := by
  induction h with
  | start ipaddr broadcast ifindex timeout => exact waits_init timeout
  | @step y hy h hroom ih =>
      cases h with
      | packet c =>
          have hone : Roomy ke y.kernel ([c].map HookCall.turn) := hroom
          exact (ih hc).packets hnl hone
      | daemon i during =>
          have hreach := daemon_reachable hy
          cases htaken : taken y.kernel i with
          | none =>
              simp only [happen, daemonAfter, turnsIn, htaken] at hc ⊢
              exact ih hc
          | some evk =>
              obtain ⟨ev, k⟩ := evk
              simp only [happen, daemonAfter, turnsIn, htaken] at hc hroom ⊢
              have hbefore := ih fun o ho =>
                hc o ((moves_trace (step_moves (Aodv.Reachable.resting hreach) ev).1).mem ho)
              obtain ⟨W, hwaits, hW⟩ := hbefore.taken htaken
              exact waits_daemon hrel hnl hmem hreach hc hwaits hW hroom

/-- If every update of the daemon meets the condition, then with no message to
the daemon on its way every packet that waits has a search with a pending timer. -/
theorem no_stranded_packets (hrel : Reliable e) (hnl : ∀ n, ke.nlmsgNew n = true)
    (hmem : ∀ n, ke.kmalloc n = true) (h : Together e ke y)
    (hc : ∀ o ∈ y.daemon.trace, keepsKernel o = true) (hempty : y.kernel.nlsock = [])
    (entry : QueueEntry) (hentry : entry ∈ y.kernel.queueList) :
    ∃ q ∈ y.daemon.sl, (y.daemon.seek q).destAddr = entry.rtInfo.daddr ∧
      .seekTimer q ∈ y.daemon.timers.tq := by
  rcases (waits_together hrel hnl hmem h hc).asked entry hentry with ⟨q, hq, hd⟩ | ⟨m, hm, _⟩
  · refine ⟨q, hq, hd, ?_⟩
    have hrun := (Kernel.Reachable.searches hrel (daemon_reachable h)).2.1 q hq
    rw [Pending, (Aodv.Reachable.resting (daemon_reachable h)).batch] at hrun
    simpa using hrun
  · rw [hempty] at hm
    exact absurd hm List.not_mem_nil

end Runs

def ping (d : Addr) : Happening := .packet ⟨true, true, .localOut, packetTo d, 2, 0⟩

def started : System .long32 :=
  ⟨init plain 0x0100000a 0xff00000a 2, { kaodvInit with activeRouteTimeout := 3000 }⟩

def searching : System .long32 :=
  happen plain wlan (happen plain wlan started (ping 0x0900000a)) (.daemon .hear [])

theorem together_searching : Together plain wlan searching := by
  refine .step (.step (.start 0x0100000a 0xff00000a 2 3000) (ping 0x0900000a) ?_) (.daemon .hear []) ?_
  · exact roomy_take (by decide +kernel)
  · exact roomy_take (by decide +kernel)

theorem no_stranded_packets_ping : ∃ entry ∈ searching.kernel.queueList,
    ∃ q ∈ searching.daemon.sl, (searching.daemon.seek q).destAddr = entry.rtInfo.daddr ∧
      .seekTimer q ∈ searching.daemon.timers.tq := by
  have hmem := List.getElem_mem (l := searching.kernel.queueList) (n := 0) (by decide +kernel)
  exact ⟨_, hmem, no_stranded_packets (fun _ => rfl) (fun _ => rfl) (fun _ => rfl)
    together_searching (by decide +kernel) (by decide +kernel) _ hmem⟩

def laterRreq : Packet :=
  .of (.rreq ⟨false, false, false, false, false, 1, 2, 0x0900000a, 0, 0x0200000a, 0⟩) 0x0300000a
    aodvBroadcast 5 (fits_rreq _)

def rediscovery : List Happening :=
  [.daemon (.recv Counter.nearHello) [], .daemon (.recv Counter.farRreq) [], ping 0x0200000a,
    .daemon .hear [],
    .daemon (.recv laterRreq) []]

def rediscovered : System .long32 := rediscovery.foldl (happen plain wlan) started

theorem together_rediscovered : Together plain wlan rediscovered := by
  refine .step (.step (.step (.step (.step (.start 0x0100000a 0xff00000a 2 3000) _ ?_) _ ?_) _ ?_)
    _ ?_) _ ?_
  all_goals exact roomy_take (by decide +kernel)

theorem packet_stranded : ¬ ∀ y : System .long32, Together plain wlan y → y.kernel.nlsock = [] →
    ∀ entry ∈ y.kernel.queueList,
      ∃ q ∈ y.daemon.sl, (y.daemon.seek q).destAddr = entry.rtInfo.daddr ∧
        .seekTimer q ∈ y.daemon.timers.tq := by
  intro hall
  have hmem := List.getElem_mem (l := rediscovered.kernel.queueList) (n := 0) (by decide +kernel)
  obtain ⟨q, hq, _⟩ := hall rediscovered together_rediscovered (by decide +kernel) _ hmem
  have hnone : rediscovered.daemon.sl = [] := by decide +kernel
  rw [hnone] at hq
  exact absurd hq List.not_mem_nil

end Aodv.Kernel
