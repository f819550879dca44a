import Aodv.NetlinkBytes

namespace Aodv.Kernel

open Lib.Bytes PacketOwner

section Shifts

variable {a : Arch} {e : KEnv a} (l : List RtMsg) (p : Int) (k : Kaodv a)

def shifted (l : List RtMsg) (p : Int) (k : Kaodv a) : Kaodv a :=
  { k with nlsock := l ++ k.nlsock, peerPid := p }

@[simp] theorem expl_shifted : (shifted l p k).expl = k.expl := rfl
@[simp] theorem queueList_shifted : (shifted l p k).queueList = k.queueList := rfl
@[simp] theorem queueTotal_shifted : (shifted l p k).queueTotal = k.queueTotal := rfl
@[simp] theorem tick_shifted : (shifted l p k).tick = k.tick := rfl
@[simp] theorem timeout_shifted :
    (shifted l p k).activeRouteTimeout = k.activeRouteTimeout := rfl
@[simp] theorem tock_shifted : (shifted l p k).tock = shifted l p k.tock := rfl
@[simp] theorem observe_shifted (o : SkbEvent) :
    (shifted l p k).observe o = shifted l p (k.observe o) := rfl
@[simp] theorem explAdd_shifted (daddr nhop : Addr) (time : ULong a) (flags : U16) (ifindex : Int) :
    (shifted l p k).explAdd e daddr nhop time flags ifindex =
      (k.explAdd e daddr nhop time flags ifindex).map (shifted l p) id := rfl
@[simp] theorem explUpdate_shifted (daddr nhop : Addr) (time : ULong a) (flags : U16)
    (ifindex : Int) : (shifted l p k).explUpdate e daddr nhop time flags ifindex =
      (k.explUpdate e daddr nhop time flags ifindex).map (shifted l p) id := rfl

theorem broadcast_shifted (m : RtMsg) :
    netlinkBroadcast e (shifted l p k) m = shifted l p (netlinkBroadcast e k m) := by
  rw [netlinkBroadcast, netlinkBroadcast]
  by_cases hnew : e.nlmsgNew k.tick = true
  · refine (if_pos hnew).trans ?_
    rw [if_pos hnew]
    simp only [shifted, Kaodv.tock, List.append_assoc]
  · refine (if_neg hnew).trans ?_
    rw [if_neg hnew]
    rfl

theorem delqueue_shifted (cmp : Cmp) : kaodvQueueCheckDelqueueEntry (shifted l p k) cmp =
    (kaodvQueueCheckDelqueueEntry k cmp).map (shifted l p) id := by
  simp only [kaodvQueueCheckDelqueueEntry, Locked.kaodvQueueCheckDelqueueEntry,
    Locked.kaodvQueueCheckEntry, queueList_shifted]
  cases k.queueList.reverse.find? (matched cmp) with
  | none => rfl
  | some entry => rfl

theorem encapsulate_shifted (skb : Skb) (dest : Addr) :
    ipPktEncapsulate e (shifted l p k) skb dest =
    (ipPktEncapsulate e k skb dest).map (shifted l p) id := by
  rw [ipPktEncapsulate, ipPktEncapsulate]
  by_cases hcopy : e.skbCopyExpand k.tick = true
  · refine (if_pos hcopy).trans ?_
    rw [if_pos hcopy]
    rfl
  · refine (if_neg hcopy).trans ?_
    rw [if_neg hcopy]
    rfl

theorem sendEntry_shifted (d : Addr) (entry : QueueEntry) : sendEntry e d (shifted l p k) entry =
    (sendEntry e d k entry).map (shifted l p) id := by
  simp only [sendEntry, expl_shifted]
  cases kaodvExplGet k.expl d with
  | none => rfl
  | some r =>
      dsimp only
      split
      · rw [encapsulate_shifted]
        obtain ⟨k', o⟩ := ipPktEncapsulate e k entry.skb r.nhop
        cases o <;> rfl
      · rfl

theorem dropLoop_shifted (d : Addr) (n : Nat) (pkts : Int) : dropLoop d n (shifted l p k) pkts =
    (dropLoop d n k pkts).map (shifted l p) id := by
  induction n generalizing k pkts with
  | zero => rfl
  | succ n ih =>
      rw [dropLoop, dropLoop, delqueue_shifted]
      obtain ⟨k', o⟩ := kaodvQueueCheckDelqueueEntry k (some d)
      cases o with
      | none => rfl
      | some entry =>
          dsimp only [Prod.map, id]
          split
          · rw [observe_shifted, observe_shifted]
            exact ih _ _
          · rw [observe_shifted]
            exact ih _ _

theorem sendLoop_shifted (d : Addr) (n : Nat) (pkts : Int) :
    sendLoop e d n (shifted l p k) pkts = (sendLoop e d n k pkts).map (shifted l p) id := by
  induction n generalizing k pkts with
  | zero => rfl
  | succ n ih =>
      rw [sendLoop, sendLoop, delqueue_shifted]
      obtain ⟨k', o⟩ := kaodvQueueCheckDelqueueEntry k (some d)
      cases o with
      | none => rfl
      | some entry =>
          dsimp only [Prod.map, id]
          rw [sendEntry_shifted]
          exact ih _ _

theorem verdict_shifted (verdict : Int) (d : Addr) :
    kaodvQueueSetVerdict e (shifted l p k) verdict d =
      (kaodvQueueSetVerdict e k verdict d).map (shifted l p) id := by
  rw [kaodvQueueSetVerdict, kaodvQueueSetVerdict]
  split
  · exact dropLoop_shifted l p k d _ 0
  · split
    · exact sendLoop_shifted l p k d _ 0
    · rfl

theorem flush_shifted : kaodvQueueFlush (shifted l p k) = shifted l p (kaodvQueueFlush k) := by
  change Locked.queueFlushLoop k.queueList.length (shifted l p k) =
    shifted l p (Locked.queueFlushLoop k.queueList.length k)
  generalize k.queueList.length = n
  induction n generalizing k with
  | zero => rfl
  | succ n ih =>
      have hdel := delqueue_shifted l p k none
      rw [kaodvQueueCheckDelqueueEntry, kaodvQueueCheckDelqueueEntry] at hdel
      rw [Locked.queueFlushLoop, Locked.queueFlushLoop, hdel]
      obtain ⟨k', o⟩ := Locked.kaodvQueueCheckDelqueueEntry k none
      cases o with
      | none => rfl
      | some entry =>
          dsimp only [Prod.map, id]
          rw [observe_shifted]
          exact ih _

theorem enqueue_shifted (skb : Skb) (okfn : Okfn) :
    kaodvQueueEnqueuePacket e (shifted l p k) skb okfn =
      (kaodvQueueEnqueuePacket e k skb okfn).map (shifted l p) id := by
  rw [kaodvQueueEnqueuePacket, kaodvQueueEnqueuePacket]
  by_cases hmem : e.kmalloc k.tick = true
  · refine (if_pos hmem).trans ?_
    rw [if_pos hmem, Locked.kaodvQueueEnqueueEntry, Locked.kaodvQueueEnqueueEntry]
    by_cases hfull : queueMaxlen ≤ k.tock.queueTotal.toNat
    · refine (if_pos hfull).trans ?_
      rw [if_pos hfull]
      rfl
    · refine (if_neg hfull).trans ?_
      rw [if_neg hfull]
      rfl
  · refine (if_neg hmem).trans ?_
    rw [if_neg hmem]
    rfl

theorem refresh_shifted (addr : Addr) (dev : Int) :
    refresh e (shifted l p k) addr dev = shifted l p (refresh e k addr dev) := by
  simp only [refresh, expl_shifted, timeout_shifted, explUpdate_shifted, Prod.map]
  cases kaodvExplGet k.expl addr with
  | none => rfl
  | some r =>
      dsimp only
      split
      · generalize (k.explUpdate e r.daddr r.nhop _ r.flags dev).1 = k
        cases kaodvExplGet k.expl r.nhop <;> rfl
      · rfl

theorem timeouts_shifted (hooknum : Hooknum) (dev : Int) (skb : Skb) :
    kaodvUpdateRouteTimeouts e (shifted l p k) hooknum dev skb =
      shifted l p (kaodvUpdateRouteTimeouts e k hooknum dev skb) := by
  rw [kaodvUpdateRouteTimeouts, kaodvUpdateRouteTimeouts]
  cases ifInfoFromIfindex e dev with
  | none => rfl
  | some ifi =>
      dsimp only
      rw [← refresh_shifted, ← refresh_shifted]
      congr 2
      split
      · exact broadcast_shifted l p k _
      · split
        · exact broadcast_shifted l p k _
        · rfl

theorem preRouting_shifted (skb : Skb) (dev : Int) (ifi : IfInfo) (okfn : Okfn) :
    preRouting e (shifted l p k) skb dev ifi okfn =
      (preRouting e k skb dev ifi okfn).map (shifted l p) id := by
  rw [preRouting, preRouting, timeouts_shifted]
  dsimp only
  generalize kaodvUpdateRouteTimeouts e k .preRouting dev skb = k
  split
  · rfl
  · rw [expl_shifted]
    cases kaodvExplGet k.expl skb.daddr with
    | none => exact congrArg (·, Verdict.nfDrop) (broadcast_shifted l p k _)
    | some r =>
        dsimp only
        split
        · rw [kaodvNetlinkSendRtMsg, kaodvNetlinkSendRtMsg, broadcast_shifted, enqueue_shifted]
          rfl
        · rfl

theorem awaitRoute_shifted (skb : Skb) (okfn : Okfn) :
    awaitRoute e (shifted l p k) skb okfn = (awaitRoute e k skb okfn).map (shifted l p) id := by
  have hask : (if kaodvQueueCheck (shifted l p k) skb.daddr then shifted l p k
      else kaodvNetlinkSendRtMsg e (shifted l p k) .routeReq 0 skb.daddr) =
      shifted l p (if kaodvQueueCheck k skb.daddr then k
        else kaodvNetlinkSendRtMsg e k .routeReq 0 skb.daddr) := by
    by_cases hwait : kaodvQueueCheck k skb.daddr = true
    · refine (if_pos hwait).trans ?_
      rw [if_pos hwait]
    · refine (if_neg hwait).trans ?_
      rw [if_neg hwait]
      exact broadcast_shifted l p k _
  rw [awaitRoute, awaitRoute, hask, enqueue_shifted]
  rfl

theorem localOut_shifted (skb : Skb) (dev : Int) (okfn : Okfn) :
    localOut e (shifted l p k) skb dev okfn =
      (localOut e k skb dev okfn).map (shifted l p) id := by
  rw [localOut, localOut, expl_shifted]
  cases kaodvExplGet k.expl skb.daddr with
  | none => exact awaitRoute_shifted l p k skb okfn
  | some r =>
      dsimp only
      split
      · exact awaitRoute_shifted l p k skb okfn
      · split
        · rw [timeouts_shifted, encapsulate_shifted]
          obtain ⟨k', o⟩ := ipPktEncapsulate e (kaodvUpdateRouteTimeouts e k .localOut dev skb) skb
            r.nhop
          cases o <;> rfl
        · rfl

theorem hook_shifted (hooknum : Hooknum) (skb : Skb) (dev : Int) (okfn : Okfn) :
    kaodvHook e (shifted l p k) hooknum skb dev okfn =
      (kaodvHook e k hooknum skb dev okfn).map (shifted l p) id := by
  rw [kaodvHook, kaodvHook]
  split
  · rfl
  · split
    · split
      · exact congrArg (·, Verdict.nfAccept) (timeouts_shifted l p k _ _ _)
      · rfl
    · cases ifInfoFromIfindex e dev with
      | none => rfl
      | some ifi =>
          dsimp only
          split
          · rfl
          · cases hooknum with
            | preRouting => exact preRouting_shifted l p k skb dev ifi okfn
            | localOut => exact localOut_shifted l p k skb dev okfn
            | postRouting => exact congrArg (·, Verdict.nfAccept) (timeouts_shifted l p k _ _ _)

theorem peer_shifted (type : U8) (msg : Buf) (len : Nat) :
    kaodvNetlinkReceivePeer e (shifted l p k) type msg len =
      (kaodvNetlinkReceivePeer e k type msg len).map (shifted l p) id := by
  have hverdict (k : Kaodv a) (verdict : Int) (d : Addr) :=
    congrArg Prod.fst (verdict_shifted (e := e) l p k verdict d)
  have hadd (m : KaodvRtMsg a) :
      receiveAddroute e (shifted l p k) m = (receiveAddroute e k m).map (shifted l p) id := by
    rw [receiveAddroute, receiveAddroute, expl_shifted]
    cases kaodvExplGet k.expl m.dest with
    | none => exact Prod.ext (hverdict (k.explAdd e _ _ _ _ _).1 _ _) rfl
    | some r => exact Prod.ext (hverdict (k.explUpdate e _ _ _ _ _).1 _ _) rfl
  rw [kaodvNetlinkReceivePeer, kaodvNetlinkReceivePeer]
  split
  · split
    · rfl
    · exact hadd _
  · split
    · split
      · rfl
      · rw [receiveDelroute, receiveDelroute]
        exact Prod.ext (hverdict { k with expl := (kaodvExplDel k.expl _).1 } _ _) rfl
    · split
      · split
        · rfl
        · rw [verdict_shifted]
          rfl
      · split
        · split <;> rfl
        · rfl

theorem turn_shifted (t : Turn) : turn e (shifted l p k) t = shifted l p (turn e k t) := by
  cases t with
  | hook kmalloc copied hooknum skb dev okfn =>
      exact congrArg Prod.fst (hook_shifted l p k hooknum skb dev okfn)
  | netlink type msg len => exact congrArg Prod.fst (peer_shifted l p k type msg len)
  | flush => exact flush_shifted l p k
  | flushRoutes => rfl

end Shifts

/-- The module, and the datagrams in the daemon's socket, the oldest first. -/
structure Port (a : Arch) where
  kernel : Kaodv a
  inbox : List (List U8)

structure Wired (a : Arch) where
  daemon : Daemon
  port : Port a

/-- What reaches the module: a packet at a hook, or a request of the daemon in a
socket buffer with some bytes behind it. -/
inductive Arrival
  | packet (c : HookCall)
  | request (bytes : List U8) (slack : Buf)

section Links

variable {a : Arch} {e : Env} {ke : KEnv a} {ack : Int → List U8 → List U8} {pid : U32}

def emit (k : Kaodv a) (inbox : List (List U8)) : Port a :=
  ⟨{ k with nlsock := [] }, inbox ++ k.nlsock.map (posted a)⟩

/-- An acknowledgement comes behind the messages that a request has led to. -/
def arrive (ke : KEnv a) (ack : Int → List U8 → List U8) (q : Port a) : Arrival → Port a
  | .packet c => emit (turn ke q.kernel c.turn) q.inbox
  | .request bytes slack =>
      let (k, status) :=
        kaodvNetlinkRcvSkb ke q.kernel (BitVec.ofNat 32 bytes.length) (overlay bytes slack)
      let q := emit k q.inbox
      { q with inbox := q.inbox ++ (status.map (ack · bytes)).toList }

/-- The requests of one event, with the packets that come before each of them and
those after the last. -/
def arrivals : List (List HookCall) → List Arrival → List Arrival
  | [], rs => rs
  | cs :: _, [] => cs.map .packet
  | cs :: css, r :: rs => cs.map .packet ++ r :: arrivals css rs

/-- A message with some number, as the daemon sends it. -/
def Asks (a : Arch) (pid : U32) (m : NlMsg) (r : Arrival) : Prop :=
  ∃ seqno slack, r = .request (requestBytes a seqno pid m) slack

def read (inbox : List (List U8)) (stale : Buf) : Input → Option (Event × List (List U8))
  | .recv pkt => some (.recv pkt, inbox)
  | .age => some (.age, inbox)
  | .fire t => some (.fire t, inbox)
  | .hear =>
      match inbox with
      | [] => none
      | b :: rest => some (.kernel (kernelMsgOf (received b stale)), rest)

def Acknowledges (ack : Int → List U8 → List U8) : Prop :=
  ∀ status request stale, loadLE16 (received (ack status request) stale) 4 = nlmsgError

def booted (e : Env) (ipaddr broadcast : Addr) (ifindex : Int) : System a :=
  ⟨init e ipaddr broadcast ifindex,
    { kaodvInit with activeRouteTimeout := Aodv.activeRouteTimeout }⟩

/-- The runs of the two programs. The daemon sends its configuration first, and
netlink_ack answers each request in the way of ack. -/
inductive Wiring (e : Env) (ke : KEnv a) (ack : Int → List U8 → List U8) (pid : U32) :
    Wired a → Prop
  | start (ipaddr broadcast : Addr) (ifindex : Int) (seqno : U32) (stack slack : Buf) :
      Wiring e ke ack pid ⟨init e ipaddr broadcast ifindex,
        arrive ke ack ⟨kaodvInit, []⟩ (.request (confBytes a seqno pid stack) slack)⟩
  | packet {w : Wired a} (h : Wiring e ke ack pid w) (c : HookCall) :
      Wiring e ke ack pid ⟨w.daemon, arrive ke ack w.port (.packet c)⟩
  | daemon {w : Wired a} (h : Wiring e ke ack pid w) {i : Input} {stale : Buf} {ev : Event}
      {inbox : List (List U8)} (hread : read w.port.inbox stale i = some (ev, inbox))
      (during : List (List HookCall)) {rs : List Arrival}
      (hrs : List.Forall₂ (Asks a pid) (sent (since w.daemon (step e w.daemon ev))) rs) :
      Wiring e ke ack pid ⟨step e w.daemon ev,
        (arrivals during rs).foldl (arrive ke ack) ⟨w.port.kernel, inbox⟩⟩

inductive Mixed (a : Arch) (ack : Int → List U8 → List U8) : List (List U8) → List RtMsg → Prop
  | nil : Mixed a ack [] []
  | message (m : RtMsg) {bs : List (List U8)} {ms : List RtMsg} (h : Mixed a ack bs ms) :
      Mixed a ack (posted a m :: bs) (m :: ms)
  | ack (status : Int) (request : List U8) {bs : List (List U8)} {ms : List RtMsg}
      (h : Mixed a ack bs ms) : Mixed a ack (ack status request :: bs) ms

theorem Mixed.append {bs bs' : List (List U8)} {ms ms' : List RtMsg} (h : Mixed a ack bs ms)
    (h' : Mixed a ack bs' ms') : Mixed a ack (bs ++ bs') (ms ++ ms') := by
  induction h with
  | nil => exact h'
  | message m _ ih => exact .message m ih
  | ack status request _ ih => exact .ack status request ih

theorem mixed_posted (ms : List RtMsg) : Mixed a ack (ms.map (posted a)) ms := by
  induction ms with
  | nil => exact .nil
  | cons m ms ih => exact .message m ih

/-- The module is the one that keeps its messages, once the daemon is its peer. -/
structure Means (ack : Int → List U8 → List U8) (pid : U32) (q : Port a) (k : Kaodv a) : Prop where
  drained : q.kernel.nlsock = []
  peer : q.kernel.peerPid = pid.toInt
  same : k = shifted k.nlsock 0 q.kernel
  inbox : Mixed a ack q.inbox k.nlsock

theorem turn_peer {k : Kaodv a} (hp : k.peerPid = pid.toInt) (t : Turn) :
    (turn ke k t).peerPid = pid.toInt := by
  have hsame : shifted [] pid.toInt k = k := by
    rw [shifted, ← hp]
    rfl
  rw [← hsame, turn_shifted]
  rfl

namespace Means

variable {q : Port a} {k : Kaodv a}

theorem turn (h : Means ack pid q k) (t : Turn) :
    Means ack pid (emit (PacketOwner.turn ke q.kernel t) q.inbox) (PacketOwner.turn ke k t) := by
  have hturn : PacketOwner.turn ke k t = shifted k.nlsock 0 (PacketOwner.turn ke q.kernel t) := by
    rw [← turn_shifted, ← h.same]
  refine ⟨rfl, turn_peer h.peer t, ?_, ?_⟩
  · rw [hturn]
    simp only [shifted, emit, List.append_nil]
  · rw [hturn]
    exact h.inbox.append (mixed_posted _)

theorem packet (h : Means ack pid q k) (c : HookCall) :
    Means ack pid (arrive ke ack q (.packet c)) (PacketOwner.turn ke k c.turn) := h.turn c.turn

theorem packets (h : Means ack pid q k) (cs : List HookCall) :
    Means ack pid ((cs.map Arrival.packet).foldl (arrive ke ack) q)
      ((cs.map HookCall.turn).foldl (PacketOwner.turn ke) k) := by
  induction cs generalizing q k with
  | nil => exact h
  | cons c cs ih => exact ih (h.packet c)

theorem request (h : Means ack pid q k) (hpid : 0 < pid.toInt) {m : NlMsg} {r : Arrival}
    (hr : Asks a pid m r) :
    Means ack pid (arrive ke ack q r) (PacketOwner.turn ke k (nlSend a m)) := by
  obtain ⟨seqno, slack, rfl⟩ := hr
  obtain ⟨status, hrcv⟩ := rcv_request ke m seqno slack hpid (.inr h.peer)
  have hsame : { q.kernel with peerPid := pid.toInt } = q.kernel := by rw [← h.peer]
  rw [hsame] at hrcv
  have hafter : Means ack pid (emit (PacketOwner.turn ke q.kernel (nlSend a m)) q.inbox)
      (PacketOwner.turn ke k (nlSend a m)) := h.turn _
  rw [arrive, hrcv]
  refine ⟨hafter.drained, hafter.peer, hafter.same, ?_⟩
  have hmore := hafter.inbox.append (.ack status (requestBytes a seqno pid m) .nil)
  rwa [List.append_nil] at hmore

theorem arrivals (h : Means ack pid q k) (hpid : 0 < pid.toInt) {ms : List NlMsg}
    {rs : List Arrival}
    (hrs : List.Forall₂ (Asks a pid) ms rs) (during : List (List HookCall)) :
    Means ack pid ((Kernel.arrivals during rs).foldl (arrive ke ack) q)
      ((weave a during ms).foldl (PacketOwner.turn ke) k) := by
  induction hrs generalizing q k during with
  | nil =>
      cases during with
      | nil => exact h
      | cons cs css => exact h.packets cs
  | cons hr hrs ih =>
      cases during with
      | nil => exact ih (h.request hpid hr) []
      | cons cs css =>
          rw [Kernel.arrivals, weave, List.foldl_append, List.foldl_append]
          exact ih ((h.packets cs).request hpid hr) css

end Means

theorem Means.hear {q : Port a} {k : Kaodv a} (hack : Acknowledges ack) (h : Means ack pid q k)
    {stale : Buf} {ev : Event} {inbox : List (List U8)}
    (hread : read q.inbox stale .hear = some (ev, inbox)) :
    (ev = .kernel .other ∧ Means ack pid ⟨q.kernel, inbox⟩ k) ∨
      ∃ k', taken k .hear = some (ev, k') ∧ Means ack pid ⟨q.kernel, inbox⟩ k' := by
  obtain ⟨kernel, bs⟩ := q
  have hinbox := h.inbox
  generalize hms : k.nlsock = ms at hinbox
  cases hinbox with
  | nil => cases hread
  | message m hrest =>
      right
      rw [read, received_posted] at hread
      obtain ⟨rfl, rfl⟩ := Prod.mk.inj (Option.some.inj hread)
      refine ⟨{ k with nlsock := _ }, ?_, h.drained, h.peer, ?_, hrest⟩
      · rw [taken, hms]
      · have hsame := h.same
        have hnone : kernel.nlsock = [] := h.drained
        rw [hsame]
        simp [shifted, hnone]
  | ack status request hrest =>
      left
      rw [read, kernelMsgOf_error (hack status request stale)] at hread
      obtain ⟨rfl, rfl⟩ := Prod.mk.inj (Option.some.inj hread)
      refine ⟨rfl, h.drained, h.peer, h.same, ?_⟩
      rw [hms]
      exact hrest

theorem happen_packets (y : System a) (cs : List HookCall) :
    (cs.map Happening.packet).foldl (happen e ke) y =
      ⟨y.daemon, (cs.map HookCall.turn).foldl (turn ke) y.kernel⟩ := by
  induction cs generalizing y with
  | nil => rfl
  | cons c cs ih => exact ih (happen e ke y (.packet c))

/-- Every event of the daemon, with all that arrives during it, is one of the two
programs that pass messages, or only lets packets through. -/
theorem means_daemon (hack : Acknowledges ack) (hpid : 0 < pid.toInt) {w : Wired a} {y : System a}
    (hd : w.daemon = y.daemon) (h : Means ack pid w.port y.kernel) {i : Input} {stale : Buf}
    {ev : Event} {inbox : List (List U8)} (hread : read w.port.inbox stale i = some (ev, inbox))
    (during : List (List HookCall)) {rs : List Arrival}
    (hrs : List.Forall₂ (Asks a pid) (sent (since w.daemon (step e w.daemon ev))) rs) :
    ∃ hs : List Happening, step e w.daemon ev = (hs.foldl (happen e ke) y).daemon ∧
      Means ack pid ((arrivals during rs).foldl (arrive ke ack) ⟨w.port.kernel, inbox⟩)
        (hs.foldl (happen e ke) y).kernel := by
  have hone {k : Kaodv a} (ht : taken y.kernel i = some (ev, k))
      (hm : Means ack pid ⟨w.port.kernel, inbox⟩ k) :
      step e w.daemon ev = (happen e ke y (.daemon i during)).daemon ∧
        Means ack pid ((arrivals during rs).foldl (arrive ke ack) ⟨w.port.kernel, inbox⟩)
          (happen e ke y (.daemon i during)).kernel := by
    rw [hd] at hrs ⊢
    constructor
    · simp only [happen, daemonAfter, ht]
    · simp only [happen, turnsIn, ht]
      exact hm.arrivals hpid hrs during
  cases i with
  | recv | age | fire =>
      obtain ⟨rfl, rfl⟩ := Prod.mk.inj (Option.some.inj hread)
      exact ⟨[.daemon _ during], hone rfl h⟩
  | hear =>
      rcases h.hear hack hread with ⟨rfl, hm⟩ | ⟨k, ht, hm⟩
      · have hquiet : sent (since w.daemon (step e w.daemon (.kernel .other))) = [] := by
          change sent (since w.daemon w.daemon) = []
          rw [since_eq (List.nil_append _).symm]
          rfl
        rw [hquiet] at hrs
        cases hrs
        cases during with
        | nil => exact ⟨[], hd, hm⟩
        | cons cs css =>
            refine ⟨cs.map .packet, ?_⟩
            rw [happen_packets]
            exact ⟨hd, hm.packets cs⟩
      · exact ⟨[.daemon .hear during], hone ht hm⟩

/-- What the two programs do over bytes, with whatever numbers and remains the
datagrams carry and whatever acknowledgements come between them, is what they do
over messages. -/
theorem wired_refines (hack : Acknowledges ack) (hpid : 0 < pid.toInt) {w : Wired a}
    (h : Wiring e ke ack pid w) : ∃ ipaddr broadcast ifindex, ∃ hs : List Happening,
      w.daemon = (hs.foldl (happen e ke) (booted e ipaddr broadcast ifindex)).daemon ∧
        Means ack pid w.port
          (hs.foldl (happen e ke) (booted e ipaddr broadcast ifindex)).kernel := by
  induction h with
  | start ipaddr broadcast ifindex seqno stack slack =>
      refine ⟨ipaddr, broadcast, ifindex, [], rfl, ?_⟩
      rw [arrive, rcv_conf ke seqno stack slack hpid (.inl rfl)]
      exact ⟨rfl, rfl, rfl, .ack 0 _ .nil⟩
  | @packet w _ c ih =>
      obtain ⟨ipaddr, broadcast, ifindex, hs, hd, hm⟩ := ih
      refine ⟨ipaddr, broadcast, ifindex, hs ++ [.packet c], ?_⟩
      rw [List.foldl_append]
      exact ⟨hd, hm.packet c⟩
  | daemon _ hread during hrs ih =>
      obtain ⟨ipaddr, broadcast, ifindex, hs, hd, hm⟩ := ih
      obtain ⟨hs', hdone⟩ := means_daemon hack hpid hd hm hread during hrs
      refine ⟨ipaddr, broadcast, ifindex, hs ++ hs', ?_⟩
      rw [List.foldl_append]
      exact hdone

end Links

/-- struct nlmsgerr behind the header: the error and the header of the request. -/
def nlmsgerr (status : Int) (request : List U8) : List U8 :=
  take (nlmsg 36 nlmsgError 0 (storeLE zeroed 0 (BitVec.ofInt 32 status))) 20 ++ request.take 16

theorem acknowledges_nlmsgerr : Acknowledges nlmsgerr := by
  intro status request stale
  have hread (i : Nat) (hi : i < 20) : received (nlmsgerr status request) stale i =
      nlmsg 36 nlmsgError 0 (storeLE zeroed 0 (BitVec.ofInt 32 status)) i := by
    rw [received, nlmsgerr, List.take_append, overlay, List.getD_append]
    · exact overlay_take _ stale 20 i hi
    · simp only [List.length_take, take_length]
      exact hi
  rw [loadLE16_congr (hread 4 (by decide)) (hread 5 (by decide)), nlmsg_type]

def configured : Port .long32 :=
  arrive wlan nlmsgerr ⟨kaodvInit, []⟩ (.request (confBytes .long32 1 100 zeroed) zeroed)

def pinged : Port .long32 :=
  arrive wlan nlmsgerr configured (.packet ⟨true, true, .localOut, packetTo 0x0900000a, 2, 0⟩)

def booting : Daemon := init plain 0x0100000a 0xff00000a 2

def asked : Wired .long32 :=
  ⟨step plain booting (.kernel (.routeReq 0x0900000a)), ⟨pinged.kernel, []⟩⟩

theorem wiring_asked : Wiring plain wlan nlmsgerr 100 asked := by
  have hping : Wiring plain wlan nlmsgerr 100 ⟨booting, pinged⟩ :=
    .packet (.start 0x0100000a 0xff00000a 2 1 zeroed zeroed) _
  have hack : Wiring plain wlan nlmsgerr 100 ⟨booting, ⟨pinged.kernel, pinged.inbox.tail⟩⟩ := by
    refine @Wiring.daemon _ _ _ _ _ _ hping .hear zeroed (.kernel .other) _ rfl [] [] ?_
    exact .nil
  refine
    @Wiring.daemon _ _ _ _ _ _ hack .hear zeroed (.kernel (.routeReq 0x0900000a)) [] ?_ [] [] ?_
  · rfl
  · have hquiet :
        sent (since booting (step plain booting (.kernel (.routeReq 0x0900000a)))) = [] := by
      decide +kernel
    rw [hquiet]
    exact .nil

def requests (ms : List NlMsg) : List Arrival :=
  ms.map fun m => .request (requestBytes .long32 1 100 m) zeroed

theorem asks_requests (ms : List NlMsg) : List.Forall₂ (Asks .long32 100) ms (requests ms) := by
  rw [requests, List.forall₂_map_right_iff, List.forall₂_same]
  intro m _
  exact ⟨1, zeroed, rfl⟩

def routeOver (src : Addr) : Packet :=
  .of (.rrep ⟨false, false, 0, 1, 0x0900000a, 12, 0x0800000a, 6000⟩) src 0x0100000a 5 (fits_rrep _)

def afterEvent (w : Wired .long32) (ev : Event) : Wired .long32 :=
  let s := step plain w.daemon ev
  ⟨s, (arrivals [] (requests (sent (since w.daemon s)))).foldl (arrive wlan nlmsgerr)
    ⟨w.port.kernel, w.port.inbox⟩⟩

def taught : Wired .long32 := afterEvent asked (.recv (routeOver 0x0200000a))

theorem wiring_taught : Wiring plain wlan nlmsgerr 100 taught :=
  @Wiring.daemon _ _ _ _ _ _ wiring_asked (.recv _) zeroed _ _ rfl [] _ (asks_requests _)

def silenced : Wired .long32 := afterEvent taught (.fire (.rtTimer 1))

theorem wiring_silenced : Wiring plain wlan nlmsgerr 100 silenced :=
  @Wiring.daemon _ _ _ _ _ _ wiring_taught (.fire _) zeroed _ _ rfl [] _ (asks_requests _)

/-- The daemon has read the acknowledgement of its configuration and the request that a
packet has led to; it has told the module of two routes and taken back both. -/
theorem wired_refines_silenced : asked.daemon.sl.length = 1 ∧
    taught.port.kernel.expl.explHead.map (·.daddr) = [0x0200000a, 0x0900000a] ∧
    silenced.port.kernel.expl.explHead = [] ∧
    ∃ ipaddr broadcast ifindex, ∃ hs : List Happening,
      silenced.daemon =
        (hs.foldl (happen plain wlan) (booted plain ipaddr broadcast ifindex)).daemon ∧
      Means nlmsgerr 100 silenced.port
        (hs.foldl (happen plain wlan) (booted plain ipaddr broadcast ifindex)).kernel := by
  refine ⟨?_, ?_, ?_, wired_refines acknowledges_nlmsgerr ?_ wiring_silenced⟩
  · decide +kernel
  · decide +kernel
  · decide +kernel
  · decide

end Aodv.Kernel
