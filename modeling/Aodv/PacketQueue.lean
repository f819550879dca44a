import Aodv.KaodvQueue
import Aodv.Lib.Sequences

namespace Aodv.PacketQueue

open Lib.Bytes Lib.Sequences

variable {a : Arch}

/-- The queued entries in the order in which they came. -/
def arrivals (k : Kaodv a) : List QueueEntry := k.queueList.reverse

def queuedFor (k : Kaodv a) (d : Addr) : List QueueEntry := (arrivals k).filter (destCmp · d)

def othersThan (k : Kaodv a) (d : Addr) : List QueueEntry := (arrivals k).filter (!destCmp · d)

def withQueue (k : Kaodv a) (entries : List QueueEntry) (total : U32) : Kaodv a :=
  { k with queueList := entries.reverse, queueTotal := total }

@[simp] theorem arrivals_withQueue (k : Kaodv a) (entries : List QueueEntry) (total : U32) :
    arrivals (withQueue k entries total) = entries := List.reverse_reverse entries

theorem withQueue_self (k : Kaodv a) : withQueue k (arrivals k) k.queueTotal = k := by
  cases k with
  | mk => simp [withQueue, arrivals]

theorem delqueue_none {k : Kaodv a} {cmp : Cmp} (h : (arrivals k).filter (matched cmp) = []) :
    kaodvQueueCheckDelqueueEntry k cmp = (k, none) := by
  have hcheck : Locked.kaodvQueueCheckEntry k cmp = none := by
    rw [Locked.kaodvQueueCheckEntry, ← List.head?_filter]
    change ((arrivals k).filter (matched cmp)).head? = none
    rw [h]
    rfl
  rw [kaodvQueueCheckDelqueueEntry, Locked.kaodvQueueCheckDelqueueEntry, hcheck]

theorem delqueue_some {k : Kaodv a} {cmp : Cmp} {entry : QueueEntry} {rest : List QueueEntry}
    (h : (arrivals k).filter (matched cmp) = entry :: rest) :
    kaodvQueueCheckDelqueueEntry k cmp =
      (withQueue k ((arrivals k).eraseP (matched cmp)) (k.queueTotal - 1), some entry) := by
  have hcheck : Locked.kaodvQueueCheckEntry k cmp = some entry := find?_of_filter_cons _ h
  rw [kaodvQueueCheckDelqueueEntry, Locked.kaodvQueueCheckDelqueueEntry, hcheck]
  rfl

section

variable {k : Kaodv a} {d : Addr} {entry : QueueEntry} {rest : List QueueEntry}

theorem delqueue_noneFor (hq : queuedFor k d = []) :
    kaodvQueueCheckDelqueueEntry k (some d) = (k, none) :=
  delqueue_none hq

def taken (k : Kaodv a) (d : Addr) : Kaodv a :=
  withQueue k ((arrivals k).eraseP (destCmp · d)) (k.queueTotal - 1)

theorem queuedFor_taken (h : queuedFor k d = entry :: rest) : queuedFor (taken k d) d = rest := by
  rw [queuedFor, taken, arrivals_withQueue, filter_eraseP]
  exact congrArg List.tail h

theorem othersThan_taken : othersThan (taken k d) d = othersThan k d := by
  rw [othersThan, taken, arrivals_withQueue]
  exact filter_not_eraseP (destCmp · d) (arrivals k)

end

/-- The state when the n packets for d have left the queue and the events have
been seen, the oldest first. -/
def settled (k : Kaodv a) (d : Addr) (n : Nat) (events : List SkbEvent) : Kaodv a :=
  { withQueue k (othersThan k d) (k.queueTotal - BitVec.ofNat 32 n) with
    trace := events.reverse ++ k.trace }

theorem settled_none {k : Kaodv a} {d : Addr} (h : queuedFor k d = []) : settled k d 0 [] = k := by
  have hrest : othersThan k d = arrivals k := filter_not_of_filter_nil _ h
  rw [settled, hrest]
  simp [withQueue_self]

theorem settled_observe (k : Kaodv a) (d : Addr) (n : Nat) (o : SkbEvent)
    (events : List SkbEvent) :
    settled (k.observe o) d n events = settled k d n (o :: events) := by
  rw [settled, settled, List.reverse_cons, List.append_assoc]
  rfl

theorem settled_taken (k : Kaodv a) (d : Addr) (n : Nat) (events : List SkbEvent) :
    settled (taken k d) d n events = settled k d (n + 1) events := by
  have htotal : (taken k d).queueTotal - BitVec.ofNat 32 n =
      k.queueTotal - BitVec.ofNat 32 (n + 1) := by
    change k.queueTotal - 1 - BitVec.ofNat 32 n = _
    rw [BitVec.ofNat_add]
    grind
  rw [settled, settled, othersThan_taken, htotal]
  rfl

def freed (entry : QueueEntry) : SkbEvent := .kfreeSkb entry.skb

/-- What a DROP does to the packets, the oldest event first; pkts have gone before. -/
def dropped (pkts : Int) : List QueueEntry → List SkbEvent
  | [] => []
  | entry :: rest =>
      if pkts = 0 then .icmpSend entry.skb :: freed entry :: rest.map freed
      else freed entry :: rest.map freed

theorem dropped_ne {pkts : Int} (h : pkts ≠ 0) (entries : List QueueEntry) :
    dropped pkts entries = entries.map freed := by
  cases entries with
  | nil => rfl
  | cons entry rest => simp [dropped, h]

theorem dropLoop_eq (d : Addr) (entries : List QueueEntry) (n : Nat) (k : Kaodv a) (pkts : Int)
    (hq : queuedFor k d = entries) (hn : entries.length < n) (hp : 0 ≤ pkts) :
    dropLoop d n k pkts =
      (settled k d entries.length (dropped pkts entries), pkts + entries.length) := by
  induction entries generalizing n k pkts with
  | nil =>
      obtain ⟨n, rfl⟩ := Nat.exists_eq_succ_of_ne_zero (Nat.ne_of_gt hn)
      rw [dropLoop, delqueue_noneFor hq]
      simp [dropped, settled_none hq]
  | cons entry rest ih =>
      obtain ⟨n, rfl⟩ := Nat.exists_eq_succ_of_ne_zero (Nat.ne_of_gt (Nat.zero_lt_of_lt hn))
      have hdel : kaodvQueueCheckDelqueueEntry k (some d) = (taken k d, some entry) :=
        delqueue_some hq
      have hlen : rest.length < n := by simpa using hn
      have hcount : pkts + 1 + rest.length = pkts + (entry :: rest).length := by
        rw [List.length_cons]
        omega
      have hrest := queuedFor_taken hq
      rw [dropLoop, hdel]
      dsimp only
      by_cases h0 : pkts = 0
      · rw [if_pos h0, ih n (((taken k d).observe (.icmpSend entry.skb)).observe _) _ hrest hlen
          (by omega), settled_observe, settled_observe, settled_taken, dropped_ne (by omega),
          hcount, dropped, if_pos h0]
        rfl
      · rw [if_neg h0, ih n ((taken k d).observe _) _ hrest hlen (by omega), settled_observe,
          settled_taken, dropped_ne (by omega), hcount, dropped, if_neg h0]
        rfl

theorem queuedFor_length (k : Kaodv a) (d : Addr) :
    (queuedFor k d).length < k.queueList.length + 1 := by
  have hle := List.length_filter_le (destCmp · d) (arrivals k)
  rw [arrivals, List.length_reverse] at hle
  exact Nat.lt_succ_of_le hle

theorem setVerdict_drop (e : KEnv a) (k : Kaodv a) (d : Addr) :
    kaodvQueueSetVerdict e k kaodvQueueDrop d =
      (settled k d (queuedFor k d).length (dropped 0 (queuedFor k d)),
        ((queuedFor k d).length : Int)) := by
  rw [kaodvQueueSetVerdict, if_pos rfl,
    dropLoop_eq d _ _ k 0 rfl (queuedFor_length k d) (Int.le_refl 0), Int.zero_add]

def handed (entry : QueueEntry) : SkbEvent := .okfn entry.okfn entry.skb

theorem ipPktEncapsulate_queue (e : KEnv a) (k : Kaodv a) (skb : Skb) (dest : Addr) :
    (ipPktEncapsulate e k skb dest).1.queueList = k.queueList ∧
      (ipPktEncapsulate e k skb dest).1.queueTotal = k.queueTotal := by
  rw [ipPktEncapsulate]
  split
  · exact ⟨rfl, rfl⟩
  · exact ⟨rfl, rfl⟩

theorem sendEntry_queue (e : KEnv a) (d : Addr) (k : Kaodv a) (entry : QueueEntry) :
    (sendEntry e d k entry).1.queueList = k.queueList ∧
      (sendEntry e d k entry).1.queueTotal = k.queueTotal := by
  rw [sendEntry]
  split
  · exact ⟨rfl, rfl⟩
  next r hget =>
    split
    · have henc := ipPktEncapsulate_queue e k entry.skb r.nhop
      split
      next k' hk => rwa [hk] at henc
      next k' skb hk => rwa [hk] at henc
    · exact ⟨rfl, rfl⟩

theorem sendLoop_queue (e : KEnv a) (d : Addr) (entries : List QueueEntry) (n : Nat) (k : Kaodv a)
    (pkts : Int) (hq : queuedFor k d = entries) (hn : entries.length < n) :
    arrivals (sendLoop e d n k pkts).1 = othersThan k d ∧
      (sendLoop e d n k pkts).1.queueTotal = k.queueTotal - BitVec.ofNat 32 entries.length := by
  induction entries generalizing n k pkts with
  | nil =>
      obtain ⟨n, rfl⟩ := Nat.exists_eq_succ_of_ne_zero (Nat.ne_of_gt hn)
      have hrest : othersThan k d = arrivals k := filter_not_of_filter_nil _ hq
      rw [sendLoop, delqueue_noneFor hq, hrest]
      simp
  | cons entry rest ih =>
      obtain ⟨n, rfl⟩ := Nat.exists_eq_succ_of_ne_zero (Nat.ne_of_gt (Nat.zero_lt_of_lt hn))
      have hdel : kaodvQueueCheckDelqueueEntry k (some d) = (taken k d, some entry) :=
        delqueue_some hq
      have hlen : rest.length < n := by simpa using hn
      rw [sendLoop, hdel]
      dsimp only
      obtain ⟨hlist, htotal⟩ := sendEntry_queue e d (taken k d) entry
      generalize sendEntry e d (taken k d) entry = r at hlist htotal ⊢
      have harr : arrivals r.1 = arrivals (taken k d) := congrArg List.reverse hlist
      have hrest : queuedFor r.1 d = rest := by
        rw [queuedFor, harr]
        exact queuedFor_taken hq
      obtain ⟨hothers, hcount⟩ := ih n r.1 (if r.2 then pkts + 1 else pkts) hrest hlen
      constructor
      · rw [hothers, othersThan, harr]
        exact othersThan_taken
      · rw [hcount, htotal]
        exact congrArg Kaodv.queueTotal (settled_taken k d rest.length [])

theorem setVerdict_queue (e : KEnv a) (k : Kaodv a) {verdict : Int} (d : Addr)
    (hv : verdict = kaodvQueueDrop ∨ verdict = kaodvQueueSend) :
    arrivals (kaodvQueueSetVerdict e k verdict d).1 = othersThan k d ∧
      (kaodvQueueSetVerdict e k verdict d).1.queueTotal =
        k.queueTotal - BitVec.ofNat 32 (queuedFor k d).length := by
  rcases hv with rfl | rfl
  · rw [setVerdict_drop]
    exact ⟨List.reverse_reverse (othersThan k d), rfl⟩
  · have hne : kaodvQueueSend ≠ kaodvQueueDrop := by decide
    rw [kaodvQueueSetVerdict, if_neg hne, if_pos rfl]
    exact sendLoop_queue e d _ _ k 0 rfl (queuedFor_length k d)

theorem queueFlushLoop_eq (entries : List QueueEntry) (n : Nat) (k : Kaodv a)
    (hq : arrivals k = entries) (hn : entries.length ≤ n) :
    Locked.queueFlushLoop n k =
      { withQueue k [] (k.queueTotal - BitVec.ofNat 32 entries.length) with
        trace := (entries.map freed).reverse ++ k.trace } := by
  have hall (l : List QueueEntry) : l.filter (matched none) = l := by
    apply List.filter_eq_self.2
    exact fun _ _ => rfl
  induction entries generalizing n k with
  | nil =>
      have hself : withQueue k [] k.queueTotal = k := by
        rw [← hq]
        exact withQueue_self k
      have hdel : Locked.kaodvQueueCheckDelqueueEntry k none = (k, none) :=
        delqueue_none (by rw [hall, hq])
      cases n with
      | zero => simp [Locked.queueFlushLoop, hself]
      | succ n => simp [Locked.queueFlushLoop, hdel, hself]
  | cons entry rest ih =>
      obtain ⟨n, rfl⟩ := Nat.exists_eq_succ_of_ne_zero (Nat.ne_of_gt (Nat.lt_of_lt_of_le (by simp) hn))
      have hdel : Locked.kaodvQueueCheckDelqueueEntry k none =
          (withQueue k ((arrivals k).eraseP (matched none)) (k.queueTotal - 1), some entry) :=
        delqueue_some (by rw [hall, hq])
      have herase : (arrivals k).eraseP (matched none) = rest := by
        rw [hq]
        exact List.eraseP_cons_of_pos rfl
      rw [herase] at hdel
      have hlen : rest.length ≤ n := by simpa using hn
      rw [Locked.queueFlushLoop, hdel]
      dsimp only
      rw [ih n ((withQueue k rest (k.queueTotal - 1)).observe _) (List.reverse_reverse rest) hlen]
      have htotal : k.queueTotal - 1 - BitVec.ofNat 32 rest.length =
          k.queueTotal - BitVec.ofNat 32 (entry :: rest).length := by
        rw [List.length_cons, BitVec.ofNat_add]
        grind
      simp only [List.map_cons, List.reverse_cons, List.append_assoc, ← htotal]
      rfl

theorem flush_eq (k : Kaodv a) : kaodvQueueFlush k =
    { withQueue k [] (k.queueTotal - BitVec.ofNat 32 k.queueList.length) with
      trace := ((arrivals k).map freed).reverse ++ k.trace } := by
  have hlen : (arrivals k).length = k.queueList.length := List.length_reverse
  rw [← hlen]
  exact queueFlushLoop_eq (arrivals k) _ k rfl (Nat.le_of_eq hlen)

structure Framed (k k' : Kaodv a) : Prop where
  expl : k'.expl = k.expl
  nlsock : k'.nlsock = k.nlsock
  activeRouteTimeout : k'.activeRouteTimeout = k.activeRouteTimeout

theorem Framed.refl (k : Kaodv a) : Framed k k := ⟨rfl, rfl, rfl⟩

theorem Framed.trans {k k' k'' : Kaodv a} (h : Framed k k') (h' : Framed k' k'') : Framed k k'' :=
  ⟨h'.expl.trans h.expl, h'.nlsock.trans h.nlsock,
    h'.activeRouteTimeout.trans h.activeRouteTimeout⟩

theorem framed_delqueue (k : Kaodv a) (cmp : Cmp) :
    Framed k (kaodvQueueCheckDelqueueEntry k cmp).1 := by
  rw [kaodvQueueCheckDelqueueEntry, Aodv.Locked.kaodvQueueCheckDelqueueEntry]
  split
  · exact .refl k
  · exact ⟨rfl, rfl, rfl⟩

theorem framed_sendEntry (e : KEnv a) (d : Addr) (k : Kaodv a) (entry : QueueEntry) :
    Framed k (sendEntry e d k entry).1 := by
  rw [sendEntry]
  split
  · exact ⟨rfl, rfl, rfl⟩
  next r hget =>
    split
    · have henc : Framed k (ipPktEncapsulate e k entry.skb r.nhop).1 := by
        rw [ipPktEncapsulate]
        split
        · exact ⟨rfl, rfl, rfl⟩
        · exact ⟨rfl, rfl, rfl⟩
      split
      next k' hk => rwa [hk] at henc
      next k' skb hk =>
        rw [hk] at henc
        exact ⟨henc.expl, henc.nlsock, henc.activeRouteTimeout⟩
    · exact ⟨rfl, rfl, rfl⟩

theorem framed_dropLoop (d : Addr) (n : Nat) (k : Kaodv a) (pkts : Int) :
    Framed k (dropLoop d n k pkts).1 := by
  induction n generalizing k pkts with
  | zero => exact .refl k
  | succ n ih =>
      have hdel := framed_delqueue k (some d)
      rw [dropLoop]
      split
      next k' hk => rwa [hk] at hdel
      next k' entry hk =>
        rw [hk] at hdel
        have hseen (o : SkbEvent) (k : Kaodv a) : Framed k (k.observe o) := ⟨rfl, rfl, rfl⟩
        dsimp only
        split
        · exact ((hdel.trans (hseen _ k')).trans (hseen _ _)).trans (ih _ _)
        · exact (hdel.trans (hseen _ k')).trans (ih _ _)

theorem framed_sendLoop (e : KEnv a) (d : Addr) (n : Nat) (k : Kaodv a) (pkts : Int) :
    Framed k (sendLoop e d n k pkts).1 := by
  induction n generalizing k pkts with
  | zero => exact .refl k
  | succ n ih =>
      have hdel := framed_delqueue k (some d)
      rw [sendLoop]
      split
      next k' hk => rwa [hk] at hdel
      next k' entry hk =>
        rw [hk] at hdel
        exact (hdel.trans (framed_sendEntry e d k' entry)).trans (ih _ _)

theorem framed_setVerdict (e : KEnv a) (k : Kaodv a) (verdict : Int) (d : Addr) :
    Framed k (kaodvQueueSetVerdict e k verdict d).1 := by
  rw [kaodvQueueSetVerdict]
  split
  · exact framed_dropLoop d _ k 0
  · split
    · exact framed_sendLoop e d _ k 0
    · exact .refl k

theorem framed_flush (k : Kaodv a) : Framed k (kaodvQueueFlush k) := by
  rw [flush_eq]
  exact ⟨rfl, rfl, rfl⟩

theorem framed_enqueue (e : KEnv a) (k : Kaodv a) (skb : Skb) (okfn : Okfn) :
    Framed k (kaodvQueueEnqueuePacket e k skb okfn).1 := by
  rw [kaodvQueueEnqueuePacket]
  split
  · rw [Aodv.Locked.kaodvQueueEnqueueEntry]
    split
    · exact ⟨rfl, rfl, rfl⟩
    · exact ⟨rfl, rfl, rfl⟩
  · exact ⟨rfl, rfl, rfl⟩

/-- The calls on the queue. The route list can be any other one from one call to
the next. -/
inductive Call (a : Arch)
  | enqueue (kmalloc : Bool) (skb : Skb) (okfn : Okfn)
  | check (daddr : Addr)
  | verdict (verdict : Int) (daddr : Addr)
  | flush
  | routes (x : Expl a)

def call (e : KEnv a) (k : Kaodv a) : Call a → Kaodv a
  | .enqueue kmalloc skb okfn =>
      (kaodvQueueEnqueuePacket { e with kmalloc := fun _ => kmalloc } k skb okfn).1
  | .check _ => k
  | .verdict verdict daddr => (kaodvQueueSetVerdict e k verdict daddr).1
  | .flush => kaodvQueueFlush k
  | .routes x => { k with expl := x }

def calls (e : KEnv a) (cs : List (Call a)) : Kaodv a := cs.foldl (call e) kaodvInit

def entryOf (skb : Skb) (okfn : Okfn) : QueueEntry := ⟨skb, okfn, ⟨skb.tos, skb.daddr, skb.saddr⟩⟩

end Aodv.PacketQueue
