import Aodv.KaodvIpenc

namespace Aodv

open Lib.Bytes

variable {a : Arch}

def queueMaxlen : Nat := 1024

def kaodvQueueDrop : Int := 1
def kaodvQueueSend : Int := 2

def kaodvRtGwEncap : U16 := 1
def kaodvRtRepair : U16 := 2

/-- A comparison function and its data; none takes the first entry met. -/
abbrev Cmp := Option Addr

def destCmp (entry : QueueEntry) (daddr : Addr) : Bool := decide (daddr = entry.rtInfo.daddr)

def matched (cmp : Cmp) (entry : QueueEntry) : Bool :=
  match cmp with
  | none => true
  | some daddr => destCmp entry daddr

namespace Locked

def kaodvQueueEnqueueEntry (k : Kaodv a) (entry : QueueEntry) : Kaodv a × Int :=
  if queueMaxlen ≤ k.queueTotal.toNat then (k, -enospc)
  else ({ k with queueList := entry :: k.queueList, queueTotal := k.queueTotal + 1 }, 0)

/-- The search goes backwards, from the entry that came first. -/
def kaodvQueueCheckEntry (k : Kaodv a) (cmp : Cmp) : Option QueueEntry :=
  k.queueList.reverse.find? (matched cmp)

def kaodvQueueCheckDelqueueEntry (k : Kaodv a) (cmp : Cmp) : Kaodv a × Option QueueEntry :=
  match kaodvQueueCheckEntry k cmp with
  | none => (k, none)
  | some entry =>
      ({ k with
        queueList := (k.queueList.reverse.eraseP (matched cmp)).reverse
        queueTotal := k.queueTotal - 1 }, some entry)

/-- Every turn of the loop takes one entry off, so the queue's length bounds the turns. -/
def queueFlushLoop : Nat → Kaodv a → Kaodv a
  | 0, k => k
  | n + 1, k =>
      match kaodvQueueCheckDelqueueEntry k none with
      | (k, none) => k
      | (k, some entry) => queueFlushLoop n (k.observe (.kfreeSkb entry.skb))

def kaodvQueueFlush (k : Kaodv a) : Kaodv a := queueFlushLoop k.queueList.length k

end Locked

def kaodvQueueCheckDelqueueEntry (k : Kaodv a) (cmp : Cmp) : Kaodv a × Option QueueEntry :=
  Locked.kaodvQueueCheckDelqueueEntry k cmp

def kaodvQueueFlush (k : Kaodv a) : Kaodv a := Locked.kaodvQueueFlush k

def kaodvQueueEnqueuePacket (e : KEnv a) (k : Kaodv a) (skb : Skb) (okfn : Okfn) : Kaodv a × Int :=
  if e.kmalloc k.tick then
    Locked.kaodvQueueEnqueueEntry k.tock ⟨skb, okfn, ⟨skb.tos, skb.daddr, skb.saddr⟩⟩
  else (k.tock, -enomem)

def kaodvQueueCheck (k : Kaodv a) (daddr : Addr) : Bool :=
  (Locked.kaodvQueueCheckEntry k (some daddr)).isSome

/-- The packets counted by pkts are the ones freed; the first brings the ICMP message. -/
def dropLoop (daddr : Addr) : Nat → Kaodv a → Int → Kaodv a × Int
  | 0, k, pkts => (k, pkts)
  | n + 1, k, pkts =>
      match kaodvQueueCheckDelqueueEntry k (some daddr) with
      | (k, none) => (k, pkts)
      | (k, some entry) =>
          let k := if pkts = 0 then k.observe (.icmpSend entry.skb) else k
          dropLoop daddr n (k.observe (.kfreeSkb entry.skb)) (pkts + 1)

/-- One entry that has left the queue with a SEND verdict, and whether it counts.
The okfn takes the packet over; what the stack does with it comes after. -/
def sendEntry (e : KEnv a) (daddr : Addr) (k : Kaodv a) (entry : QueueEntry) : Kaodv a × Bool :=
  match kaodvExplGet k.expl daddr with
  | none => (k.observe (.kfreeSkb entry.skb), false)
  | some r =>
      if r.flags &&& kaodvRtGwEncap ≠ 0 then
        match ipPktEncapsulate e k entry.skb r.nhop with
        | (k, none) => (k, false)
        | (k, some skb) => (k.observe (.okfn entry.okfn skb), true)
      else (k.observe (.okfn entry.okfn entry.skb), true)

def sendLoop (e : KEnv a) (daddr : Addr) : Nat → Kaodv a → Int → Kaodv a × Int
  | 0, k, pkts => (k, pkts)
  | n + 1, k, pkts =>
      match kaodvQueueCheckDelqueueEntry k (some daddr) with
      | (k, none) => (k, pkts)
      | (k, some entry) =>
          let (k, sent) := sendEntry e daddr k entry
          sendLoop e daddr n k (if sent then pkts + 1 else pkts)

/-- Each turn of a loop takes an entry off the queue. -/
def kaodvQueueSetVerdict (e : KEnv a) (k : Kaodv a) (verdict : Int) (daddr : Addr) :
    Kaodv a × Int :=
  if verdict = kaodvQueueDrop then dropLoop daddr (k.queueList.length + 1) k 0
  else if verdict = kaodvQueueSend then sendLoop e daddr (k.queueList.length + 1) k 0
  else (k, 0)

end Aodv
