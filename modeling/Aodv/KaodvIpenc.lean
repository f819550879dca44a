import Aodv.KaodvState

namespace Aodv

open Lib.Bytes

variable {a : Arch}

def ipprotoMipe : U8 := 55

def minIpencHdrSize : Nat := 8

def csumLoop (buf : Buf) : Nat → Nat → U32 → U32
  | _, 0, sum => sum
  | off, nshorts + 1, sum => csumLoop buf (off + 2) nshorts (sum + (loadLE16 buf off).setWidth 32)

/-- Two folds of the carries, then the complement. -/
def ipCsum (buf : Buf) (off nshorts : Nat) : U16 :=
  let sum := csumLoop buf off nshorts 0
  let sum := (sum >>> 16) + (sum &&& 0xffff)
  let sum := sum + (sum >>> 16)
  (~~~sum).setWidth 16

def opened (skb : Skb) : Buf := fun i =>
  if skb.headerLen + minIpencHdrSize ≤ i ∧ i < skb.len + minIpencHdrSize then
    skb.data (i - minIpencHdrSize)
  else skb.data i

def writeIpe (buf : Buf) (off : Nat) : Buf :=
  let ipe := store (store buf off (buf 9)) (off + 1) 0
  storeLE (storeLE16 ipe (off + 2) 0) (off + 4) (loadLE buf 16)

def writeIph (buf : Buf) (dest : Addr) : Buf :=
  let iph := store (storeLE buf 16 dest) 9 ipprotoMipe
  storeBE16 iph 2 (loadBE16 iph 2 + BitVec.ofNat 16 minIpencHdrSize)

/-- The new packet of ip_pkt_encapsulate. Only an identification that is still 0
is chosen anew. -/
def encapsulate (e : KEnv a) (tick : Nat) (ptr : Ptr) (skb : Skb) (dest : Addr) : Skb :=
  let off := skb.headerLen
  let buf := writeIph (writeIpe (opened skb) off) dest
  let buf := e.ipSendCheck (storeLE16 buf (off + 2) (ipCsum buf off 4))
  let buf := if loadBE16 buf 4 = 0 then storeBE16 buf 4 (e.ident tick) else buf
  ⟨ptr, true, skb.len + minIpencHdrSize, buf⟩

/-- Without memory for the copy the packet is gone. -/
def ipPktEncapsulate (e : KEnv a) (k : Kaodv a) (skb : Skb) (dest : Addr) :
    Kaodv a × Option Skb :=
  if e.skbCopyExpand k.tick then
    let nskb := encapsulate e k.tick k.brk skb dest
    ({ k.tock.observe (.encapsulated skb nskb) with brk := k.brk + 1 }, some nskb)
  else (k.tock.observe (.kfreeSkb skb), none)

/-- The bytes without the encapsulation header. The payload moves forward over
it and the last bytes stay where they are. -/
def closed (skb : Skb) : Buf := fun i =>
  if skb.headerLen ≤ i ∧ i < skb.len - minIpencHdrSize then skb.data (i + minIpencHdrSize)
  else skb.data i

def ipPktDecapsulate (e : KEnv a) (skb : Skb) : Skb :=
  let off := skb.headerLen
  let iph := store skb.data 9 (skb.data off)
  let skb := { skb with data := storeLE iph 16 (loadLE iph (off + 4)) }
  let buf := closed skb
  let buf := storeBE16 buf 2 (loadBE16 buf 2 - BitVec.ofNat 16 minIpencHdrSize)
  ⟨skb.ptr, true, skb.len - minIpencHdrSize, e.ipSendCheck buf⟩

end Aodv
