import Aodv.KaodvNetlink

namespace Aodv

open Lib.Bytes

variable {a : Arch}

def aodvPort : U16 := 654
def ipprotoUdp : U8 := 17
def inaddrBroadcast : Addr := 0xffffffff

def pktInbound : U8 := 1
def pktOutbound : U8 := 2

inductive Hooknum
  | preRouting | localOut | postRouting
deriving DecidableEq

inductive Verdict
  | nfDrop | nfAccept | nfStolen
deriving DecidableEq

def inMulticast (skb : Skb) : Bool :=
  decide (loadBE skb.data 16 &&& 0xf0000000 = 0xe0000000)

def ifInfoFromIfindex (e : KEnv a) (ifindex : Int) : Option IfInfo :=
  e.ifihead.find? (fun ifi => decide (ifi.ifindex = ifindex))

/-- The route to one of a packet's addresses and the one to its next hop are
made active for another active_route_timeout. -/
def refresh (e : KEnv a) (k : Kaodv a) (addr : Addr) (dev : Int) : Kaodv a :=
  match kaodvExplGet k.expl addr with
  | none => k
  | some r =>
      let time := BitVec.ofInt (bits a) k.activeRouteTimeout
      let k := (k.explUpdate e r.daddr r.nhop time r.flags dev).1
      if r.nhop ≠ r.daddr then
        match kaodvExplGet k.expl r.nhop with
        | none => k
        | some n => (k.explUpdate e n.daddr n.nhop time n.flags dev).1
      else k

def kaodvUpdateRouteTimeouts (e : KEnv a) (k : Kaodv a) (hooknum : Hooknum) (dev : Int)
    (skb : Skb) : Kaodv a :=
  match ifInfoFromIfindex e dev with
  | none => k
  | some ifi =>
      let k :=
        if hooknum = .preRouting then
          kaodvNetlinkSendRtUpdateMsg e k pktInbound skb.saddr skb.daddr dev
        else if skb.daddr ≠ inaddrBroadcast ∧ skb.daddr ≠ ifi.bcAddr then
          kaodvNetlinkSendRtUpdateMsg e k pktOutbound skb.saddr skb.daddr dev
        else k
      refresh e (refresh e k skb.daddr dev) skb.saddr dev

def preRouting (e : KEnv a) (k : Kaodv a) (skb : Skb) (dev : Int) (ifi : IfInfo) (okfn : Okfn) :
    Kaodv a × Verdict :=
  let k := kaodvUpdateRouteTimeouts e k .preRouting dev skb
  if skb.saddr = ifi.ifAddr ∨ skb.daddr = ifi.ifAddr then (k, .nfAccept)
  else
    match kaodvExplGet k.expl skb.daddr with
    | none => (kaodvNetlinkSendRerrMsg e k pktInbound skb.saddr skb.daddr dev, .nfDrop)
    | some r =>
        if r.flags &&& kaodvRtRepair ≠ 0 then
          let k := kaodvNetlinkSendRtMsg e k .repair skb.saddr skb.daddr
          ((kaodvQueueEnqueuePacket e k skb okfn).1, .nfStolen)
        else (k, .nfAccept)

/-- The packet waits for a route, which is asked for unless others wait already. -/
def awaitRoute (e : KEnv a) (k : Kaodv a) (skb : Skb) (okfn : Okfn) : Kaodv a × Verdict :=
  let k := if kaodvQueueCheck k skb.daddr then k
    else kaodvNetlinkSendRtMsg e k .routeReq 0 skb.daddr
  ((kaodvQueueEnqueuePacket e k skb okfn).1, .nfStolen)

/-- An encapsulated packet is a new one, but the caller goes on with its own. -/
def localOut (e : KEnv a) (k : Kaodv a) (skb : Skb) (dev : Int) (okfn : Okfn) :
    Kaodv a × Verdict :=
  match kaodvExplGet k.expl skb.daddr with
  | none => awaitRoute e k skb okfn
  | some r =>
      if r.flags &&& kaodvRtRepair ≠ 0 then awaitRoute e k skb okfn
      else if r.flags &&& kaodvRtGwEncap ≠ 0 then
        match ipPktEncapsulate e (kaodvUpdateRouteTimeouts e k .localOut dev skb) skb r.nhop with
        | (k, none) => (k, .nfStolen)
        | (k, some _) => (k, .nfAccept)
      else (k, .nfAccept)

def isAodv (skb : Skb) : Bool :=
  decide (skb.protocol = ipprotoUdp ∧ (skb.dest = aodvPort ∨ skb.source = aodvPort))

/-- The argument dev is the ifindex of the incoming device at PRE_ROUTING and of
the outgoing one at the other two hooks. -/
def kaodvHook (e : KEnv a) (k : Kaodv a) (hooknum : Hooknum) (skb : Skb) (dev : Int)
    (okfn : Okfn) : Kaodv a × Verdict :=
  if !skb.hasIph then (k, .nfAccept)
  else if isAodv skb then
    (if hooknum = .preRouting then kaodvUpdateRouteTimeouts e k hooknum dev skb else k, .nfAccept)
  else
    match ifInfoFromIfindex e dev with
    | none => (k, .nfAccept)
    | some ifi =>
        if skb.daddr = inaddrBroadcast ∨ inMulticast skb ∨ skb.daddr = ifi.bcAddr then
          (k, .nfAccept)
        else
          match hooknum with
          | .preRouting => preRouting e k skb dev ifi okfn
          | .localOut => localOut e k skb dev okfn
          | .postRouting => (kaodvUpdateRouteTimeouts e k .postRouting dev skb, .nfAccept)

end Aodv
