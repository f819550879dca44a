import Aodv.Lib.Chains
import Aodv.Reboot
import Aodv.Relays

namespace Aodv.Mesh

open Lib.Bytes Requests Lib.Chains
open Relation

/-- Nodes that all run the daemon, each with its own configuration and system. -/
structure Network (ι : Type) where
  addr : ι → Addr
  distinct : Function.Injective addr
  broadcast : ι → Addr
  ifindex : ι → Int
  env : ι → Env

section Networks

variable {ι : Type}

/-- The datagram is one that some node has sent, to everyone or to node i. It is
cut to the size of the buffer, and what stands behind it there is left open. -/
inductive Carried (N : Network ι) (σ : ι → Daemon) (i : ι) (pkt : Packet) : Prop
  | of {j : ι} {msg : Msg} {len ttl : Int} {bytes : List U8}
      (hsent : .socketSend msg pkt.dest len ttl (some bytes) ∈ (σ j).trace)
      (hsrc : pkt.src = N.addr j) (hdest : pkt.dest = aodvBroadcast ∨ pkt.dest = N.addr i)
      (hlen : pkt.len = min bytes.length receBufSize)
      (hbuf : ReceivedBytes.Received (bytes.take receBufSize) pkt.buf)
      (httl : pkt.ttl = some (BitVec.ofInt 8 ttl))

/-- The states of the network. Any node may take the next step. A datagram may
reach a node at any time after it was sent, any number of times, or never. -/
inductive Reached [DecidableEq ι] (N : Network ι) : (ι → Daemon) → Prop
  | start : Reached N fun i => init (N.env i) (N.addr i) (N.broadcast i) (N.ifindex i)
  | step {σ : ι → Daemon} (h : Reached N σ) (i : ι) {ev : Event}
      (hev : ∀ pkt, ev = .recv pkt → Carried N σ i pkt) :
      Reached N (Function.update σ i (step (N.env i) (σ i) ev))

/-- The next hop of a VALID route for d at node i is node j. -/
def Hop (N : Network ι) (σ : ι → Daemon) (d : Addr) (i j : ι) : Prop :=
  ∃ p, Linked (σ i).rtTbl p ∧ ((σ i).rt p).state = .valid ∧ ((σ i).rt p).destAddr = d ∧
    ((σ i).rt p).nextHop = N.addr j

def betterAt (N : Network ι) (σ : ι → Daemon) (c d : Addr) (x : Int) : Prop :=
  ∃ j, N.addr j = c ∧ ∃ y ∈ known d (σ j).trace, x < y

structure Loyal (N : Network ι) (σ : ι → Daemon) (i : ι) : Prop where
  strangers : Strangers (N.addr i) (σ i)
  honest : ∀ o ∈ (σ i).trace, Honest (N.addr i) (fun d x => x ∈ known d (σ i).trace) o
  ranked : Ranked (betterAt N σ) (σ i)

variable {N : Network ι} {σ : ι → Daemon} {i : ι} {ev : Event} {pkt : Packet}

theorem Loyal.obeys (h : Loyal N σ i) : ∀ o ∈ (σ i).trace, obeys o = true :=
  fun o ho => (h.honest o ho).obeys

theorem carried_backs (h : ∀ j, Loyal N σ j) (hpkt : Carried N σ i pkt) :
    ∃ j ttl, pkt.src = N.addr j ∧ pkt.ttl = some ttl ∧
      Backs (N.addr j) (fun d x => x ∈ known d (σ j).trace) ttl pkt.buf := by
  cases hpkt with
  | @of j msg len ttl bytes hsent hsrc hdest hlen hbuf httl =>
      exact ⟨j, _, hsrc, httl, (h j).honest _ hsent pkt.buf hbuf⟩

theorem backs_type {own : Addr} {K : Addr → Int → Prop} {ttl : U8} {b : Buf}
    (h : Backs own K ttl b) : b 0 ≠ aodvHello ∧ b 0 ≠ aodvRrep := by
  cases h with
  | rerr ht | rreq ht =>
      rw [ht]
      decide

theorem carried_not_hello (h : ∀ j, Loyal N σ j) (hpkt : Carried N σ i pkt) : isHello pkt = false := by
  obtain ⟨j, ttl, -, -, hback⟩ := carried_backs h hpkt
  obtain ⟨hhello, hrrep⟩ := backs_type hback
  apply decide_eq_false
  rintro (ht | ⟨ht, -⟩)
  · exact hhello ht
  · exact hrrep ht

/-- The routes a datagram teaches lead over its sender, which knows better ones. -/
theorem carried_backed (h : ∀ j, Loyal N σ j)
    (hev : ∀ pkt, ev = .recv pkt → Carried N σ i pkt) : Backed (betterAt N σ) ev := by
  intro own old src dest next hops seqno lifetime hl
  have hone : (1 : U32).toNat = 1 := rfl
  cases hl with
  | neighbor hrecv hne =>
      refine ⟨?_, .inl rfl⟩
      rw [hone]
      decide
  | @rreq pkt hrecv ht hne =>
      obtain ⟨j, ttl, hsrc, -, hback⟩ := carried_backs h (hev pkt hrecv)
      cases hback with
      | rerr ht' hn =>
          rw [ht] at ht'
          exact absurd ht' (by decide)
      | rreq ht' hops hle hk =>
          constructor
          · rw [BitVec.toNat_add, hone, BitVec.toNat_setWidth, Nat.mod_eq_of_lt (by omega),
              Nat.mod_eq_of_lt (by omega)]
            omega
          · rcases hk with hown | ⟨y, hy, hle⟩
            · exact .inl (hsrc.trans hown.symm)
            · refine .inr ⟨j, hsrc.symm, y, hy, Int.lt_of_lt_of_le ?_ hle⟩
              have hbyte : (1 : U8).toNat = 1 := rfl
              have hnext : ((rreqOf pkt.buf).hopcnt + 1).toNat = (rreqOf pkt.buf).hopcnt.toNat + 1 := by
                rw [BitVec.toNat_add, hbyte, Nat.mod_eq_of_lt (by omega)]
              rw [hops_byte, rank, rank, hnext]
              omega
  | @rrep pkt hrecv ht hlen hne =>
      obtain ⟨j, ttl, -, -, hback⟩ := carried_backs h (hev pkt hrecv)
      exact absurd ht (backs_type hback).2
  | @hello pkt hrecv ht =>
      rw [carried_not_hello h (hev pkt hrecv)] at ht
      cases ht

theorem carried_spares (h : ∀ j, Loyal N σ j) (hev : ∀ pkt, ev = .recv pkt → Carried N σ i pkt)
    (own : Addr) : sparesSelf own ev = true := by
  cases ev with
  | recv pkt =>
      rw [sparesSelf, carried_not_hello h (hev pkt rfl), Bool.and_false, Bool.false_and]
      rfl
  | kernel | age | fire => rfl

theorem betterAt_mono {σ' : ι → Daemon} (h : ∀ j, (σ j).trace <:+ (σ' j).trace) {c d : Addr} {x : Int}
    (hb : betterAt N σ c d x) : betterAt N σ' c d x := by
  obtain ⟨j, hj, y, hy, hlt⟩ := hb
  exact ⟨j, hj, y, known_mono (h j) hy, hlt⟩

theorem Loyal.mono {σ' : ι → Daemon} (h : Loyal N σ i) (hi : σ' i = σ i)
    (hgrow : ∀ j, (σ j).trace <:+ (σ' j).trace) : Loyal N σ' i := by
  constructor
  · rw [hi]
    exact h.strangers
  · rw [hi]
    exact h.honest
  · rw [hi]
    exact fun p hp => (h.ranked p hp).mono fun c d x => betterAt_mono hgrow

theorem loyal_self (h : ∀ j, Loyal N σ j) (hrest : Resting (σ i)) (hw : (σ i).waitOnReboot ≠ 0)
    (hev : ∀ pkt, ev = .recv pkt → Carried N σ i pkt)
    (hc : Rising (step (N.env i) (σ i) ev).trace) {σ' : ι → Daemon}
    (hi : σ' i = step (N.env i) (σ i) ev) (hgrow : ∀ j, (σ j).trace <:+ (σ' j).trace) :
    Loyal N σ' i := by
  have hback := carried_backed h hev
  have htrust : Trusted (σ i).host.ipaddr ev := by
    intro pkt hrecv _
    obtain ⟨j, ttl, -, httl, hsent⟩ := carried_backs h (hev pkt hrecv)
    exact ⟨_, _, ttl, httl, hsent⟩
  have hstrangers : Strangers (σ i).host.ipaddr (σ i) := by
    rw [(h i).strangers.ipaddr]
    exact (h i).strangers
  have hsaid := step_honest hrest hstrangers hw htrust (h i).ranked hback (h i).obeys hc
  rw [(h i).strangers.ipaddr] at hsaid
  have hhonest := hsaid.forall_mem (fun o ho => ((h i).honest o ho).mono fun d x hx =>
    known_mono hsaid.suffix hx) fun o _ ho => ho
  have hranked := (h i).ranked.step hrest hback hc fun o ho => (hhonest o ho).obeys
  constructor
  · rw [hi]
    exact (h i).strangers.step hrest (carried_spares h hev _)
  · rw [hi]
    exact hhonest
  · rw [hi]
    exact fun p hp => (hranked p hp).mono fun c d x => betterAt_mono hgrow

theorem loyal_start (N : Network ι) (i : ι) :
    Loyal N (fun i => init (N.env i) (N.addr i) (N.broadcast i) (N.ifindex i)) i where
  strangers := ⟨rfl, fun _ ⟨_, hp⟩ => absurd hp List.not_mem_nil⟩
  honest := fun _ ho => absurd ho List.not_mem_nil
  ranked := fun _ ⟨_, hp⟩ => absurd hp List.not_mem_nil

variable [DecidableEq ι]

theorem daemons (h : Reached N σ) (k : ι) : Aodv.Reachable (N.env k) (σ k) := by
  induction h with
  | start => exact ⟨N.addr k, N.broadcast k, N.ifindex k, [], rfl⟩
  | @step σ h i ev hev ih =>
      by_cases hk : k = i
      · subst k
        rw [Function.update_self]
        obtain ⟨ipaddr, broadcast, ifindex, es, heq⟩ := ih
        refine ⟨ipaddr, broadcast, ifindex, es ++ [ev], ?_⟩
        rw [run, List.foldl_append, heq]
        rfl
      · rw [Function.update_of_ne hk]
        exact ih

theorem trace_grows (hrest : Resting (σ i)) (ev : Event) (j : ι) :
    (σ j).trace <:+ (Function.update σ i (step (N.env i) (σ i) ev) j).trace := by
  by_cases hj : j = i
  · subst j
    rw [Function.update_self]
    exact moves_trace (step_moves hrest ev).1
  · rw [Function.update_of_ne hj]

/-- The histories up to a state are parts of all later ones. -/
theorem loyal_of_reached (h : Reached N σ) (hc : ∀ j, Rising (σ j).trace) : ∀ j, Loyal N σ j := by
  induction h with
  | start => exact loyal_start N
  | @step σ h i ev hev ih =>
      have hrest := Aodv.Reachable.resting (daemons h i)
      have hgrow := trace_grows (N := N) hrest ev
      have hold := ih fun j => (hc j).suffix (hgrow j)
      have hw : (σ i).waitOnReboot ≠ 0 := by
        rw [(Reboot.reboot_reachable (daemons h i)).1]
        decide
      have hself : Function.update σ i (step (N.env i) (σ i) ev) i = step (N.env i) (σ i) ev :=
        Function.update_self i _ σ
      have hrising := hc i
      rw [hself] at hrising
      intro j
      by_cases hj : j = i
      · subst j
        exact loyal_self hold hrest hw hev hrising hself hgrow
      · exact (hold j).mono (Function.update_of_ne hj _ _) hgrow

def rankAt (s : Daemon) (d : Addr) : Int :=
  match s.linked.find? fun p => decide ((s.rt p).destAddr = d) with
  | none => 0
  | some p => rankOf (s.rt p)

theorem rankAt_eq {s : Daemon} (hs : WellFormed s) {p : Ptr} (hp : Linked s.rtTbl p) :
    rankAt s (s.rt p).destAddr = rankOf (s.rt p) := by
  rw [rankAt]
  cases hf : s.linked.find? fun q => decide ((s.rt q).destAddr = (s.rt p).destAddr) with
  | none =>
      have hno := List.find?_eq_none.1 hf p ((mem_entries _ p).2 hp)
      simp at hno
  | some q =>
      have hq := (mem_entries _ q).1 (List.mem_of_find?_eq_some hf)
      have hdest := List.find?_some hf
      rw [hs.table.dests q p hq hp (of_decide_eq_true hdest)]

omit [DecidableEq ι] in
theorem hop_foreign (h : Loyal N σ i) {d : Addr} {j : ι} (hij : Hop N σ d i j) : N.addr i ≠ d := by
  obtain ⟨p, hp, -, hdest, -⟩ := hij
  rintro rfl
  exact h.strangers.dests p hp hdest

theorem hop_rises (h : Reached N σ) (hc : ∀ j, Rising (σ j).trace) {d : Addr} {i j k : ι}
    (hij : Onward (Hop N σ d) i j) (hjk : Onward (Hop N σ d) j k) :
    rankAt (σ i) d < rankAt (σ j) d := by
  have hloyal := loyal_of_reached h hc
  obtain ⟨l, hkl⟩ := hjk.2
  have hj := hop_foreign (hloyal j) hjk.1
  have hk := hop_foreign (hloyal k) hkl
  obtain ⟨p, hp, hpv, hpd, hpn⟩ := hij.1
  obtain ⟨q, hq, hqv, hqd, hqn⟩ := hjk.1
  have hi : rankAt (σ i) d = rankOf ((σ i).rt p) := by
    rw [← hpd]
    exact rankAt_eq (Aodv.Reachable.resting (daemons h i)).wellFormed hp
  have hj' : rankAt (σ j) d = rankOf ((σ j).rt q) := by
    rw [← hqd]
    exact rankAt_eq (Aodv.Reachable.resting (daemons h j)).wellFormed hq
  have hpon : ((σ i).rt p).nextHop ≠ ((σ i).rt p).destAddr := by
    rw [hpn, hpd]
    exact hj
  have hqon : ((σ j).rt q).nextHop ≠ ((σ j).rt q).destAddr := by
    rw [hqn, hqd]
    exact hk
  -- what node j has known is no better than the route it has now
  obtain ⟨j', haddr, y, hy, hlt⟩ := ((hloyal i).ranked p hp).via hpv hpon
  obtain rfl : j' = j := N.distinct (haddr.trans hpn)
  have htop := ((hloyal j').ranked q hq).top hqv hqon
  rw [hpd] at hy
  rw [hqd] at htop
  rw [hi, hj']
  exact Int.lt_of_lt_of_le hlt (htop y hy)

/-- As long as no node stores a route over another node that is worse than what
it has known of the destination, no route leads back to where it started. -/
theorem loop_free (h : Reached N σ) (hc : ∀ j, Rising (σ j).trace) (d : Addr) (i : ι) :
    ¬ TransGen (Hop N σ d) i i :=
  acyclic (fun _ _ _ hab hbc => hop_rises h hc hab hbc) i

end Networks

def trioAddr (i : Fin 3) : Addr := 0x0100000a + BitVec.ofNat 32 i * 0x01000000

theorem trioAddr_distinct : Function.Injective trioAddr := by
  intro i j
  revert i j
  decide

def trio : Network (Fin 3) where
  addr := trioAddr
  distinct := trioAddr_distinct
  broadcast := fun _ => 0xff00000a
  ifindex := fun _ => 2
  env := fun _ => plain

def after (σ : Fin 3 → Daemon) (i : Fin 3) (ev : Event) : Fin 3 → Daemon :=
  Function.update σ i (step plain (σ i) ev)

def offers (m : RREQ) (ttl : Int) : Obs → Bool
  | .socketSend _ dest _ ttl' (some bytes) =>
      decide (dest = aodvBroadcast ∧ ttl' = ttl ∧ bytes = wireBytes (.rreq m))
  | _ => false

theorem carried_rreq {σ : Fin 3 → Daemon} {j : Fin 3} {m : RREQ} {ttl : Int}
    (h : (σ j).trace.any (offers m ttl) = true) (i : Fin 3) :
    Carried trio σ i
      (.of (.rreq m) (trio.addr j) aodvBroadcast (BitVec.ofInt 8 ttl) (fits_rreq m)) := by
  have hlen : (wireBytes (.rreq m)).length = 24 := take_length _ 24
  obtain ⟨o, ho, hoffers⟩ := List.any_eq_true.1 h
  cases o with
  | socketSend msg dest len ttl' sent =>
      cases sent with
      | none => cases hoffers
      | some bytes =>
          obtain ⟨rfl, rfl, rfl⟩ := of_decide_eq_true hoffers
          refine .of ho rfl (.inl rfl) ?_ ?_ rfl
          · rw [hlen]
            rfl
          · have hfits : (wireBytes (.rreq m)).length ≤ receBufSize := by
              rw [hlen]
              decide
            rw [List.take_of_length_le hfits]
            exact ReceivedBytes.received_overlay _ _
  | _ => cases hoffers

def asked (id : U32) (dest : Addr) (hops : U8) : RREQ :=
  ⟨false, false, false, false, false, hops, id, dest, 0, 0x0100000a, 0⟩

def heard (id : U32) (dest : Addr) (hops ttl : U8) (j : Fin 3) : Event :=
  .recv (.of (.rreq (asked id dest hops)) (trio.addr j) aodvBroadcast ttl (fits_rreq _))

def begun : Fin 3 → Daemon :=
  after (fun i => init plain (trio.addr i) 0xff00000a 2) 0 (.kernel (.routeReq 0x0900000a))

def relayed : Fin 3 → Daemon :=
  after (after begun 1 (heard 0 0x0900000a 0 2 0)) 2 (heard 0 0x0900000a 1 1 1)

def split : Fin 3 → Daemon :=
  after (after (after begun 0 (.kernel (.routeReq 0x0800000a))) 1 (heard 0 0x0900000a 0 2 0)) 2
    (heard 1 0x0800000a 0 2 0)

def crossed : Fin 3 → Daemon :=
  after (after split 1 (heard 1 0x0800000a 1 1 2)) 2 (heard 0 0x0900000a 1 1 1)

theorem reached_heard {σ : Fin 3 → Daemon} (h : Reached trio σ) (i : Fin 3) {j : Fin 3} {id : U32}
    {dest : Addr} {hops : U8} (ttl : Int)
    (hsent : (σ j).trace.any (offers (asked id dest hops) ttl) = true) :
    Reached trio (after σ i (heard id dest hops (BitVec.ofInt 8 ttl) j)) := by
  apply Reached.step h i
  rintro pkt ⟨⟩
  exact carried_rreq hsent i

theorem reached_kernel {σ : Fin 3 → Daemon} (h : Reached trio σ) (i : Fin 3) (m : KernelMsg) :
    Reached trio (after σ i (.kernel m)) := by
  apply Reached.step h i
  rintro pkt ⟨⟩

theorem hop_of {σ : Fin 3 → Daemon} {d : Addr} {i j : Fin 3} (p : Ptr)
    (h : p ∈ (σ i).linked ∧ ((σ i).rt p).state = .valid ∧ ((σ i).rt p).destAddr = d ∧
      ((σ i).rt p).nextHop = trio.addr j) : Hop trio σ d i j :=
  ⟨p, (mem_entries _ p).1 h.1, h.2⟩

theorem reached_begun : Reached trio begun := reached_kernel .start 0 _

theorem reached_relayed : Reached trio relayed := by
  have hfirst : Reached trio (after begun 1 (heard 0 0x0900000a 0 2 0)) := by
    apply reached_heard reached_begun 1 2
    decide +kernel
  apply reached_heard hfirst 2 1
  decide +kernel

/-- Node 2 has a route to node 0 over node 1. -/
theorem loop_free_relayed : Hop trio relayed 0x0100000a 2 1 ∧ Hop trio relayed 0x0100000a 1 0 ∧
    ¬ TransGen (Hop trio relayed 0x0100000a) 2 2 := by
  refine ⟨hop_of 2 ?_, hop_of 0 ?_, loop_free reached_relayed ?_ _ _⟩
  · decide +kernel
  · decide +kernel
  · decide +kernel

theorem reached_split : Reached trio split := by
  have hsecond := reached_kernel reached_begun 0 (.routeReq 0x0800000a)
  have hfirst : Reached trio (after (after begun 0 (.kernel (.routeReq 0x0800000a))) 1
      (heard 0 0x0900000a 0 2 0)) := by
    apply reached_heard hsecond 1 2
    decide +kernel
  apply reached_heard hfirst 2 2
  decide +kernel

theorem reached_crossed : Reached trio crossed := by
  have hfirst : Reached trio (after split 1 (heard 1 0x0800000a 1 1 2)) := by
    apply reached_heard reached_split 1 1
    decide +kernel
  apply reached_heard hfirst 2 1
  decide +kernel

/-- Number 0 can always be replaced: each of the two nodes takes the longer route
over the other for the one it has. -/
theorem loop_crossed : ¬ ∀ (σ : Fin 3 → Daemon) (d : Addr) (i : Fin 3),
    Reached trio σ → ¬ TransGen (Hop trio σ d) i i := by
  intro hall
  refine hall crossed 0x0100000a 1 reached_crossed ?_
  have hthere : Hop trio crossed 0x0100000a 1 2 := by
    apply hop_of 0
    decide +kernel
  have hback : Hop trio crossed 0x0100000a 2 1 := by
    apply hop_of 0
    decide +kernel
  exact (TransGen.single hthere).tail hback

end Aodv.Mesh
