import Aodv.Addressees
import Aodv.Lib.Chains
import Aodv.LoopFreedom

namespace Aodv.Mesh

open Lib.Bytes Lib.Chains Requests

/-- The states of the network, with the log of the datagrams that were not dropped. -/
inductive Delivered {ι : Type} [DecidableEq ι] (N : Network ι) :
    (ι → Daemon) → List (ι × ι) → Prop
  | start : Delivered N (fun i => init (N.env i) (N.addr i) (N.broadcast i) (N.ifindex i)) []
  | recv {σ : ι → Daemon} {log : List (ι × ι)} (h : Delivered N σ log) {i j : ι} {pkt : Packet}
      (hpkt : Carried N σ i pkt) (hsrc : pkt.src = N.addr j)
      (hr : received (N.addr i) pkt = true) :
      Delivered N (Function.update σ i (step (N.env i) (σ i) (.recv pkt))) ((i, j) :: log)
  | act {σ : ι → Daemon} {log : List (ι × ι)} (h : Delivered N σ log) (i : ι) {ev : Event}
      (hev : ∀ pkt, ev = .recv pkt → Carried N σ i pkt ∧ received (N.addr i) pkt = false) :
      Delivered N (Function.update σ i (step (N.env i) (σ i) ev)) log

section Histories

variable {ι : Type} {N : Network ι} {σ : ι → Daemon} {log log' : List (ι × ι)} {i j : ι}
  {ev : Event} {pkt : Packet}

theorem reached_delivered [DecidableEq ι] (h : Reached N σ) : ∃ log, Delivered N σ log := by
  induction h with
  | start => exact ⟨[], .start⟩
  | @step σ _ i ev hev ih =>
      obtain ⟨log, hlog⟩ := ih
      by_cases hr : ∃ pkt, ev = .recv pkt ∧ received (N.addr i) pkt = true
      · obtain ⟨pkt, rfl, hr⟩ := hr
        obtain ⟨hsent, hsrc, hdest, hlen, hbuf, httl⟩ := hev pkt rfl
        exact ⟨_, .recv hlog (.of hsent hsrc hdest hlen hbuf httl) hsrc hr⟩
      · refine ⟨log, .act hlog i fun pkt heq => ⟨hev pkt heq, ?_⟩⟩
        rw [← Bool.not_eq_true]
        exact fun ht => hr ⟨pkt, heq, ht⟩

theorem delivered_reached [DecidableEq ι] (h : Delivered N σ log) : Reached N σ := by
  induction h with
  | start => exact .start
  | recv _ hpkt _ _ ih => exact ih.step _ (by rintro _ ⟨⟩; exact hpkt)
  | act _ i hev ih => exact ih.step i fun pkt heq => (hev pkt heq).1

end Histories

/-- What there is to know for each node in a history: whom it has met, over whom
it may have a route to whom, and whose RREQs may have come to it. -/
structure Lore (ι : Type) where
  met : (ι → Daemon) → List (ι × ι) → ι → Addr → Prop
  route : (ι → Daemon) → List (ι × ι) → ι → Addr → Addr → Prop
  asker : (ι → Daemon) → List (ι × ι) → ι → Addr → Prop

/-- Node i, in state s, knows and has said only what the history accounts for. -/
structure Grounded {ι : Type} (N : Network ι) (L : Lore ι) (σ : ι → Daemon) (log : List (ι × ι))
    (i : ι) (s : Daemon) : Prop where
  resting : Resting s
  ipaddr : s.host.ipaddr = N.addr i
  met : AllMet (L.met σ log i) (L.route σ log i) s
  said : ∀ o ∈ s.trace,
    Proper (L.met σ log i) (L.route σ log i) (L.asker σ log i) (N.addr i) o

def Later {ι : Type} (σ τ : ι → Daemon) (log log' : List (ι × ι)) : Prop :=
  (∀ j, (σ j).trace <:+ (τ j).trace) ∧ log <:+ log'

/-- Nothing is forgotten, and a datagram of a node that knows no more than it may
tells its receiver nothing that it may not know. -/
structure Lore.Closed {ι : Type} [DecidableEq ι] (N : Network ι) (L : Lore ι) : Prop where
  met {σ τ : ι → Daemon} {log log' : List (ι × ι)} {i : ι} {a : Addr}
    (h : Later σ τ log log') (ha : L.met σ log i a) : L.met τ log' i a
  route {σ τ : ι → Daemon} {log log' : List (ι × ι)} {i : ι} {n d : Addr}
    (h : Later σ τ log log') (hd : L.route σ log i n d) : L.route τ log' i n d
  asker {σ τ : ι → Daemon} {log log' : List (ι × ι)} {i : ι} {d : Addr}
    (h : Later σ τ log log') (hd : L.asker σ log i d) : L.asker τ log' i d
  heard {σ : ι → Daemon} {log : List (ι × ι)} {i j : ι} {pkt : Packet} (h : Delivered N σ log)
    (hj : Grounded N L σ log j (σ j)) (hpkt : Carried N σ i pkt) (hsrc : pkt.src = N.addr j) :
    Heard (L.met σ ((i, j) :: log) i) (L.route σ ((i, j) :: log) i) pkt ∧
      (pkt.buf 0 = aodvRreq → L.asker σ ((i, j) :: log) i (rreqOf pkt.buf).origAddr)

section Lores

variable {ι : Type} [DecidableEq ι] {N : Network ι} {L : Lore ι} {σ τ : ι → Daemon}
  {log log' : List (ι × ι)} {i j : ι} {ev : Event} {pkt : Packet}

namespace Grounded

theorem mono {s : Daemon} (hL : L.Closed N) (h : Grounded N L σ log i s)
    (hlater : Later σ τ log log') : Grounded N L τ log' i s where
  resting := h.resting
  ipaddr := h.ipaddr
  met := h.met.mono (fun _ ha => hL.met hlater ha) fun _ _ hd => hL.route hlater hd
  said o ho := (h.said o ho).mono (fun _ ha => hL.met hlater ha)
    (fun _ _ hd => hL.route hlater hd) fun _ hd => hL.asker hlater hd

omit [DecidableEq ι] in
theorem step {s : Daemon} (h : Grounded N L σ log i s)
    (heard : ∀ pkt, ev = .recv pkt → received (N.addr i) pkt = true →
      Heard (L.met σ log i) (L.route σ log i) pkt ∧
        (pkt.buf 0 = aodvRreq → L.asker σ log i (rreqOf pkt.buf).origAddr)) :
    Grounded N L σ log i (step (N.env i) s ev) := by
  rw [← h.ipaddr] at heard
  obtain ⟨hrest, hown⟩ := resting_step (e := N.env i) h.resting ev
  have hsaid := (step_speaks (e := N.env i) h.met h.resting ev
    (fun pkt hev hr => (heard pkt hev hr).1) fun pkt hev hr => (heard pkt hev hr).2).said
  rw [h.ipaddr] at hsaid
  exact ⟨hrest, hown.trans h.ipaddr,
    met_step h.met h.resting fun pkt hev hr => (heard pkt hev hr).1,
    hsaid.forall_mem h.said fun _ _ ho => ho⟩

end Grounded

theorem grounded (hL : L.Closed N) (h : Delivered N σ log) :
    ∀ i, Grounded N L σ log i (σ i) := by
  induction h with
  | start =>
      intro i
      exact ⟨resting_init _ _ _ _, rfl, met_init _ _ _ _, fun _ ho => absurd ho List.not_mem_nil⟩
  | @recv σ log hrun i j pkt hpkt hsrc _ ih =>
      intro k
      have hlog : log <:+ (i, j) :: log := List.suffix_cons (i, j) log
      have hgrows : Later σ (Function.update σ i (Aodv.step (N.env i) (σ i) (.recv pkt)))
          ((i, j) :: log) ((i, j) :: log) :=
        ⟨trace_grows (ih i).resting _, List.suffix_refl _⟩
      have hknown := (ih k).mono hL ⟨fun _ => List.suffix_refl _, hlog⟩
      by_cases hk : k = i
      · subst k
        rw [Function.update_self]
        refine (hknown.step ?_).mono hL hgrows
        rintro _ ⟨⟩ -
        exact hL.heard hrun (ih j) hpkt hsrc
      · rw [Function.update_of_ne hk]
        exact hknown.mono hL hgrows
  | @act σ log hrun i ev hev ih =>
      intro k
      have hgrows : Later σ (Function.update σ i (Aodv.step (N.env i) (σ i) ev)) log log :=
        ⟨trace_grows (ih i).resting _, List.suffix_refl _⟩
      by_cases hk : k = i
      · subst k
        rw [Function.update_self]
        refine ((ih i).step fun pkt heq hr => ?_).mono hL hgrows
        rw [(hev pkt heq).2] at hr
        cases hr
      · rw [Function.update_of_ne hk]
        exact (ih k).mono hL hgrows

omit [DecidableEq ι] in
theorem carried_named (h : Grounded N L σ log j (σ j)) (hpkt : Carried N σ i pkt)
    (hsrc : pkt.src = N.addr j) :
    ∃ msg len ttl bytes, .socketSend msg pkt.dest len ttl (some bytes) ∈ (σ j).trace ∧
      ReceivedBytes.Received (bytes.take receBufSize) pkt.buf ∧
      (pkt.dest = aodvBroadcast ∨ pkt.dest = N.addr i) ∧
      ∀ b, ReceivedBytes.Received (bytes.take receBufSize) b →
        Names (L.met σ log j) (L.route σ log j) (L.asker σ log j) (N.addr j) msg pkt.dest b := by
  cases hpkt with
  | @of k msg len ttl bytes hsent hsrc' hdest hlen hbuf httl =>
      obtain rfl : j = k := N.distinct (hsrc.symm.trans hsrc')
      exact ⟨msg, len, ttl, bytes, hsent, hbuf, hdest, (h.said _ hsent).2 bytes rfl⟩

end Lores

section Words

variable {ι : Type} {N : Network ι} {σ : ι → Daemon} {log log' : List (ι × ι)} {i j : ι}

def From (N : Network ι) (log : List (ι × ι)) (i : ι) (a : Addr) : Prop :=
  ∃ j, N.addr j = a ∧ (i, j) ∈ log

def Over (N : Network ι) (log : List (ι × ι)) (i : ι) (n d : Addr) : Prop :=
  ∃ j k, N.addr j = n ∧ N.addr k = d ∧ Via log i j k

theorem From.mono {a : Addr} (h : From N log i a) (hl : log <:+ log') : From N log' i a := by
  obtain ⟨j, hj, hmem⟩ := h
  exact ⟨j, hj, hl.subset hmem⟩

theorem Over.mono {n d : Addr} (h : Over N log i n d) (hl : log <:+ log') : Over N log' i n d := by
  obtain ⟨j, k, hj, hk, hvia⟩ := h
  exact ⟨j, k, hj, hk, hvia.mono hl⟩

theorem over_named {d : Addr} (h : d = N.addr j ∨ Named (Over N log j) d) :
    Over N ((i, j) :: log) i (N.addr j) d := by
  rcases h with rfl | ⟨n, m, k, -, rfl, hvia⟩
  · exact ⟨j, j, rfl, rfl, .first (.self log j)⟩
  · exact ⟨j, _, rfl, rfl, .first hvia.informed⟩

def words (N : Network ι) : Lore ι where
  met := fun _ log i => From N log i
  route := fun _ log i => Over N log i
  asker := fun _ log i => Named (Over N log i)

variable [DecidableEq ι]

theorem words_closed (hb : ∀ j, N.addr j ≠ aodvBroadcast) : (words N).Closed N where
  met h ha := ha.mono h.2
  route h hd := hd.mono h.2
  asker h hd := by
    obtain ⟨n, hn⟩ := hd
    exact ⟨n, hn.mono h.2⟩
  heard {σ log i j pkt} _ hj hpkt hsrc := by
    obtain ⟨msg, len, ttl, bytes, -, hbuf, -, hall⟩ := carried_named hj hpkt hsrc
    have hnames := hall pkt.buf hbuf
    have hrreq (ht : pkt.buf 0 = aodvRreq) :
        Over N ((i, j) :: log) i (N.addr j) (rreqOf pkt.buf).origAddr :=
      over_named ((hnames.rreq ht).imp_left And.left)
    refine ⟨⟨?_, ?_, ?_, ?_⟩, fun ht => ⟨_, hrreq ht⟩⟩
    · rw [hsrc]
      exact ⟨⟨j, rfl, List.mem_cons_self⟩, over_named (.inl rfl)⟩
    · intro ht
      rw [hsrc]
      exact hrreq ht
    · intro ht
      rw [hsrc]
      exact over_named (hnames.rrep ht).2
    · intro hhello
      rcases of_decide_eq_true hhello with ht | ⟨ht, -, hdest⟩
      · exact absurd ht hnames.hello
      · obtain ⟨m, hm, -⟩ := (hnames.rrep ht).1
        exact absurd (hm.trans hdest) (hb m)

/-- However datagrams are lost, repeated or come late, a route leads over a node that
has been heard to one whose word has come from there, in a chain of datagrams that
were sent one after the other. Only nodes that were heard are told when it breaks. -/
theorem routes_lead_back (h : Delivered N σ log) (hb : ∀ j, N.addr j ≠ aodvBroadcast) {p : Ptr}
    (hp : Linked (σ i).rtTbl p) :
    (∃ j k, ((σ i).rt p).nextHop = N.addr j ∧ ((σ i).rt p).destAddr = N.addr k ∧ Via log i j k) ∧
      ∀ a ∈ ((σ i).rt p).precursors, ∃ j, a = N.addr j ∧ (i, j) ∈ log := by
  have hmet := (grounded (words_closed hb) h i).met p hp
  constructor
  · obtain ⟨j, k, hj, hk, hvia⟩ := hmet.route
    exact ⟨j, k, hj.symm, hk.symm, hvia⟩
  · intro a ha
    obtain ⟨j, hj, hmem⟩ := hmet.told a ha
    exact ⟨j, hj.symm, hmem⟩

end Words

theorem delivered_heard {σ : Fin 3 → Daemon} {log : List (Fin 3 × Fin 3)} (h : Delivered trio σ log)
    (i : Fin 3) {j : Fin 3} {id : U32} {dest : Addr} {hops : U8} (ttl : Int) (hij : i ≠ j)
    (hsent : (σ j).trace.any (offers (asked id dest hops) ttl) = true) :
    Delivered trio (Mesh.after σ i (heard id dest hops (BitVec.ofInt 8 ttl) j))
      ((i, j) :: log) := by
  apply Delivered.recv h (carried_rreq hsent i) rfl
  apply Requests.received_iff.2
  refine ⟨⟨_, rfl⟩, fun heq => hij (trio.distinct heq).symm⟩

theorem delivered_relayed : Delivered trio relayed [(2, 1), (1, 0)] := by
  have hbegun : Delivered trio begun [] := by
    apply Delivered.act .start 0
    rintro _ ⟨⟩
  have hfirst : Delivered trio (Mesh.after begun 1 (heard 0 0x0900000a 0 2 0)) [(1, 0)] := by
    apply delivered_heard hbegun 1 2 (by decide)
    decide +kernel
  apply delivered_heard hfirst 2 1 (by decide)
  decide +kernel

/-- Node 2 knows of node 0 by way of node 1. -/
theorem routes_lead_back_relayed : ((relayed 2).rt 2).destAddr = trio.addr 0 ∧
    (∃ j k, ((relayed 2).rt 2).nextHop = trio.addr j ∧ ((relayed 2).rt 2).destAddr = trio.addr k ∧
        Via [(2, 1), (1, 0)] 2 j k) ∧
      ∀ a ∈ ((relayed 2).rt 2).precursors,
        ∃ j : Fin 3, a = trio.addr j ∧ (2, j) ∈ [((2 : Fin 3), (1 : Fin 3)), (1, 0)] := by
  refine ⟨by decide +kernel, routes_lead_back delivered_relayed ?_ ?_⟩
  · decide
  · apply (mem_entries _ _).1
    decide +kernel

end Aodv.Mesh
