import Aodv.Blacklist
import Aodv.Provenance

namespace Aodv.Mesh

def Asks (own : Addr) (s : Daemon) : Prop :=
  ∃ m dest len ttl bytes, .socketSend (.rreq m) dest len ttl (some bytes) ∈ s.trace ∧
    m.origAddr = own

section Askers

variable {ι : Type} {N : Network ι} {σ τ : ι → Daemon} {log : List (ι × ι)} {i j : ι} {pkt : Packet}

def Asked (N : Network ι) (σ : ι → Daemon) (d : Addr) : Prop :=
  ∃ k, N.addr k = d ∧ Asks d (σ k)

theorem Asked.mono {d : Addr} (h : Asked N σ d) (hgrows : ∀ j, (σ j).trace <:+ (τ j).trace) :
    Asked N τ d := by
  obtain ⟨k, hk, m, dest, len, ttl, bytes, hsent, horig⟩ := h
  exact ⟨k, hk, m, dest, len, ttl, bytes, (hgrows k).subset hsent, horig⟩

def askers (N : Network ι) : Lore ι where
  met := fun _ log i => From N log i
  route := fun σ _ _ n d => d = n ∨ Asked N σ d
  asker := fun σ _ _ d => Asked N σ d

variable [DecidableEq ι]

/-- While wait_on_reboot stands, which is for ever, no RREP leaves a node. -/
theorem carried_kind {L : Lore ι} (h : Delivered N σ log) (hj : Grounded N L σ log j (σ j))
    (hpkt : Carried N σ i pkt) (hsrc : pkt.src = N.addr j) :
    pkt.buf 0 ≠ aodvRrep ∧ pkt.buf 0 ≠ aodvHello := by
  obtain ⟨msg, len, ttl, bytes, hsent, hbuf, -, hnames⟩ := carried_named hj hpkt hsrc
  refine ⟨fun ht => ?_, (hnames _ hbuf).hello⟩
  have hnever := Blacklist.never_sent (daemons (delivered_reached h) j) _ hsent
  cases bytes with
  | nil =>
      -- a datagram without bytes could be read as anything
      have hread : ReceivedBytes.Received (List.take receBufSize []) fun _ => aodvHello := rfl
      exact (hnames _ hread).hello rfl
  | cons x l =>
      have hfirst : pkt.buf 0 = x := hbuf.byte (Nat.succ_pos _)
      rw [Blacklist.rrepSent, decide_eq_false_iff_not] at hnever
      exact hnever (congrArg some (hfirst.symm.trans ht))

theorem askers_closed : (askers N).Closed N where
  met h ha := ha.mono h.2
  route h hd := hd.imp_right fun hd => hd.mono h.1
  asker h hd := hd.mono h.1
  heard {σ log i j pkt} h hj hpkt hsrc := by
    obtain ⟨hrrep, hhello⟩ := carried_kind h hj hpkt hsrc
    obtain ⟨msg, len, ttl, bytes, hsent, hbuf, -, hall⟩ := carried_named hj hpkt hsrc
    have hrreq (ht : pkt.buf 0 = aodvRreq) : Asked N σ (rreqOf pkt.buf).origAddr := by
      rcases (hall _ hbuf).rreq ht with ⟨hown, rfl⟩ | hasked
      · rw [hown]
        exact ⟨j, rfl, _, _, len, ttl, bytes, hsent, hown⟩
      · exact hasked
    refine ⟨⟨?_, fun ht => .inr (hrreq ht), fun ht => absurd ht hrrep, fun ht => ?_⟩, hrreq⟩
    · rw [hsrc]
      exact ⟨⟨j, rfl, List.mem_cons_self⟩, .inl rfl⟩
    · rcases of_decide_eq_true ht with ht | ⟨ht, -⟩
      · exact absurd ht hhello
      · exact absurd ht hrrep

/-- No RREP and no HELLO ever goes over the network, so every route leads to a
neighbour that was heard, or over one to a node that has asked for a route itself.
A node that never asks is known to nobody else. -/
theorem only_askers_known (h : Delivered N σ log) :
    (∀ pkt, Carried N σ i pkt → pkt.buf 0 ≠ aodvRrep ∧ pkt.buf 0 ≠ aodvHello) ∧
      ∀ p, Linked (σ i).rtTbl p → ∃ j, (i, j) ∈ log ∧ ((σ i).rt p).nextHop = N.addr j ∧
        (((σ i).rt p).destAddr = N.addr j ∨
          ∃ k, ((σ i).rt p).destAddr = N.addr k ∧ Asks (N.addr k) (σ k)) := by
  have hknown := grounded askers_closed h
  constructor
  · intro pkt hpkt
    obtain ⟨j, hsrc⟩ : ∃ j, pkt.src = N.addr j := by
      cases hpkt with
      | of hsent hsrc => exact ⟨_, hsrc⟩
    exact carried_kind h (hknown j) hpkt hsrc
  · intro p hp
    have hmet := (hknown i).met p hp
    obtain ⟨j, hj, hmem⟩ := hmet.hop
    refine ⟨j, hmem, hj.symm, ?_⟩
    rcases hmet.route with hself | ⟨k, hk, hasks⟩
    · exact .inl (hself.trans hj.symm)
    · refine .inr ⟨k, hk.symm, ?_⟩
      rw [hk]
      exact hasks

end Askers

/-- Node 2 knows of node 0, which it has not heard, because node 0 asks. -/
theorem only_askers_known_relayed : ((relayed 2).rt 2).destAddr = trio.addr 0 ∧
    ∃ j, (2, j) ∈ [((2 : Fin 3), (1 : Fin 3)), (1, 0)] ∧ ((relayed 2).rt 2).nextHop = trio.addr j ∧
      (((relayed 2).rt 2).destAddr = trio.addr j ∨
        ∃ k, ((relayed 2).rt 2).destAddr = trio.addr k ∧ Asks (trio.addr k) (relayed k)) := by
  refine ⟨by decide +kernel, (only_askers_known delivered_relayed).2 2 ?_⟩
  apply (mem_entries _ _).1
  decide +kernel

end Aodv.Mesh
