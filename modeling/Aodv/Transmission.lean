import Aodv.Events

namespace Aodv.Transmission

open Lib.Bytes

/-- A message that left the daemon left it as the caller built it. -/
def Intact : Obs → Prop
  | .socketSend msg _ len _ sent => Faithful msg len sent
  | _ => True

/-- The calls that disturb a message: a link break with something to report
while an RREP waits in the send buffer, every RREP_ACK, and an RERR whose list
is longer than the send buffer. -/
def undisturbed : Obs → Bool
  | .unidirBreak reports => !reports
  | .socketSend .rrepAck _ _ _ _ => false
  | .socketSend (.rerr m) _ _ _ _ => decide (m.udests.length ≤ 127)
  | _ => true

theorem quiet_intact {a : Arch} {tr : List Obs} {o : Obs} (h : QuietObs a tr o)
    (ho : undisturbed o = true)
    (htr : ∀ o ∈ tr, undisturbed o = true) : Intact o := by
  cases h with
  | lb h =>
      cases h with
      | route h => cases h <;> trivial
      | rerr m dest len ttl sent hf => exact hf (by simpa [undisturbed] using ho)
  | rrep m dest len ttl sent hf =>
      refine hf fun hm => ?_
      have hbreak := htr _ hm
      simp [undisturbed] at hbreak
  | rrepAck => cases ho
  | queued bytes dest len ttl sent hf => exact hf
  | rerrSeqno | unidirBreak | answer => trivial

theorem fine_intact {a : Arch} {tr : List Obs} {o : Obs} (h : FineObs a tr o)
    (ho : undisturbed o = true)
    (htr : ∀ o ∈ tr, undisturbed o = true) : Intact o := by
  cases h with
  | table h =>
      cases h with
      | quiet h => exact quiet_intact h ho htr
      | rtInsert | rtUpdate | accepted | localRepair => trivial
  | rreq m dest len ttl sent hf => exact hf
  | mark h => cases h <;> trivial
  | forUs => trivial

theorem transmission_intact {e : Env} {s : Daemon} (h : Reachable e s)
    (hs : ∀ o ∈ s.trace, undisturbed o = true) : ∀ o ∈ s.trace, Intact o := by
  refine (Reachable.fines (J := fun s => ∀ o ∈ s.trace, Intact o) forall_mem_suffix ?_ ?_ ?_ h hs).2
  · intro ipaddr broadcast ifindex o ho
    exact absurd ho (List.not_mem_nil)
  · exact fun s now _ _ hJ => hJ
  · intro ev s s' hs hok hJ hstep
    have hsaid := fine_said hstep hs
    refine hsaid.forall_mem hJ fun o ho hfine => fine_intact hfine (hok o ho) fun o' ho' => ?_
    exact hok o' (hsaid.suffix.subset ho')

/-- A route request, and the RREQ it makes the daemon send. -/
theorem transmission_intact_rreq :
    (run plain (init plain 0x0100000a 0xff00000a 2)
      [.kernel (.routeReq 0x0900000a)]).trace ≠ [] ∧
    ∀ o ∈ (run plain (init plain 0x0100000a 0xff00000a 2) [.kernel (.routeReq 0x0900000a)]).trace,
      Intact o :=
  ⟨by decide +kernel, transmission_intact ⟨_, _, _, _, rfl⟩ (by decide +kernel)⟩

def ackRequest : Packet :=
  .of (.rrep ⟨false, true, 0, 1, 0x0900000a, 1, 0x0100000a, 6000⟩) 0x0200000a 0x0100000a 5
    (fits_rrep _)

/-- The acknowledgement is a message of two bytes; a datagram of fifty leaves. -/
theorem rrepAck_not_intact : ¬ ∀ s, Reachable plain s → ∀ o ∈ s.trace, Intact o := by
  intro hall
  have hsent : Intact (.socketSend .rrepAck 0x0200000a 50 255 (some (take rrepAckBuf 50))) :=
    hall (run plain (init plain 0x0100000a 0xff00000a 2) [.recv ackRequest]) ⟨_, _, _, _, rfl⟩ _
      (by decide +kernel)
  have hlen := (hsent _ rfl).2
  revert hlen
  decide

end Aodv.Transmission
