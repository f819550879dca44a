import Aodv.Counter
import Aodv.NetlinkLink

namespace Aodv.Shutdown

open Lib.Bytes Kernel PacketQueue PacketOwner

def embedded : TimerId → Bool
  | .rtTimer _ | .ackTimer _ | .helloTimer _ => true
  | _ => false

section Deletions

variable {e : Env} {s s' : Daemon} {p q : Ptr} {l : List Ptr}

/-- What the daemon sends when these entries are deleted in turn, the last message first. -/
def takenBack (s : Daemon) (l : List Ptr) : List Obs :=
  (l.filter fun p => (s.rt p).state = .valid).reverse.flatMap fun p => downMsgs (s.rt p)

structure Deleted (l : List Ptr) (s s' : Daemon) : Prop where
  wellFormed : WellFormed s'
  linked : ∀ q, Linked s'.rtTbl q ↔ Linked s.rtTbl q ∧ q ∉ l
  pending : ∀ t, Pending s'.timers t ↔ Pending s.timers t ∧
    ∀ p ∈ l, t ≠ .rtTimer p ∧ t ≠ .helloTimer p ∧ t ≠ .ackTimer p
  ahead : ∀ k, Counter.Ahead k s → Counter.Ahead k s'
  said : netlinked s' = takenBack s l ++ netlinked s

/-- What a table leaves behind when all of it is deleted: for each VALID entry, in the
order of the buckets, the module and the kernel are told to drop its route. -/
structure Emptied (s s' : Daemon) : Prop where
  linked : ∀ q, ¬ Linked s'.rtTbl q
  numEntries : s'.rtTbl.numEntries = 0
  numActive : s'.rtTbl.numActive = s.rtTbl.numActive - BitVec.ofNat 32 (Counter.active s.rtTbl)
  pending : ∀ t, Pending s'.timers t ↔ Pending s.timers t ∧ embedded t = false
  said : netlinked s' = takenBack s (entries s.rtTbl) ++ netlinked s

theorem pending_embedded (hs : WellFormed s) {t : TimerId} (ht : Pending s.timers t) :
    (∀ p ∈ entries s.rtTbl, t ≠ .rtTimer p ∧ t ≠ .helloTimer p ∧ t ≠ .ackTimer p) ↔
      embedded t = false := by
  have howned := hs.owned t ht
  constructor
  · intro hall
    cases t with
    | rtTimer p => exact absurd rfl (hall p ((mem_entries _ p).2 howned)).1
    | helloTimer p => exact absurd rfl (hall p ((mem_entries _ p).2 howned)).2.1
    | ackTimer p => exact absurd rfl (hall p ((mem_entries _ p).2 howned)).2.2
    | _ => rfl
  · intro hfree p _
    refine ⟨?_, ?_, ?_⟩ <;>
    · rintro rfl
      cases hfree

theorem Deleted.emptied (hs : WellFormed s) (h : Deleted (entries s.rtTbl) s s') :
    Emptied s s' := by
  have hlinked (q : Ptr) : ¬ Linked s'.rtTbl q := by
    intro hq
    obtain ⟨hold, hno⟩ := (h.linked q).1 hq
    exact hno ((mem_entries _ q).2 hold)
  have hentries : entries s'.rtTbl = [] := by
    rw [List.eq_nil_iff_forall_not_mem]
    intro q hq
    exact hlinked q ((mem_entries _ q).1 hq)
  refine ⟨hlinked, ?_, ?_, fun t => ?_, h.said⟩
  · rw [h.wellFormed.table.count, hentries]
    rfl
  · have hahead := h.ahead (s.rtTbl.numActive - BitVec.ofNat 32 (Counter.active s.rtTbl)) <| by
      rw [Counter.Ahead]
      grind
    rw [Counter.Ahead, Counter.active, hentries] at hahead
    rw [hahead]
    exact BitVec.zero_add _
  · rw [h.pending]
    exact and_congr_right (pending_embedded hs)

end Deletions

section Ends

variable {a : Arch} {e : Env} {ke : KEnv a} {ack : Int → List U8 → List U8} {pid : U32}
variable {w : Wired a} {q : Port a}

end Ends

end Aodv.Shutdown
