import Aodv.Events
import Aodv.Lib.Serial

namespace Aodv.OwnSeqno

open Lib.Bytes Lib.Serial

def created : Obs → Option U32
  | .socketSend (.rreq m) _ _ _ _ => some m.origSeqno
  | _ => none

def lastCreated (tr : List Obs) : Option U32 := tr.findSome? created

/-- Every RREQ carries a known number, newer than the one before. -/
def Advances : List Obs → Prop
  | [] => True
  | o :: tr =>
      (∀ n, created o = some n → n ≠ 0 ∧ ∀ l, lastCreated tr = some l → Newer l n) ∧ Advances tr

def raised (tr : List Obs) : Bool :=
  tr.any fun
    | .rreqForUs _ dest => BitVec.slt 0 dest
    | _ => false

def leavesRoom (tr : List Obs) (n : U32) : Bool := (lastCreated tr).all fun l => decide (Newer l n)

/-- An RREQ is sent only after the own number was raised from zero, and a number
that is asked for is less than half a turn ahead of the last RREQ. -/
def orderly (tr : List Obs) : Obs → Bool
  | .socketSend (.rreq _) _ _ _ _ => raised tr
  | .rreqForUs own dest =>
      (!(decide (dest ≠ 0) && BitVec.slt own dest) || leavesRoom tr (seqnoIncr dest)) &&
        (!(decide (dest ≠ 0) && decide (own = dest)) || leavesRoom tr (seqnoIncr (seqnoIncr dest)))
  | _ => true

def allOrderly : List Obs → Bool
  | [] => true
  | o :: tr => orderly tr o && allOrderly tr

theorem allOrderly_suffix (tr tr' : List Obs) (h : tr <:+ tr') (h' : allOrderly tr' = true) :
    allOrderly tr = true := by
  induction tr' with
  | nil =>
      rw [List.suffix_nil.1 h]
      rfl
  | cons o tr' ih =>
      obtain rfl | h := List.suffix_cons_iff.1 h
      · exact h'
      · exact ih h ((Bool.and_eq_true _ _).mp h').2

theorem ownSeqno_ne_zero {own dest : U32} (h : own ≠ 0 ∨ BitVec.slt 0 dest = true) :
    ownSeqno own dest ≠ 0 := by
  rw [ownSeqno]
  split
  next hz =>
    rcases h with h | h
    · exact h
    · rw [hz] at h
      exact absurd h (by decide)
  next hz =>
    split
    · exact hz
    next hlt =>
      split
      next heq => exact seqnoIncr_ne_zero (heq ▸ hz)
      next hne =>
        rcases h with h | h
        · exact h
        · rintro rfl
          exact hlt h

/-- What holds of the own number between two steps. -/
structure Ready (s : Daemon) : Prop where
  advances : Advances s.trace
  known : raised s.trace = true → s.host.seqno ≠ 0
  room : leavesRoom s.trace (seqnoIncr s.host.seqno) = true

theorem ready_forUs {s : Daemon} {dest : U32} (h : Ready s)
    (ho : orderly s.trace (.rreqForUs s.host.seqno dest) = true) :
    Ready { s.observe (.rreqForUs s.host.seqno dest) with
      host := { s.host with seqno := ownSeqno s.host.seqno dest } } where
  advances := ⟨fun n hn => (by cases hn), h.advances⟩
  known := by
    intro hraised
    refine ownSeqno_ne_zero ?_
    have hcases : (BitVec.slt 0 dest || raised s.trace) = true := hraised
    rcases (Bool.or_eq_true _ _).mp hcases with hnew | hold
    · exact .inr hnew
    · exact .inl (h.known hold)
  room := by
    change leavesRoom s.trace (seqnoIncr (ownSeqno s.host.seqno dest)) = true
    obtain ⟨hup, hsame⟩ := (Bool.and_eq_true _ _).mp ho
    rw [ownSeqno]
    split
    · exact h.room
    next hz =>
      split
      next hlt => exact (by simpa [hlt, hz] using hup : dest = 0 ∨ _).resolve_left hz
      · split
        next heq =>
          rw [heq]
          exact (by simpa [heq, hz] using hsame : dest = 0 ∨ _).resolve_left hz
        · exact h.room

theorem ready_rreqSend {e : Env} {s : Daemon} {dest : Addr} {seqno : U32} {ttl : Int} {flags : U8}
    (h : Ready s) (ho : allOrderly (rreqSend e s dest seqno ttl flags).trace = true) :
    Ready (rreqSend e s dest seqno ttl flags) := by
  rw [rreqSend] at ho ⊢
  split
  next hen =>
    rw [if_pos hen] at ho
    have hraised : raised s.trace = true := ((Bool.and_eq_true _ _).mp ho).1
    have hknown := h.known hraised
    have hnew : seqnoIncr s.host.seqno ≠ 0 := seqnoIncr_ne_zero hknown
    refine ⟨⟨?_, h.advances⟩, fun _ => hnew, ?_⟩
    · rintro n ⟨⟩
      refine ⟨hnew, fun l hl => ?_⟩
      change lastCreated s.trace = some l at hl
      have hroom := h.room
      rw [leavesRoom, hl] at hroom
      exact of_decide_eq_true hroom
    · change decide (Newer (seqnoIncr s.host.seqno) (seqnoIncr (seqnoIncr s.host.seqno))) = true
      exact decide_eq_true (newer_seqnoIncr hnew)
  · exact h

structure Aside (o : Obs) : Prop where
  created : created o = none
  forUs : ∀ own dest, o ≠ .rreqForUs own dest

theorem aside_of_table {a : Arch} {tr : List Obs} {o : Obs} (h : TableObs a tr o ∨ Mark o) :
    Aside o := by
  rcases h with h | h
  · cases h with
    | quiet h =>
        cases h with
        | lb h =>
            cases h with
            | route h => cases h <;> exact ⟨rfl, by rintro _ _ ⟨⟩⟩
            | rerr => exact ⟨rfl, by rintro _ _ ⟨⟩⟩
        | rrep | rrepAck | queued | rerrSeqno | unidirBreak | answer => exact ⟨rfl, by rintro _ _ ⟨⟩⟩
    | rtInsert | rtUpdate | accepted | localRepair => exact ⟨rfl, by rintro _ _ ⟨⟩⟩
  · cases h <;> exact ⟨rfl, by rintro _ _ ⟨⟩⟩

theorem aside_append (l tr : List Obs) (hl : ∀ o ∈ l, Aside o) :
    lastCreated (l ++ tr) = lastCreated tr ∧ raised (l ++ tr) = raised tr ∧
      (Advances tr → Advances (l ++ tr)) := by
  induction l with
  | nil => exact ⟨rfl, rfl, id⟩
  | cons o l ih =>
      obtain ⟨hlast, hraised, hadv⟩ := ih fun o' ho' => hl o' (List.mem_cons_of_mem o ho')
      obtain ⟨hcreated, hforUs⟩ := hl o List.mem_cons_self
      refine ⟨?_, ?_, fun h => ⟨fun n hn => ?_, hadv h⟩⟩
      · rw [← hlast]
        simp [lastCreated, hcreated]
      · rw [← hraised]
        cases o with
        | rreqForUs own dest => exact absurd rfl (hforUs own dest)
        | _ => rfl
      · rw [hcreated] at hn
        cases hn

theorem ready_aside {s s' : Daemon} (h : Ready s) (hseqno : s'.host.seqno = s.host.seqno)
    (hsaid : Said Aside s s') : Ready s' := by
  obtain ⟨l, hl, haside⟩ := hsaid
  obtain ⟨hlast, hraised, hadv⟩ := aside_append l s.trace haside
  refine ⟨?_, ?_, ?_⟩
  · rw [hl]
    exact hadv h.advances
  · rw [hl, hraised, hseqno]
    exact h.known
  · rw [leavesRoom, hl, hlast, hseqno]
    exact h.room

theorem seqno_advances {e : Env} {s : Daemon} (h : Reachable e s)
    (hs : allOrderly s.trace = true) : Advances s.trace := by
  have hready : Ready s := by
    refine (Reachable.fines allOrderly_suffix ?_ ?_ ?_ h hs).2
    · exact fun _ _ _ => ⟨trivial, fun hraised => (by cases hraised), rfl⟩
    · exact fun s now _ _ hJ => ⟨hJ.advances, hJ.known, hJ.room⟩
    · intro ev s s' hs hok hJ hstep
      rcases fine_cases hstep hs with ⟨hseqno, hsaid⟩ | ⟨dest, rfl⟩ | ⟨dest, seqno, ttl, flags, rfl⟩
      · exact ready_aside hJ hseqno (hsaid.mono fun _ => aside_of_table)
      · exact ready_forUs hJ ((Bool.and_eq_true _ _).mp hok).1
      · exact ready_rreqSend hJ hok
  exact hready.advances

def asked : Packet :=
  .of (.rreq ⟨false, false, false, false, false, 0, 1, 0x0100000a, 7, 0x0200000a, 3⟩) 0x0200000a
    aodvBroadcast 1 (fits_rreq _)

/-- The daemon is asked for with number 7 and then looks for two destinations. -/
theorem seqno_advances_asked :
    Advances (run plain (init plain 0x0100000a 0xff00000a 2)
      [.recv asked, .kernel (.routeReq 0x0900000a), .kernel (.routeReq 0x0800000a)]).trace :=
  seqno_advances ⟨_, _, _, _, rfl⟩ (by decide +kernel)

/-- The first RREQ of a fresh daemon carries number zero. -/
theorem first_rreq_unknown : ¬ ∀ s, Reachable plain s → Advances s.trace := by
  intro hall
  have hadv := hall (run plain (init plain 0x0100000a 0xff00000a 2) [.kernel (.routeReq 0x0900000a)])
    ⟨_, _, _, _, rfl⟩
  have htrace : (run plain (init plain 0x0100000a 0xff00000a 2)
      [.kernel (.routeReq 0x0900000a)]).trace =
    [.discovery 0 none, .socketSend (.rreq ⟨false, false, false, false, false, 0, 0, 0x0900000a, 0,
      0x0100000a, 0⟩) aodvBroadcast 24 2 (some (take (rreqBuf ⟨false, false, false, false, false, 0,
      0, 0x0900000a, 0, 0x0100000a, 0⟩) 24))] := by
    decide +kernel
  rw [htrace] at hadv
  exact (hadv.2.1 0 rfl).1 rfl

end Aodv.OwnSeqno
