import Aodv.Neighbor

namespace Aodv

open Lib.Bytes

/-- The entry a listed destination takes down: a route over the sender that is
not newer than the list. -/
def rerrHits (s : Daemon) (src : Addr) (udest : Addr × U32) : Option Ptr :=
  match rtTableCheck s.rtTbl udest.1 with
  | none => none
  | some p =>
      if (s.rt p).state = .valid ∧ (s.rt p).nextHop = src ∧
          BitVec.slt udest.2 (s.rt p).destSeqno = false then some p
      else none

/-- The end of a turn: an entry with precursors that is not in repair goes into
the RERR, and an entry that is no longer VALID loses its precursors. -/
def rerrReport (b : RerrBuild) (nodelete : Bool) (p : Ptr) : RerrBuild :=
  let b := if (b.s.rt p).nprecursor ≠ 0 ∧ (b.s.rt p).flags.repair = false then
      rerrList b nodelete p else b
  if (b.s.rt p).state = .invalid then { b with s := precursorListDestroy b.s p } else b

def rerrStep (e : Env) (nodelete : Bool) (src : Addr) (b : RerrBuild) (udest : Addr × U32) :
    RerrBuild :=
  match rerrHits b.s src udest with
  | none => b
  | some p =>
      let s := if nodelete then b.s else rtTableInvalidate e b.s p
      let s := s.observe (.rerrSeqno p (s.rt p) udest.2)
      let s := s.setRt p { s.rt p with destSeqno := udest.2 }
      rerrReport { b with s := s } nodelete p

def rerrReply (e : Env) (b : RerrBuild) : Daemon :=
  match b.rerr with
  | none => b.s
  | some m =>
      let len := rerrCalcSize (b.s.sendBuf 3)
      if b.unicast ≠ 0 then
        match rtTableCheck b.s.rtTbl b.unicast with
        | none => b.s
        | some _ => aodvSocketSend e b.s (.rerr m) b.unicast len 1
      else aodvSocketSend e b.s (.rerr m) aodvBroadcast len 1

theorem tbl_rerrReply (e : Env) (b : RerrBuild) : (rerrReply e b).rtTbl = b.s.rtTbl := by
  rw [rerrReply]
  cases b.rerr with
  | none => rfl
  | some m =>
      dsimp only
      split
      · cases rtTableCheck b.s.rtTbl b.unicast <;> rfl
      · rfl

theorem rt_rerrReply (e : Env) (b : RerrBuild) (q : Ptr) : (rerrReply e b).rt q = b.s.rt q := by
  rw [Daemon.rt, tbl_rerrReply]
  rfl

def listed (buf : Buf) : List (Addr × U32) :=
  (List.range (buf 3).toNat).map (fun k => udestAt buf (udestOffset k))

def rerrProcess (e : Env) (s : Daemon) (buf : Buf) (len : Nat) (src : Addr) : Daemon :=
  if (len : Int) < rerrCalcSize (buf 3) then s
  else
    let b : RerrBuild := ⟨s, none, 0⟩
    rerrReply e ((listed buf).foldl (rerrStep e ((buf 1).getLsbD 0) src) b)

end Aodv
