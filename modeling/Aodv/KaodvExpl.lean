import Aodv.Lib.Sequences
import Aodv.State

namespace Aodv

open Lib.Bytes

def explMaxLen : Nat := 1024

def enomem : Int := 12
def enospc : Int := 28

/-- The width of unsigned long on the target. -/
def bits : Arch → Nat
  | .long32 => 32
  | .long64 => 64

abbrev ULong (a : Arch) := BitVec (bits a)

structure ExplEntry (a : Arch) where
  expires : ULong a
  flags : U16
  daddr : Addr
  nhop : Addr
  ifindex : Int
deriving DecidableEq

structure Expl (a : Arch) where
  explHead : List (ExplEntry a)
  explLen : U32
deriving DecidableEq

variable {a : Arch}

def kaodvExplInit : Expl a := ⟨[], 0⟩

/-- The list order of entries: before the first one that expires later. -/
def Sooner (e curr : ExplEntry a) : Prop := e.expires < curr.expires

instance : DecidableRel (Sooner (a := a)) := fun e curr =>
  inferInstanceAs (Decidable (e.expires < curr.expires))

namespace Locked

def kaodvExplAdd (x : Expl a) (e : ExplEntry a) : Expl a × Int :=
  if explMaxLen < x.explLen.toNat then (x, -enospc)
  else ({ x with explHead := x.explHead.orderedInsert Sooner e }, 1)

def kaodvExplCheck (x : Expl a) (daddr : Addr) : Option (ExplEntry a) :=
  x.explHead.find? (fun e => decide (e.daddr = daddr))

def listDel (x : Expl a) (daddr : Addr) : Expl a :=
  { x with explHead := x.explHead.eraseP (fun e => decide (e.daddr = daddr)) }

def kaodvExplDel (x : Expl a) (daddr : Addr) : Expl a :=
  let x := listDel x daddr
  { x with explLen := x.explLen - 1 }

def flushLoop : List (ExplEntry a) → Expl a → Expl a
  | [], x => x
  | _ :: rest, x => flushLoop rest ⟨rest, x.explLen - 1⟩

def kaodvExplFlush (x : Expl a) : Expl a := flushLoop x.explHead x

end Locked

def kaodvExplDel (x : Expl a) (daddr : Addr) : Expl a × Int :=
  match Locked.kaodvExplCheck x daddr with
  | none => (x, 0)
  | some _ => (Locked.kaodvExplDel x daddr, 1)

def kaodvExplGet (x : Expl a) (daddr : Addr) : Option (ExplEntry a) :=
  Locked.kaodvExplCheck x daddr

def expiry (hz jiffies time : ULong a) : ULong a := jiffies + time * hz / 1000

/-- The counter goes up on every status that is not 0, an error included. -/
def kaodvExplAdd (hz jiffies : ULong a) (kmalloc : Bool) (x : Expl a) (daddr nhop : Addr)
    (time : ULong a) (flags : U16) (ifindex : Int) : Expl a × Int :=
  match kaodvExplGet x daddr with
  | some _ => (x, 0)
  | none =>
      if kmalloc then
        let (x, status) :=
          Locked.kaodvExplAdd x ⟨expiry hz jiffies time, flags, daddr, nhop, ifindex⟩
        (if status ≠ 0 then { x with explLen := x.explLen + 1 } else x, status)
      else (x, -enomem)

/-- The status of adding the entry again is not looked at. -/
def kaodvExplUpdate (hz jiffies : ULong a) (x : Expl a) (daddr nhop : Addr) (time : ULong a)
    (flags : U16) (ifindex : Int) : Expl a × Int :=
  match Locked.kaodvExplCheck x daddr with
  | none => (x, -1)
  | some _ =>
      ((Locked.kaodvExplAdd (Locked.listDel x daddr)
        ⟨expiry hz jiffies time, flags, daddr, nhop, ifindex⟩).1, 0)

def kaodvExplFlush (x : Expl a) : Expl a := Locked.kaodvExplFlush x

theorem locked_add (x : Expl a) (e : ExplEntry a) : (Locked.kaodvExplAdd x e).1 =
    ⟨if explMaxLen < x.explLen.toNat then x.explHead else x.explHead.orderedInsert Sooner e,
      x.explLen⟩ := by
  rw [Locked.kaodvExplAdd]
  by_cases hfull : explMaxLen < x.explLen.toNat
  · rw [if_pos hfull, if_pos hfull]
  · rw [if_neg hfull, if_neg hfull]

theorem add_new {hz jiffies : ULong a} {x : Expl a} {daddr : Addr}
    (hnew : kaodvExplGet x daddr = none) (nhop : Addr) (time : ULong a) (flags : U16)
    (ifindex : Int) :
    (kaodvExplAdd hz jiffies true x daddr nhop time flags ifindex).1 =
      ⟨if explMaxLen < x.explLen.toNat then x.explHead
        else x.explHead.orderedInsert Sooner
          ⟨expiry hz jiffies time, flags, daddr, nhop, ifindex⟩, x.explLen + 1⟩ := by
  simp only [kaodvExplAdd, hnew, if_true, Locked.kaodvExplAdd]
  split <;> simp [enospc]

theorem update_present {hz jiffies : ULong a} {x : Expl a} {daddr : Addr}
    (hget : kaodvExplGet x daddr ≠ none) (nhop : Addr) (time : ULong a) (flags : U16)
    (ifindex : Int) :
    (kaodvExplUpdate hz jiffies x daddr nhop time flags ifindex).1 =
      ⟨if explMaxLen < x.explLen.toNat then (Locked.listDel x daddr).explHead
        else (Locked.listDel x daddr).explHead.orderedInsert Sooner
          ⟨expiry hz jiffies time, flags, daddr, nhop, ifindex⟩, x.explLen⟩ := by
  obtain ⟨e, he⟩ := Option.ne_none_iff_exists'.1 hget
  have hcheck : Locked.kaodvExplCheck x daddr = some e := he
  simp only [kaodvExplUpdate, hcheck]
  exact locked_add (Locked.listDel x daddr) _

end Aodv
