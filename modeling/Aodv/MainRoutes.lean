import Mathlib.Data.Finset.Basic
import Aodv.Ledger

namespace Aodv.Kernel

open Lib.Bytes

/-- The triples of destination, gateway and metric in the kernel's main routing
table after a history, the last message first, if every request that was sent did
what its arguments say. -/
def installed : List Obs → Finset (Addr × Addr × Int)
  | [] => ∅
  | .kernelRoute true dest gw metric _ :: l => insert (dest, gw, metric) (installed l)
  | .kernelRoute false dest gw metric _ :: l => (installed l).erase (dest, gw, metric)
  | _ :: l => installed l

theorem installed_netlink (l : List Obs) : installed (l.filter isNetlink) = installed l := by
  induction l with
  | nil => rfl
  | cons o l ih =>
      cases o with
      | kernelRoute add dest gw metric ifindex =>
          rw [List.filter_cons_of_pos rfl]
          cases add with
          | true => rw [installed, installed, ih]
          | false => rw [installed, installed, ih]
      | nl m => cases m <;> exact ih
      | _ => exact ih

/-- One triple for each message: nothing but the same triple is struck out. -/
def mainBooks : Books (Addr × Addr × Int) where
  has := fun l k => k ∈ installed l
  key := fun d n m => (d, n, m)
  dest := Prod.fst
  replaces := fun _ _ => False
  clears := fun k k' => k = k'
  dest_key := fun _ _ _ => rfl
  replaces_dest := False.elim
  clears_dest := congrArg Prod.fst
  clears_self := fun _ => rfl
  has_nil := fun _ => Finset.notMem_empty _
  has_up := by
    intro l d n hops lifetime flags ifindex k
    simp [upMsgs, installed]
  has_down := by
    intro l r k
    simp [downMsgs, installed, and_comm, eq_comm]

/-- The hop count of a route that is told fits a byte. A VALID entry keeps its
next hop and hop count, or is demoted and gets another next hop. -/
def keepsMain : Obs → Bool
  | .rtInsert _ _ hops _ _ .valid _ => hops.toNat < 256
  | .rtUpdate _ r next hops _ _ .valid _ =>
      match r.state with
      | .invalid => hops.toNat < 256
      | .valid =>
          if Demotes r hops then r.nextHop ≠ 0 ∧ r.nextHop ≠ next ∧ hops.toNat < 256
          else r.nextHop = next ∧ r.hopcnt = hops.setWidth 8
  | _ => true

theorem byte_metric {hops : U32} (h : hops.toNat < 256) :
    hops.toInt = (hops.setWidth 8 : U8).toNat := by
  rw [BitVec.toInt_eq_toNat_of_lt (by omega), BitVec.toNat_setWidth, Nat.mod_eq_of_lt h]

theorem fits_main {r : RtEntry} {next : Addr} {hops : U32} {p : Ptr} {seqno lifetime : U32}
    {flags : RtFlags}
    (h : keepsMain (.rtUpdate p r next hops seqno lifetime .valid flags) = true) :
    mainBooks.Fits r next hops := by
  intro k hd
  obtain ⟨d, n, m⟩ := k
  obtain rfl : d = r.destAddr := hd
  rw [keepsMain] at h
  cases hst : r.state with
  | invalid =>
      rw [hst] at h
      have hbyte := byte_metric (of_decide_eq_true h)
      simp [Tells, hst, mainBooks, hbyte]
  | valid =>
      rw [hst] at h
      by_cases hdem : Demotes r hops
      · rw [if_pos hdem] at h
        obtain ⟨h0, hne, hlt⟩ := of_decide_eq_true h
        have hbyte := byte_metric hlt
        have htells : Tells r next := .inr ⟨h0, hne⟩
        simp only [mainBooks, Books.keyOf, htells, hdem, hbyte, Prod.mk.injEq, true_and,
          and_false, not_false_eq_true, and_true]
        constructor
        · rintro ⟨hk | hk, hno⟩
          · exact hk
          · exact absurd ⟨hk.1.symm, hk.2.symm⟩ hno
        · rintro ⟨rfl, rfl⟩
          exact ⟨.inl ⟨rfl, rfl⟩, fun hold => hne hold.1⟩
      · rw [if_neg hdem] at h
        obtain ⟨rfl, hh⟩ := of_decide_eq_true h
        have htells : ¬ Tells r r.nextHop := by simp [Tells, hst]
        simp [mainBooks, Books.keyOf, htells, hdem, hh]

/-- In a run whose insertions and updates all meet the condition, the main
routing table holds the VALID entries of the daemon after every event. -/
theorem main_table_mirrors {e : Env} (hrel : Reliable e) {s : Daemon} (h : Reachable e s)
    (hc : ∀ o ∈ s.trace, keepsMain o = true) (dest gw : Addr) (metric : Int) :
    (dest, gw, metric) ∈ installed s.trace ↔ ∃ p, Linked s.rtTbl p ∧ (s.rt p).state = .valid ∧
      (s.rt p).destAddr = dest ∧ (s.rt p).nextHop = gw ∧ ((s.rt p).hopcnt.toNat : Int) = metric := by
  have hb := mainBooks.balanced_of_reachable (C := fun o => keepsMain o = true)
    (fun dest next hops seqno lifetime flags hk => congrArg (fun m => (dest, next, m))
      (byte_metric (of_decide_eq_true hk)))
    (fun p r next hops seqno lifetime flags hk => fits_main hk) hrel h hc
  rw [← installed_netlink]
  refine (hb (dest, gw, metric)).trans ?_
  constructor
  · rintro ⟨d, n, m, ⟨p, hp, hv, rfl, rfl, rfl⟩, hk⟩
    obtain ⟨rfl, rfl, rfl⟩ : dest = _ ∧ gw = _ ∧ metric = _ := by simpa [mainBooks] using hk
    exact ⟨p, hp, hv, rfl, rfl, rfl⟩
  · rintro ⟨p, hp, hv, rfl, rfl, rfl⟩
    exact ⟨_, _, _, ⟨p, hp, hv, rfl, rfl, rfl⟩, rfl⟩

/-- An RREP about 10.0.0.9 with this sequence number, forwarded by a neighbour. -/
def answered (seqno : U32) (src : Addr) : Packet :=
  .of (.rrep ⟨false, false, 0, 1, 0x0900000a, seqno, 0x0800000a, 6000⟩) src 0x0100000a 5
    (fits_rrep _)

theorem main_table_mirrors_learned :
    ((0x0900000a : Addr), (0x0200000a : Addr), (2 : Int)) ∈
        installed (run plain (init plain 0x0100000a 0xff00000a 2)
          [.recv (answered 7 0x0200000a)]).trace :=
  (main_table_mirrors (fun _ => rfl) ⟨0x0100000a, 0xff00000a, 2, _, rfl⟩ (by decide +kernel) _ _ _).2
    ⟨1, (mem_entries _ 1).1 (by decide +kernel), by decide +kernel⟩

def afterTwoWays : Daemon := run plain (init plain 0x0100000a 0xff00000a 2)
  [.recv (answered 7 0x0200000a), .recv (answered 8 0x0300000a)]

/-- The route over the first neighbour stays behind. -/
theorem main_table_keeps_old : ¬ ∀ s, Reachable plain s → ∀ dest gw metric,
    (dest, gw, metric) ∈ installed s.trace ↔ ∃ p, Linked s.rtTbl p ∧ (s.rt p).state = .valid ∧
      (s.rt p).destAddr = dest ∧ (s.rt p).nextHop = gw ∧
      ((s.rt p).hopcnt.toNat : Int) = metric := by
  intro hall
  have hin : ((0x0900000a : Addr), (0x0200000a : Addr), (2 : Int)) ∈
      installed afterTwoWays.trace := by decide +kernel
  obtain ⟨p, hp, _, hd, hn, _⟩ :=
    (hall afterTwoWays ⟨0x0100000a, 0xff00000a, 2, _, rfl⟩ _ _ _).1 hin
  have hnone : ∀ q ∈ entries afterTwoWays.rtTbl, (afterTwoWays.rt q).destAddr = 0x0900000a →
      (afterTwoWays.rt q).nextHop ≠ 0x0200000a := by decide +kernel
  exact hnone p ((mem_entries _ p).2 hp) hd hn

end Aodv.Kernel
