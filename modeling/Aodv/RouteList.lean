import Aodv.KaodvExpl
import Aodv.Lib.Sequences

namespace Aodv.RouteList

open Lib.Bytes Lib.Sequences

/-- The calls that change the route list, each with what jiffies reads and what
kmalloc answers in it. -/
inductive Call (a : Arch)
  | add (jiffies : ULong a) (kmalloc : Bool) (daddr nhop : Addr) (time : ULong a)
      (flags : U16) (ifindex : Int)
  | update (jiffies : ULong a) (daddr nhop : Addr) (time : ULong a) (flags : U16)
      (ifindex : Int)
  | del (daddr : Addr)
  | flush

variable {a : Arch}

def call (hz : ULong a) (x : Expl a) : Call a → Expl a
  | .add jiffies kmalloc daddr nhop time flags ifindex =>
      (kaodvExplAdd hz jiffies kmalloc x daddr nhop time flags ifindex).1
  | .update jiffies daddr nhop time flags ifindex =>
      (kaodvExplUpdate hz jiffies x daddr nhop time flags ifindex).1
  | .del daddr => (kaodvExplDel x daddr).1
  | .flush => kaodvExplFlush x

def calls (hz : ULong a) (cs : List (Call a)) : Expl a := cs.foldl (call hz) kaodvExplInit

structure Ordered (x : Expl a) : Prop where
  sorted : x.explHead.Pairwise (fun e f => e.expires ≤ f.expires)
  distinct : (x.explHead.map ExplEntry.daddr).Nodup

theorem check_none {x : Expl a} {daddr : Addr} :
    Locked.kaodvExplCheck x daddr = none ↔ daddr ∉ x.explHead.map ExplEntry.daddr := by
  simp only [Locked.kaodvExplCheck, List.find?_eq_none, List.mem_map, decide_eq_true_eq]
  constructor
  · rintro h ⟨e, he, hd⟩
    exact h e he hd
  · intro h e he hd
    exact h ⟨e, he, hd⟩

theorem ordered_locked_add {x : Expl a} (h : Ordered x) {e : ExplEntry a}
    (he : e.daddr ∉ x.explHead.map ExplEntry.daddr) : Ordered (Locked.kaodvExplAdd x e).1 := by
  rw [Locked.kaodvExplAdd]
  split
  · exact h
  · constructor
    · apply pairwise_orderedInsert (r := Sooner) _ _ _ e h.sorted
      · intro e f hef
        exact BitVec.le_of_lt hef
      · intro e f hef
        exact BitVec.not_lt.1 hef
      · intro e f g hef hfg
        exact BitVec.le_def.2 (Nat.le_of_lt (Nat.lt_of_lt_of_le (BitVec.lt_def.1 hef) hfg))
    · exact nodup_map_orderedInsert ExplEntry.daddr e h.distinct he

theorem ordered_listDel {x : Expl a} (h : Ordered x) (daddr : Addr) :
    Ordered (Locked.listDel x daddr) := by
  constructor
  · exact h.sorted.sublist List.eraseP_sublist
  · exact h.distinct.sublist (List.eraseP_sublist.map _)

theorem listDel_absent {x : Expl a} (h : Ordered x) (daddr : Addr) :
    daddr ∉ (Locked.listDel x daddr).explHead.map ExplEntry.daddr := by
  intro hm
  obtain ⟨e, he, hd⟩ := List.mem_map.1 hm
  obtain ⟨f, l, r, hl, hf, hx, hdel⟩ :=
    List.exists_of_eraseP (p := fun e => decide (e.daddr = daddr)) (List.mem_of_mem_eraseP he)
      (decide_eq_true hd)
  have hnodup := h.distinct
  rw [hx, List.map_append, List.map_cons, of_decide_eq_true hf] at hnodup
  have hrest : daddr ∉ (l ++ r).map ExplEntry.daddr := by
    rw [List.map_append]
    exact (List.nodup_cons.1 (List.nodup_middle.1 hnodup)).1
  apply hrest
  rw [← hdel]
  exact hm

theorem flushLoop_eq (l : List (ExplEntry a)) (x : Expl a) (hx : x.explHead = l) :
    Locked.flushLoop l x = ⟨[], x.explLen - BitVec.ofNat 32 l.length⟩ := by
  induction l generalizing x with
  | nil =>
      cases x with
      | mk head len =>
          change head = [] at hx
          rw [hx]
          simp [Locked.flushLoop]
  | cons e l ih =>
      rw [Locked.flushLoop, ih _ rfl]
      simp only [List.length_cons, Expl.mk.injEq, true_and]
      rw [BitVec.ofNat_add]
      grind

theorem flush_eq (x : Expl a) :
    kaodvExplFlush x = ⟨[], x.explLen - BitVec.ofNat 32 x.explHead.length⟩ :=
  flushLoop_eq x.explHead x rfl

/-- Order and distinct addresses never depend on the counter. -/
theorem ordered_call {hz : ULong a} {x : Expl a} (h : Ordered x) (c : Call a) :
    Ordered (call hz x c) := by
  cases c with
  | add jiffies kmalloc daddr nhop time flags ifindex =>
      rw [call, kaodvExplAdd]
      split
      · exact h
      next hnone =>
        split
        · dsimp only
          have hadd := ordered_locked_add (e := ⟨expiry hz jiffies time, flags, daddr, nhop, ifindex⟩)
            h (check_none.1 hnone)
          split
          · exact ⟨hadd.sorted, hadd.distinct⟩
          · exact hadd
        · exact h
  | update jiffies daddr nhop time flags ifindex =>
      rw [call, kaodvExplUpdate]
      split
      · exact h
      · exact ordered_locked_add (ordered_listDel h daddr) (listDel_absent h daddr)
  | del daddr =>
      rw [call, kaodvExplDel]
      split
      · exact h
      · have hdel := ordered_listDel h daddr
        exact ⟨hdel.sorted, hdel.distinct⟩
  | flush =>
      rw [call, flush_eq]
      exact ⟨.nil, .nil⟩

theorem ordered_calls (hz : ULong a) (cs : List (Call a)) : Ordered (calls hz cs) := by
  induction cs using List.reverseRecOn with
  | nil => exact ⟨.nil, .nil⟩
  | append_singleton cs c ih =>
      rw [calls, List.foldl_append]
      exact ordered_call ih c

structure Accurate (x : Expl a) : Prop extends Ordered x where
  count : x.explLen.toNat = x.explHead.length

/-- The call does not put an entry on a list that counts as full. -/
def HasRoom (x : Expl a) : Call a → Prop
  | .add _ kmalloc daddr .. =>
      kmalloc = true → kaodvExplGet x daddr = none → x.explLen.toNat ≤ explMaxLen
  | .update _ daddr .. => kaodvExplGet x daddr ≠ none → x.explLen.toNat ≤ explMaxLen
  | .del _ | .flush => True

theorem incr_ne (v : U32) : (v + 1).toNat ≠ v.toNat := by
  intro h
  have := BitVec.eq_of_toNat_eq h
  grind

theorem length_listDel {x : Expl a} {daddr : Addr} (h : kaodvExplGet x daddr ≠ none) :
    (Locked.listDel x daddr).explHead.length + 1 = x.explHead.length := by
  obtain ⟨e, he⟩ := Option.ne_none_iff_exists'.1 h
  have hmem : e ∈ x.explHead := List.mem_of_find?_eq_some he
  have hpos : 0 < x.explHead.length := List.length_pos_of_mem hmem
  have hlen : (Locked.listDel x daddr).explHead.length = x.explHead.length - 1 :=
    List.length_eraseP_of_mem hmem
      (List.find?_some (p := fun e : ExplEntry a => decide (e.daddr = daddr)) he)
  omega

theorem count_add {hz jiffies : ULong a} {kmalloc : Bool} {x : Expl a} {daddr nhop : Addr}
    {time : ULong a} {flags : U16} {ifindex : Int}
    (h : x.explLen.toNat = x.explHead.length) :
    (call hz x (.add jiffies kmalloc daddr nhop time flags ifindex)).explLen.toNat =
        (call hz x (.add jiffies kmalloc daddr nhop time flags ifindex)).explHead.length ↔
      HasRoom x (.add jiffies kmalloc daddr nhop time flags ifindex) := by
  rw [call, HasRoom]
  cases hget : kaodvExplGet x daddr with
  | some e => simp [kaodvExplAdd, hget, h]
  | none =>
      cases kmalloc with
      | false => simp [kaodvExplAdd, hget, h]
      | true =>
          rw [add_new hget]
          simp only [forall_const]
          by_cases hfull : explMaxLen < x.explLen.toNat
          · rw [if_pos hfull, ← h]
            constructor
            · exact fun heq => absurd heq (incr_ne _)
            · omega
          · rw [if_neg hfull, List.orderedInsert_length, ← h]
            have hincr : (x.explLen + 1).toNat = x.explLen.toNat + 1 := by
              simp only [explMaxLen] at hfull
              bv_omega
            omega

theorem count_update {hz jiffies : ULong a} {x : Expl a} {daddr nhop : Addr} {time : ULong a}
    {flags : U16} {ifindex : Int} (h : x.explLen.toNat = x.explHead.length) :
    (call hz x (.update jiffies daddr nhop time flags ifindex)).explLen.toNat =
        (call hz x (.update jiffies daddr nhop time flags ifindex)).explHead.length ↔
      HasRoom x (.update jiffies daddr nhop time flags ifindex) := by
  rw [call, HasRoom]
  by_cases hget : kaodvExplGet x daddr = none
  · have hcheck : Locked.kaodvExplCheck x daddr = none := hget
    simp [kaodvExplUpdate, hcheck, hget, h]
  · rw [update_present hget]
    have hlen := length_listDel hget
    simp only [ne_eq, hget, not_false_eq_true, forall_const]
    by_cases hfull : explMaxLen < x.explLen.toNat
    · rw [if_pos hfull]
      omega
    · rw [if_neg hfull, List.orderedInsert_length]
      omega

theorem accurate_call {hz : ULong a} {x : Expl a} (h : Accurate x) (c : Call a) :
    Accurate (call hz x c) ↔ HasRoom x c := by
  have hordered : Ordered (call hz x c) := ordered_call h.toOrdered c
  suffices hcount : (call hz x c).explLen.toNat = (call hz x c).explHead.length ↔ HasRoom x c by
    constructor
    · exact fun hx => hcount.1 hx.count
    · exact fun hroom => ⟨hordered, hcount.2 hroom⟩
  cases c with
  | add jiffies kmalloc daddr nhop time flags ifindex => exact count_add h.count
  | update jiffies daddr nhop time flags ifindex => exact count_update h.count
  | del daddr =>
      simp only [call, kaodvExplDel, HasRoom, iff_true]
      cases hget : Locked.kaodvExplCheck x daddr with
      | none => exact h.count
      | some e =>
          have hold : kaodvExplGet x daddr ≠ none := by simp [kaodvExplGet, hget]
          have hlen := length_listDel hold
          have hcount := h.count
          change (x.explLen - 1).toNat = (Locked.listDel x daddr).explHead.length
          bv_omega
  | flush =>
      rw [call, flush_eq]
      simp only [HasRoom, List.length_nil, ← h.count, BitVec.ofNat_toNat,
        BitVec.setWidth_eq, BitVec.sub_self, BitVec.toNat_zero]

/-- Counter, addresses and order are right all along a run exactly when no call
of the run puts an entry on a list that counts as full. -/
theorem accurate_iff_hasRoom (hz : ULong a) (cs : List (Call a)) :
    (∀ pre, pre <+: cs → Accurate (calls hz pre)) ↔
      ∀ pre c, pre ++ [c] <+: cs → HasRoom (calls hz pre) c := by
  have hinit : Accurate (kaodvExplInit : Expl a) := ⟨⟨.nil, List.nodup_nil⟩, rfl⟩
  exact prefixes_iff hinit (fun _ c h => accurate_call h c) cs

structure Filled (n : Nat) (x : Expl a) : Prop where
  count : x.explLen.toNat = n
  short : x.explHead.length ≤ n
  bounded : x.explHead.length ≤ explMaxLen + 1
  below : ∀ e ∈ x.explHead, e.daddr.toNat < n

def fillCall (n : Nat) : Call a := .add 0 true (BitVec.ofNat 32 n) 0 0 0 0

def fill (n : Nat) : List (Call a) := (List.range n).map fillCall

theorem filled_call {hz : ULong a} {n : Nat} {x : Expl a} (h : Filled n x) (hn : n + 1 < 2 ^ 32) :
    Filled (n + 1) (call hz x (fillCall n)) := by
  have hnew : kaodvExplGet x (BitVec.ofNat 32 n) = none := by
    apply check_none.2
    intro hm
    obtain ⟨e, he, hd⟩ := List.mem_map.1 hm
    have := h.below e he
    rw [hd, BitVec.toNat_ofNat] at this
    omega
  have hcount := h.count
  rw [fillCall, call, add_new hnew]
  constructor
  · bv_omega
  · have hlen := h.short
    split
    · exact Nat.le_succ_of_le hlen
    · rw [List.orderedInsert_length]
      omega
  · have hlen := h.short
    split
    · exact h.bounded
    · rw [List.orderedInsert_length]
      omega
  · intro e he
    split at he
    · exact Nat.lt_succ_of_lt (h.below e he)
    · rcases (List.mem_orderedInsert Sooner).1 he with rfl | he
      · simp only [BitVec.toNat_ofNat]
        omega
      · exact Nat.lt_succ_of_lt (h.below e he)

theorem filled_fill (hz : ULong a) {n : Nat} (hn : n < 2 ^ 32) : Filled n (calls hz (fill n)) := by
  induction n with
  | zero => exact ⟨rfl, Nat.le_refl _, Nat.zero_le _, by simp [calls, fill, kaodvExplInit]⟩
  | succ n ih =>
      have hrun : calls hz (fill (n + 1)) = call hz (calls hz (fill n)) (fillCall n) := by
        simp [calls, fill, List.range_succ]
      rw [hrun]
      exact filled_call (ih (by omega)) hn

/-- The route after the 1025th is counted, but the list does not take it. -/
theorem fill_overcounts :
    ¬ Accurate (calls (100 : ULong .long32) (fill (explMaxLen + 2))) := by
  intro h
  have hfill := filled_fill (100 : ULong .long32) (n := explMaxLen + 2) (by decide)
  have hcount := h.count
  have hlen := hfill.bounded
  rw [hfill.count] at hcount
  omega

end Aodv.RouteList
