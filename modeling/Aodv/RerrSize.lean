import Aodv.RerrGuard

namespace Aodv.Report

open Lib.Bytes

def recordOffset (s : Daemon) : Nat := (rerrCalcSize (s.sendBuf 3)).toNat

/-- The offsets rerr_add_udest writes a record of 8 bytes at in one turn of the
loop: an entry that is listed is added to the RERR if there is one already. -/
def turnWrites (p : Ptr) (b : RerrBuild) (q : Ptr) : List Nat :=
  if lists b.s p q = true ∧ b.rerr ≠ none then [recordOffset b.s] else []

def loopWrites (e : Env) (p : Ptr) : RerrBuild → List Ptr → List Nat
  | _, [] => []
  | b, q :: l => turnWrites p b q ++ loopWrites e p (linkBreakStep e p b q) l

def linkBreakWrites (e : Env) (s : Daemon) (p : Ptr) : List Nat :=
  if (s.rt p).hopcnt ≠ 1 then []
  else loopWrites e p (linkBreakSelf e s p) (linkBreakSelf e s p).s.linked

/-- Every record is inside the send buffer, and dest_count is the number of the
destinations that have been put into the RERR. -/
structure Fits (e : Env) (s : Daemon) (p : Ptr) : Prop where
  inside : ∀ off ∈ linkBreakWrites e s p, off + 8 ≤ sendBufSize
  count : ∀ x ∈ rerrs (since s (neighborLinkBreak e s p)),
    ((neighborLinkBreak e s p).sendBuf 3).toNat = x.1.udests.length

def writeRecord (udest : Addr × U32) (buf : Buf) (off : Nat) : Buf :=
  store (storeUdest buf off udest) 3 (buf 3 + 1)

def offsets (n : Nat) : List Nat :=
  (List.range n).tail.map fun k => (rerrCalcSize (BitVec.ofNat 8 k)).toNat

theorem offsets_succ (n : Nat) : offsets (n + 1) =
    offsets n ++ if n = 0 then [] else [(rerrCalcSize (BitVec.ofNat 8 n)).toNat] := by
  cases n with
  | zero => rfl
  | succ n =>
      rw [if_neg (Nat.succ_ne_zero n), offsets, offsets, List.range_succ (n := n + 1),
        List.tail_append_of_ne_nil, List.map_append, List.map_singleton]
      rw [List.range_succ]
      exact List.append_ne_nil_of_right_ne_nil _ (List.cons_ne_nil _ _)

theorem offset_le (k : Nat) (h : k ≤ 126) : (rerrCalcSize (BitVec.ofNat 8 k)).toNat + 8 ≤ 1024 := by
  rw [rerrCalcSize_ofNat (by omega)]
  omega

/-- 127 records fit into the send buffer. -/
theorem offsets_inside (n : Nat) : (∀ off ∈ offsets n, off + 8 ≤ sendBufSize) ↔ n ≤ 127 := by
  constructor
  · intro h
    by_contra hmany
    have hmem : (rerrCalcSize (BitVec.ofNat 8 127)).toNat ∈ offsets n := by
      rw [offsets, List.mem_map]
      refine ⟨127, ?_, rfl⟩
      obtain ⟨m, rfl⟩ := Nat.exists_eq_succ_of_ne_zero (n := n) (by omega)
      rw [List.range_succ_eq_map, List.tail_cons, List.mem_map]
      exact ⟨126, List.mem_range.2 (by omega), rfl⟩
    exact absurd (h _ hmem) (by decide)
  · intro hfew off hoff
    obtain ⟨k, hk, rfl⟩ := List.mem_map.1 hoff
    have hlt := List.mem_range.1 (List.mem_of_mem_tail hk)
    exact offset_le k (by omega)

section Loop

variable {e : Env} {s : Daemon} {p : Ptr} {b : RerrBuild}

theorem turn_sendBuf {m : RERR} (h : b.rerr = some m) (q : Ptr) : ∃ udest,
    (linkBreakStep e p b q).s.sendBuf =
      (turnWrites p b q).foldl (writeRecord udest) b.s.sendBuf := by
  have hbuf : (rtTableInvalidate e b.s q).sendBuf = b.s.sendBuf := sendBuf_invalidate e b.s q
  have hnprecursor : ((rtTableInvalidate e b.s q).rt q).nprecursor = (b.s.rt q).nprecursor := by
    rw [rt_invalidate, if_pos rfl, down_nprecursor]
  let r := (rtTableInvalidate e b.s q).rt q
  refine ⟨(r.destAddr, r.destSeqno), ?_⟩
  rw [linkBreakStep, turnWrites, lists, h]
  dsimp only
  rw [hnprecursor]
  cases usesLink b.s p q with
  | false => rfl
  | true =>
      cases kept b.s p q with
      | true => exact sendBuf_invalidate e _ q
      | false =>
          by_cases hn : (b.s.rt q).nprecursor ≠ 0
          · rw [decide_eq_true hn]
            simp only [if_true, Bool.false_eq_true, if_false, if_pos hn, rerrList]
            change (rerrAddUdest (rtTableInvalidate e b.s q) m r.destAddr r.destSeqno).1.sendBuf =
              writeRecord (r.destAddr, r.destSeqno) b.s.sendBuf (recordOffset b.s)
            rw [recordOffset, ← hbuf]
            rfl
          · rw [decide_eq_false hn]
            simp only [if_true, Bool.false_eq_true, if_false, if_neg hn]
            exact hbuf

theorem loopWrites_append (b : RerrBuild) (l l' : List Ptr) :
    loopWrites e p b (l ++ l') =
      loopWrites e p b l ++ loopWrites e p (l.foldl (linkBreakStep e p) b) l' := by
  induction l generalizing b with
  | nil => rfl
  | cons q l ih =>
      rw [List.cons_append, loopWrites, ih, loopWrites, List.append_assoc]
      rfl

theorem turn_writes {done : List Ptr} (h : Mid s p done b) {q : Ptr} (hq : q ∉ done) :
    turnWrites p b q = if lists s p q = true ∧ (reportsOwn s p ++ done.filter (lists s p)).length ≠ 0
      then [(rerrCalcSize (BitVec.ofNat 8
        (reportsOwn s p ++ done.filter (lists s p)).length)).toNat] else [] := by
  have hlists : lists b.s p q = lists s p q := by
    by_cases hne : q = p
    · rw [hne, not_reported_self, not_reported_self]
    · obtain ⟨hsame, huses, hkeeps⟩ := h.judges hq hne
      rw [lists, lists, hsame, huses, hkeeps]
  have hrerr := h.listing.rerr
  rw [turnWrites, hlists]
  split at hrerr
  next hnil =>
    have hempty : (reportsOwn s p ++ done.filter (lists s p)).length = 0 :=
      List.length_eq_zero_iff.2 (List.map_eq_nil_iff.1 hnil)
    rw [if_neg fun hboth => hboth.2 hrerr, if_neg fun hboth => hboth.2 hempty]
  next hsome =>
    have hnonempty : (reportsOwn s p ++ done.filter (lists s p)).length ≠ 0 :=
      fun hzero => hsome (List.map_eq_nil_iff.2 (List.length_eq_zero_iff.1 hzero))
    have hcount := (h.listing.building _ hrerr).count
    rw [pairs, List.length_map, List.length_map] at hcount
    rw [recordOffset, hcount]
    simp only [hrerr, hnonempty, ne_eq, reduceCtorEq, not_false_eq_true, and_true]

theorem loop_writes (hp : Linked s.rtTbl p) (l : List Ptr) (hn : l.Nodup)
    (hl : ∀ q ∈ l, Linked s.rtTbl q) : loopWrites e p (linkBreakSelf e s p) l =
      offsets (reportsOwn s p ++ l.filter (lists s p)).length := by
  induction l using List.reverseRecOn with
  | nil =>
      rw [List.filter_nil, List.append_nil, reportsOwn]
      split <;> rfl
  | append_singleton done q ih =>
      obtain ⟨hdone, _, hdisjoint⟩ := List.nodup_append.1 hn
      have hq : q ∉ done := fun hmem => hdisjoint q hmem q List.mem_cons_self rfl
      have hlinked (q' : Ptr) (hq' : q' ∈ done) : Linked s.rtTbl q' :=
        hl q' (List.mem_append_left _ hq')
      have hmid := mid_loop (e := e) hp done hdone hlinked
      rw [loopWrites_append, ih hdone hlinked, loopWrites, loopWrites, List.append_nil,
        turn_writes hmid hq, List.filter_append, List.filter_singleton]
      cases lists s p q with
      | false => simp
      | true =>
          have hlen : (reportsOwn s p ++ done.filter (lists s p) ++ [q]).length =
              (reportsOwn s p ++ done.filter (lists s p)).length + 1 := List.length_append
          rw [← List.append_assoc, cond_true, hlen, offsets_succ]
          simp only [true_and, ne_eq, ite_not]

end Loop

theorem linkBreakWrites_eq {e : Env} {s : Daemon} {p : Ptr} (hs : TableWf s.rtTbl s.brk)
    (hp : Linked s.rtTbl p) (hhop : (s.rt p).hopcnt = 1) :
    linkBreakWrites e s p = offsets (reported s p).length := by
  have hlinked : (linkBreakSelf e s p).s.linked = s.linked := (mid_self hp).frame.keys.entries
  rw [linkBreakWrites, if_neg (not_not_intro hhop), hlinked]
  exact loop_writes hp s.linked hs.entries_nodup fun q hq => (mem_linked s q).1 hq

theorem fits_iff {e : Env} {s : Daemon} {p : Ptr} (hs : TableWf s.rtTbl s.brk)
    (hp : Linked s.rtTbl p) :
    Fits e s p ↔ ((s.rt p).hopcnt = 1 → (reported s p).length ≤ 127) := by
  by_cases hhop : (s.rt p).hopcnt = 1
  · have hrerrs := rerrs_since (linkBreak_said e hp).suffix (rerrs_linkBreak (e := e) hs hp hhop)
    have hwrites := linkBreakWrites_eq (e := e) hs hp hhop
    constructor
    · intro h _
      have hinside := h.inside
      rw [hwrites] at hinside
      exact (offsets_inside _).1 hinside
    · intro hfew
      have hfew' := hfew hhop
      constructor
      · rw [hwrites]
        exact (offsets_inside _).2 hfew'
      · intro x hx
        rw [hrerrs] at hx
        split at hx
        next => exact absurd hx List.not_mem_nil
        next hne =>
          have hlists := lists_built (e := e) hs hp
          have hrerr := hlists.rerr
          rw [if_neg hne] at hrerr
          have hcount := (hlists.building _ hrerr).count
          have hlen : (pairs (report s p)).length = (reported s p).length := by
            rw [pairs, report, List.length_map, List.length_map]
          have hbuf : (neighborLinkBreak e s p).sendBuf 3 = BitVec.ofNat 8 (reported s p).length := by
            rw [linkBreak_eq hp hhop, linkBreakSend, hrerr, ← hlen, ← hcount]
            rfl
          rw [List.mem_singleton.1 hx, hbuf, BitVec.toNat_ofNat]
          change _ = (pairs (report s p)).length
          rw [hlen]
          exact Nat.mod_eq_of_lt (by omega)
  · have hsame : neighborLinkBreak e s p = s := by
      rw [neighborLinkBreak, if_pos hhop]
    have hnone : rerrs (since s s) = [] := rerrs_since (List.suffix_refl _) rfl
    refine iff_of_true ⟨?_, ?_⟩ fun hone => absurd hone hhop
    · rw [linkBreakWrites, if_pos hhop]
      exact fun off hoff => absurd hoff List.not_mem_nil
    · rw [hsame, hnone]
      exact fun x hx => absurd hx List.not_mem_nil

/-- The RERR of a link break fits as long as it has no more than 127 destinations. -/
theorem rerr_fits (e : Env) : (∀ s, Reachable e s → TableWf s.rtTbl s.brk) ∧
    ∀ s, TableWf s.rtTbl s.brk → ∀ p, Linked s.rtTbl p →
      (Fits e s p ↔ ((s.rt p).hopcnt = 1 → (reported s p).length ≤ 127)) :=
  ⟨fun _ h => (fit_of_reachable h).table, fun _ hs _ hp => fits_iff hs hp⟩

theorem rerr_fits_carrying : Fits plain carrying 2 := by
  have hreach : Reachable plain carrying := ⟨0x0100000a, 0xff00000a, 2, _, rfl⟩
  have hall : 2 ∈ carrying.linked ∧ (reported carrying 2).length ≤ 127 := by
    decide +kernel
  exact ((rerr_fits plain).2 carrying ((rerr_fits plain).1 carrying hreach) 2
    ((mem_linked _ 2).1 hall.1)).2 fun _ => hall.2

def offered (k : U8) : Packet where
  buf i := ([2, 0, 0, 1, k, 1, 0, 0, 0, 0, 0, 7, 10, 0, 0, 3, 0, 0, 0xea, 0x60] : List U8).getD i 0
  len := 20
  fits := by decide
  src := 0x0200000a
  dest := 0x0100000a
  ttl := some 5

def offers : List Event := (List.range 127).map fun k => .recv (offered (BitVec.ofNat 8 (64 + k)))

def crowded : Daemon := run plain carrying offers

/-- The last of the 128 records is written over the end of the send buffer. -/
theorem crowded_overflows : ¬ ∀ (e : Env) (s : Daemon), Reachable e s →
    ∀ p, Linked s.rtTbl p → Fits e s p := by
  intro hall
  have hreach : Reachable plain crowded := by
    refine ⟨0x0100000a, 0xff00000a, 2, [.recv asked, .recv answered] ++ offers, ?_⟩
    rw [crowded, carrying, run, run, run, List.foldl_append]
  obtain ⟨hmem, hhop, hmany⟩ : 2 ∈ crowded.linked ∧ (crowded.rt 2).hopcnt = 1 ∧
      (reported crowded 2).length = 128 := by decide +kernel
  have hp := (mem_linked crowded 2).1 hmem
  have hfew := (fits_iff (Aodv.Reachable.resting hreach).wellFormed.table hp).1
    (hall plain crowded hreach 2 hp) hhop
  rw [hmany] at hfew
  exact absurd hfew (by decide)

end Aodv.Report
