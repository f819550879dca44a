import Aodv.Precursors
import Aodv.ReceivedRerr

namespace Aodv.Report

open Lib.Bytes

/-- Each RERR handed over from s to s' goes out as a broadcast or to an address
that rt_table_check finds. -/
def Guarded (s s' : Daemon) : Prop :=
  ∀ x ∈ rerrs (since s s'), x.2.1 ≠ aodvBroadcast → rtTableCheck s'.rtTbl x.2.1 ≠ none

theorem rerrs_since {s s' : Daemon} {new : List (RERR × Addr × Int)}
    (hsuf : s.trace <:+ s'.trace) (h : rerrs s'.trace = new ++ rerrs s.trace) :
    rerrs (since s s') = new := by
  obtain ⟨l, hl⟩ := hsuf
  rw [← hl, rerrs_append] at h
  rw [since_eq hl.symm]
  exact List.append_cancel_right h

theorem guarded_of_rerrs {s s' : Daemon} {new : List (RERR × Addr × Int)}
    (hsuf : s.trace <:+ s'.trace) (h : rerrs s'.trace = new ++ rerrs s.trace) :
    Guarded s s' ↔ ∀ x ∈ new, x.2.1 ≠ aodvBroadcast → rtTableCheck s'.rtTbl x.2.1 ≠ none := by
  rw [Guarded, rerrs_since hsuf h]

theorem guarded_none {s s' : Daemon} (hsuf : s.trace <:+ s'.trace)
    (h : rerrs s'.trace = rerrs s.trace) : Guarded s s' := by
  have hnil : rerrs s'.trace = [] ++ rerrs s.trace := h
  rw [guarded_of_rerrs hsuf hnil]
  exact fun x hx => absurd hx List.not_mem_nil

structure Quietly (s : Daemon) (b : RerrBuild) : Prop where
  frame : Kept s b.s
  said : Said LoopObs s b.s

section Process

variable {e : Env} {s : Daemon} {b : RerrBuild} {n : Bool} {src : Addr}

theorem quietly_report (h : Quietly s b) (p : Ptr) : Quietly s (rerrReport b n p) := by
  have hlist : Quietly s (if (b.s.rt p).nprecursor ≠ 0 ∧ (b.s.rt p).flags.repair = false then
      rerrList b n p else b) := by
    split
    · exact ⟨h.frame.trans (kept_rerrList b n p), h.said.trans (.same (trace_rerrList b n p))⟩
    · exact h
  rw [rerrReport]
  generalize (if (b.s.rt p).nprecursor ≠ 0 ∧ (b.s.rt p).flags.repair = false then
    rerrList b n p else b) = b₁ at hlist
  split
  · exact ⟨hlist.frame.trans (kept_precursorListDestroy b₁.s p), hlist.said.trans (.same rfl)⟩
  · exact hlist

theorem quietly_step (h : Quietly s b) (u : Addr × U32) : Quietly s (rerrStep e n src b u) := by
  rw [rerrStep]
  cases hhit : rerrHits b.s src u with
  | none => exact h
  | some p =>
      have hp := (Aodv.rerrHits_some hhit).1
      have hdown : Kept b.s (if n then b.s else rtTableInvalidate e b.s p) ∧
          Said LoopObs b.s (if n then b.s else rtTableInvalidate e b.s p) := by
        split
        · exact ⟨.refl, .same rfl⟩
        · exact ⟨kept_invalidate e hp, (invalidate_said e b.s p).mono fun _ => .route⟩
      dsimp only
      generalize (if n then b.s else rtTableInvalidate e b.s p) = s₁ at hdown
      apply quietly_report
      refine ⟨h.frame.trans ((hdown.1.trans (Kept.observe s₁ _)).trans (Kept.setRt _ p _ rfl rfl)), ?_⟩
      exact h.said.trans (hdown.2.trans (.one rfl (.rerrSeqno _ _ _)))

theorem quietly_loop (l : List (Addr × U32)) (h : Quietly s b) :
    Quietly s (l.foldl (rerrStep e n src) b) := by
  induction l generalizing b with
  | nil => exact h
  | cons u l ih => exact ih (quietly_step h u)

theorem guarded_reply (h : Quietly s b) : Guarded s (rerrReply e b) := by
  have hrerrs := rerrs_of_said h.said
  have hkept : Guarded s b.s := guarded_none h.said.suffix hrerrs
  have hsend (m : RERR) (dest : Addr) (len : Int)
      (hknown : dest ≠ aodvBroadcast → rtTableCheck b.s.rtTbl dest ≠ none) :
      Guarded s (aodvSocketSend e b.s (.rerr m) dest len 1) := by
    have hsuf : s.trace <:+ (aodvSocketSend e b.s (.rerr m) dest len 1).trace :=
      h.said.suffix.trans (List.suffix_cons _ _)
    have hone : rerrs (aodvSocketSend e b.s (.rerr m) dest len 1).trace =
        [(m, dest, len)] ++ rerrs s.trace := congrArg _ hrerrs
    rw [guarded_of_rerrs hsuf hone]
    intro x hx hne
    rw [List.mem_singleton.1 hx] at hne ⊢
    exact hknown hne
  rw [rerrReply]
  cases b.rerr with
  | none => exact hkept
  | some m =>
      dsimp only
      split
      · cases hcheck : rtTableCheck b.s.rtTbl b.unicast with
        | none => exact hkept
        | some q =>
            apply hsend
            intro _ hnone
            rw [hcheck] at hnone
            cases hnone
      · apply hsend
        exact fun hne => absurd rfl hne

theorem guarded_process (e : Env) (s : Daemon) (buf : Buf) (len : Nat) (src : Addr) :
    Guarded s (rerrProcess e s buf len src) := by
  have hstart : Quietly s ⟨s, none, 0⟩ := ⟨.refl, .same rfl⟩
  rw [rerrProcess]
  split
  · exact guarded_none (List.suffix_refl _) rfl
  · exact guarded_reply (quietly_loop _ hstart)

end Process

section Break

variable {e : Env} {s : Daemon} {p : Ptr}

/-- The one precursor that the reported entries share, if they do, still has an
entry of its own. -/
def Remembered (s : Daemon) (p : Ptr) : Prop :=
  (s.rt p).hopcnt = 1 → reported s p ≠ [] → ∀ a, a ≠ 0 → a ≠ aodvBroadcast →
    Sole ((reported s p).map s.rt) a → rtTableCheck s.rtTbl a ≠ none

theorem reported_linked (hp : Linked s.rtTbl p) {q : Ptr} (hq : q ∈ reported s p) :
    Linked s.rtTbl q ∧ (s.rt q).nprecursor ≠ 0 := by
  rcases (mem_reported q).1 hq with ⟨heq, hn, _⟩ | ⟨hmem, hlists⟩
  · exact heq ▸ ⟨hp, hn⟩
  · simp only [lists, Bool.and_eq_true, decide_eq_true_eq] at hlists
    exact ⟨hmem, hlists.2⟩

theorem guarded_linkBreak (hs : TableWf s.rtTbl s.brk)
    (hcounted : ∀ q, Linked s.rtTbl q → Counted (s.rt q)) (hp : Linked s.rtTbl p) :
    Guarded s (neighborLinkBreak e s p) ↔ Remembered s p := by
  by_cases hhop : (s.rt p).hopcnt = 1
  · have hkept := lb_kept (lb_linkBreak e hp)
    have hrerrs := rerrs_linkBreak (e := e) hs hp hhop
    have hnil : report s p = [] ↔ reported s p = [] := List.map_eq_nil_iff
    have hsole (a : Addr) : Sole ((reported s p).map s.rt) a ↔ Sole (report s p) a := by
      simp only [Sole, report, List.forall_mem_map, down_precursors]
    have hcounted' : ∀ r ∈ report s p, Counted r := by
      intro r hr
      obtain ⟨q, hq, rfl⟩ := List.mem_map.1 hr
      exact (hcounted q (reported_linked hp hq).1).congr (down_precursors _) (down_nprecursor _)
    have hsome : ∀ r ∈ report s p, r.nprecursor ≠ 0 := by
      intro r hr
      obtain ⟨q, hq, rfl⟩ := List.mem_map.1 hr
      rw [down_nprecursor]
      exact (reported_linked hp hq).2
    rw [guarded_of_rerrs (linkBreak_said e hp).suffix hrerrs]
    simp only [hkept.keys.rtTableCheck]
    constructor
    · intro h _ hl a hzero hunicast ha
      have hne : report s p ≠ [] := fun hempty => hl (hnil.1 hempty)
      have hdest := addressee_sole hcounted' hsome hne hzero ((hsole a).1 ha)
      rw [if_neg hne] at h
      have hone := h (message (report s p)) List.mem_cons_self
      rw [message, hdest] at hone
      exact hone hunicast
    · intro h x hx hunicast
      split at hx
      next hempty => exact absurd hx List.not_mem_nil
      next hne =>
        rw [List.mem_singleton.1 hx, message, addressee] at hunicast ⊢
        dsimp only at hunicast ⊢
        split at hunicast
        next htarget =>
          rw [if_pos htarget]
          apply h hhop (fun hempty => hne (hnil.2 hempty)) _ htarget hunicast
          exact (hsole _).2 ((target_eq hcounted' hsome htarget).1 rfl).2
        next => exact absurd rfl hunicast
  · have hsame : neighborLinkBreak e s p = s := by
      rw [neighborLinkBreak, if_pos hhop]
    rw [hsame]
    exact iff_of_true (guarded_none (List.suffix_refl _) rfl) fun hone => absurd hone hhop

end Break

/-- A table whose entries count their precursors. -/
structure Fit (s : Daemon) : Prop where
  table : TableWf s.rtTbl s.brk
  counted : ∀ q, Linked s.rtTbl q → Counted (s.rt q)

theorem fit_of_reachable {e : Env} {s : Daemon} (h : Reachable e s) : Fit s := by
  have hs := Aodv.Reachable.resting h
  obtain ⟨ipaddr, broadcast, ifindex, es, rfl⟩ := h
  have hbears := Precursors.bears_run (e := e) (Aodv.resting_init e ipaddr broadcast ifindex)
    (Aodv.ordered_init e ipaddr broadcast ifindex) es
  have htidy := hbears.tidy (Precursors.allTidy_init (e := e) ipaddr broadcast ifindex)
  exact ⟨hs.wellFormed.table, fun q hq => ⟨(htidy q hq).nodup, (htidy q hq).counts⟩⟩

/-- rerr_process looks before it sends; neighbor_link_break sends to the common
precursor whether that has an entry or not. -/
theorem rerr_guard (e : Env) :
    (∀ s, Reachable e s → Fit s) ∧
      ∀ s, Fit s → (∀ buf len src, Guarded s (rerrProcess e s buf len src)) ∧
        ∀ p, Linked s.rtTbl p → (Guarded s (neighborLinkBreak e s p) ↔ Remembered s p) :=
  ⟨fun _ => fit_of_reachable, fun s hs => ⟨guarded_process e s,
    fun _ hp => guarded_linkBreak hs.table hs.counted hp⟩⟩

def later : Env := { plain with clock := fun n => if n < 28 then ⟨0, 0⟩ else ⟨16, 0⟩ }

def askedFor : Packet :=
  .of (.rreq ⟨false, false, false, false, false, 0, 1, 0x0200000a, 0, 0x0300000a, 5⟩) 0x0300000a
    aodvBroadcast 5 (fits_rreq _)

def answeredBy : Packet :=
  .of (.rrep ⟨false, false, 0, 0, 0x0200000a, 7, 0x0300000a, 60000⟩) 0x0200000a 0x0100000a 5
    (fits_rrep _)

/-- The entry of 10.0.0.3, the precursor of 10.0.0.2, has expired and is gone. -/
def outlived : Daemon :=
  run later (init later 0x0100000a 0xff00000a 2)
    [.recv askedFor, .recv answeredBy, .kernel (.timeout 0x0300000a), .age]

theorem rerr_guard_outlived : Guarded outlived (neighborLinkBreak later outlived 2) ↔
    Remembered outlived 2 := by
  have hreach : Reachable later outlived := ⟨0x0100000a, 0xff00000a, 2, _, rfl⟩
  have hp : 2 ∈ entries outlived.rtTbl := by decide +kernel
  exact ((rerr_guard later).2 outlived ((rerr_guard later).1 outlived hreach)).2 2
    ((mem_entries _ 2).1 hp)

theorem lost_precursor_unnoticed : ¬ ∀ (e : Env) (s : Daemon), Reachable e s →
    ∀ p, Linked s.rtTbl p → Guarded s (neighborLinkBreak e s p) := by
  intro hall
  have hreach : Reachable later outlived := ⟨0x0100000a, 0xff00000a, 2, _, rfl⟩
  have hsee : 2 ∈ entries outlived.rtTbl ∧
      (rerrs (since outlived (neighborLinkBreak later outlived 2))).map (fun x => x.2.1) =
        [0x0300000a] ∧
      rtTableCheck (neighborLinkBreak later outlived 2).rtTbl 0x0300000a = none := by
    decide +kernel
  obtain ⟨hp, hdests, hgone⟩ := hsee
  obtain ⟨x, hx, hdest⟩ := List.mem_map.1 (hdests ▸ List.mem_singleton_self (0x0300000a : Addr))
  have hfound := hall later outlived hreach 2 ((mem_entries _ 2).1 hp) x hx
  rw [hdest] at hfound
  exact hfound (by decide) hgone

end Aodv.Report
