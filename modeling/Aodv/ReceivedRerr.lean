import Aodv.BrokenLinks
import Aodv.HashTable

namespace Aodv.ReceivedRerr

open Lib.Bytes Report
open HashTable (Full nodup_addresses rtTableCheck_eq_some numEntries_full rt_insertEntry_self rt_insertEntry_ne)

/-- The first listed number that takes entry q down: it is about a VALID route
over the sender, and not older than that of the entry. -/
def firstHit (s : Daemon) (src : Addr) (l : List (Addr × U32)) (q : Ptr) : Option U32 :=
  if (s.rt q).state = .valid ∧ (s.rt q).nextHop = src then
    (l.find? fun u => decide (u.1 = (s.rt q).destAddr ∧
      BitVec.slt u.2 (s.rt q).destSeqno = false)).map Prod.snd
  else none

def told (r : RtEntry) (seqno : U32) : RtEntry := { down r with destSeqno := seqno }

def heard (s : Daemon) (src : Addr) (l : List (Addr × U32)) (q : Ptr) : RtEntry :=
  match firstHit s src l q with
  | none => s.rt q
  | some v => forsaken (told (s.rt q) v)

section Hits

variable {s : Daemon} {src : Addr} {q : Ptr}

theorem firstHit_append (l l' : List (Addr × U32)) :
    firstHit s src (l ++ l') q = (firstHit s src l q).or (firstHit s src l' q) := by
  simp only [firstHit]
  split
  · rw [List.find?_append]
    cases l.find? _ <;> rfl
  · rfl

theorem firstHit_one (u : Addr × U32) {v : U32} : firstHit s src [u] q = some v ↔
    (s.rt q).state = .valid ∧ (s.rt q).nextHop = src ∧ u.1 = (s.rt q).destAddr ∧
      BitVec.slt u.2 (s.rt q).destSeqno = false ∧ u.2 = v := by
  rw [firstHit, List.find?_singleton]
  constructor
  · intro h
    split at h
    next hroute =>
      split at h
      next hlisted =>
        rw [decide_eq_true_eq] at hlisted
        exact ⟨hroute.1, hroute.2, hlisted.1, hlisted.2, Option.some.inj h⟩
      next => cases h
    next => cases h
  · rintro ⟨hv, hnext, hdest, hnewer, rfl⟩
    rw [if_pos ⟨hv, hnext⟩, if_pos (decide_eq_true ⟨hdest, hnewer⟩)]
    rfl

theorem told_state (r : RtEntry) (seqno : U32) : (told r seqno).state = .invalid := down_state r

end Hits

def Reportable (r : RtEntry) : Prop := r.nprecursor ≠ 0 ∧ r.flags.repair = false

instance (r : RtEntry) : Decidable (Reportable r) := inferInstanceAs (Decidable (_ ∧ _))

/-- The loop of rerr_process after the listed numbers of done. -/
structure Heard (s : Daemon) (src : Addr) (done : List (Addr × U32)) (b : RerrBuild) : Prop where
  frame : Kept s b.s
  linked : ∀ q, Linked s.rtTbl q → b.s.rt q = heard s src done q
  others : ∀ q, ¬ Linked s.rtTbl q → b.s.rt q = s.rt q
  listing : ∃ l : List Ptr, l.Nodup ∧
    (∀ q, q ∈ l ↔ Linked s.rtTbl q ∧ firstHit s src done q ≠ none ∧ Reportable (s.rt q)) ∧
    Lists false (l.map fun q => told (s.rt q) ((firstHit s src done q).getD 0)) b
  said : Said LoopObs s b.s

structure Ended (b b' : RerrBuild) (p : Ptr) (l : List RtEntry) : Prop where
  frame : Kept b.s b'.s
  self : b'.s.rt p = forsaken (b.s.rt p)
  others : ∀ q, q ≠ p → b'.s.rt q = b.s.rt q
  listing : Lists false (if Reportable (b.s.rt p) then l ++ [b.s.rt p] else l) b'
  trace : b'.s.trace = b.s.trace

theorem ended_report {b : RerrBuild} {p : Ptr} {l : List RtEntry} (h : Lists false l b)
    (hi : (b.s.rt p).state = .invalid) : Ended b (rerrReport b false p) p l := by
  have hlist : ∃ b₁ : RerrBuild, Kept b.s b₁.s ∧ (∀ q, b₁.s.rt q = b.s.rt q) ∧
      Lists false (if Reportable (b.s.rt p) then l ++ [b.s.rt p] else l) b₁ ∧
      b₁.s.trace = b.s.trace ∧
      rerrReport b false p = { b₁ with s := precursorListDestroy b₁.s p } := by
    by_cases hr : Reportable (b.s.rt p)
    · refine ⟨rerrList b false p, kept_rerrList b false p, fun q => rt_rerrList b false p q, ?_,
        trace_rerrList b false p, ?_⟩
      · rw [if_pos hr]
        exact h.add p
      · have hlisted : (b.s.rt p).nprecursor ≠ 0 ∧ (b.s.rt p).flags.repair = false := hr
        rw [rerrReport, if_pos hlisted, rt_rerrList, if_pos hi]
    · refine ⟨b, .refl, fun _ => rfl, ?_, rfl, ?_⟩
      · rw [if_neg hr]
        exact h
      · have hnot : ¬ ((b.s.rt p).nprecursor ≠ 0 ∧ (b.s.rt p).flags.repair = false) := hr
        rw [rerrReport, if_neg hnot, if_pos hi]
  obtain ⟨b₁, hkept, hrt, hlisting, htrace, heq⟩ := hlist
  rw [heq]
  refine ⟨hkept.trans (kept_precursorListDestroy b₁.s p), ?_, fun q hq => ?_,
    hlisting.same rfl rfl rfl, htrace⟩
  · rw [rt_destroy, if_pos rfl, hrt]
  · rw [rt_destroy, if_neg hq, hrt]

section Loop

variable {e : Env} {s : Daemon} {src : Addr} {done : List (Addr × U32)} {b : RerrBuild}

theorem heard_valid (h : Heard s src done b) {q : Ptr} (hq : Linked s.rtTbl q)
    (hv : (b.s.rt q).state = .valid) : firstHit s src done q = none ∧ b.s.rt q = s.rt q := by
  have hrt := h.linked q hq
  rw [heard] at hrt
  cases hhit : firstHit s src done q with
  | none =>
      rw [hhit] at hrt
      exact ⟨rfl, hrt⟩
  | some v =>
      rw [hhit] at hrt
      have hinvalid : (b.s.rt q).state = .invalid := by
        rw [hrt]
        exact told_state _ v
      rw [hinvalid] at hv
      cases hv

/-- A listed number takes an entry down in its turn if it is the first to do so. -/
theorem hits_iff (h : Heard s src done b) (hs : TableWf s.rtTbl s.brk) (hfull : ¬ Full s.rtTbl)
    (u : Addr × U32) (p : Ptr) : rerrHits b.s src u = some p ↔
      Linked s.rtTbl p ∧ firstHit s src done p = none ∧ firstHit s src [u] p = some u.2 := by
  have hcheck : rtTableCheck b.s.rtTbl u.1 = some p ↔
      Linked s.rtTbl p ∧ (s.rt p).destAddr = u.1 := by
    rw [h.frame.keys.rtTableCheck]
    exact rtTableCheck_eq_some hs hfull
  rw [firstHit_one, rerrHits]
  constructor
  · intro hit
    split at hit
    next => cases hit
    next q hq =>
      split at hit
      next hroute =>
        cases hit
        obtain ⟨hlinked, hdest⟩ := hcheck.1 hq
        obtain ⟨hnone, hrt⟩ := heard_valid h hlinked hroute.1
        rw [hrt] at hroute
        exact ⟨hlinked, hnone, hroute.1, hroute.2.1, hdest.symm, hroute.2.2, rfl⟩
      next => cases hit
  · rintro ⟨hlinked, hnone, hv, hnext, hdest, hnewer, -⟩
    have hrt := h.linked p hlinked
    rw [heard, hnone] at hrt
    rw [hcheck.2 ⟨hlinked, hdest.symm⟩]
    dsimp only
    rw [if_pos]
    rw [hrt]
    exact ⟨hv, hnext, hnewer⟩

def lowered (e : Env) (s : Daemon) (p : Ptr) (seqno : U32) : Daemon :=
  let s := rtTableInvalidate e s p
  let s := s.observe (.rerrSeqno p (s.rt p) seqno)
  s.setRt p { s.rt p with destSeqno := seqno }

theorem rt_lowered (s : Daemon) (p q : Ptr) (seqno : U32) :
    (lowered e s p seqno).rt q = if q = p then told (s.rt p) seqno else s.rt q := by
  have hdown := rt_invalidate e s p
  rw [lowered]
  split
  next heq =>
    have hself := hdown p
    rw [if_pos rfl] at hself
    rw [heq, rt_setRt_self, told, ← hself]
    rfl
  next hne =>
    rw [rt_setRt_ne _ _ hne]
    exact rt_invalidate_ne e s hne

theorem kept_lowered {p : Ptr} (hp : Linked s.rtTbl p) (seqno : U32) :
    Kept s (lowered e s p seqno) :=
  ((kept_invalidate e hp).trans (Kept.observe _ _)).trans (Kept.setRt _ p _ rfl rfl)

theorem said_lowered (p : Ptr) (seqno : U32) : Said LoopObs s (lowered e s p seqno) := by
  have hdown : Said LoopObs s (rtTableInvalidate e s p) :=
    (invalidate_said e s p).mono fun _ => .route
  exact hdown.trans (.one rfl (.rerrSeqno _ _ _))

theorem firstHit_snoc (u : Addr × U32) (q : Ptr) : firstHit s src (done ++ [u]) q =
    (firstHit s src done q).or (firstHit s src [u] q) := firstHit_append done [u]

theorem heard_miss (h : Heard s src done b) {u : Addr × U32} (hmiss : ∀ p, Linked s.rtTbl p →
    firstHit s src done p = none → firstHit s src [u] p ≠ some u.2) :
    Heard s src (done ++ [u]) b := by
  have hsame (q : Ptr) (hq : Linked s.rtTbl q) :
      firstHit s src (done ++ [u]) q = firstHit s src done q := by
    rw [firstHit_snoc]
    cases hdone : firstHit s src done q with
    | some v => rfl
    | none =>
        cases hone : firstHit s src [u] q with
        | none => rfl
        | some v =>
            have hv : u.2 = v := ((firstHit_one u).1 hone).2.2.2.2
            exact absurd (hv ▸ hone) (hmiss q hq hdone)
  obtain ⟨l, hnodup, hmem, hlists⟩ := h.listing
  refine ⟨h.frame, fun q hq => ?_, h.others, ⟨l, hnodup, fun q => ?_, ?_⟩, h.said⟩
  · rw [h.linked q hq, heard, heard, hsame q hq]
  · rw [hmem]
    refine and_congr_right fun hq => ?_
    rw [hsame q hq]
  · have hmap : (l.map fun q => told (s.rt q) ((firstHit s src (done ++ [u]) q).getD 0)) =
        l.map fun q => told (s.rt q) ((firstHit s src done q).getD 0) := by
      apply List.map_congr_left
      intro q hq
      rw [hsame q ((hmem q).1 hq).1]
    rw [hmap]
    exact hlists

theorem heard_hit (h : Heard s src done b) (hs : TableWf s.rtTbl s.brk) {u : Addr × U32} {p : Ptr}
    (hp : Linked s.rtTbl p) (hnone : firstHit s src done p = none)
    (hone : firstHit s src [u] p = some u.2) : Heard s src (done ++ [u])
      (rerrReport { b with s := lowered e b.s p u.2 } false p) := by
  have hp' : Linked b.s.rtTbl p := (h.frame.keys.linked p).2 hp
  have hrt : b.s.rt p = s.rt p := by
    rw [h.linked p hp, heard, hnone]
  have hlow : (lowered e b.s p u.2).rt p = told (s.rt p) u.2 := by
    rw [rt_lowered, if_pos rfl, hrt]
  have hothers (q : Ptr) (hq : q ≠ p) : (lowered e b.s p u.2).rt q = b.s.rt q := by
    rw [rt_lowered, if_neg hq]
  -- only p has the address of the record
  have hdest : u.1 = (s.rt p).destAddr := ((firstHit_one u).1 hone).2.2.1
  have hsame (q : Ptr) (hq : Linked s.rtTbl q) (hne : q ≠ p) :
      firstHit s src (done ++ [u]) q = firstHit s src done q := by
    rw [firstHit_snoc]
    cases hq' : firstHit s src [u] q with
    | none => exact Option.or_none
    | some v =>
        have hdest' := ((firstHit_one u).1 hq').2.2.1
        exact absurd (hs.dests q p hq hp (hdest'.symm.trans hdest)) hne
  have hself : firstHit s src (done ++ [u]) p = some u.2 := by
    rw [firstHit_snoc, hnone, hone]
    rfl
  obtain ⟨l, hnodup, hmem, hlists⟩ := h.listing
  have hpl : p ∉ l := fun hpl => ((hmem p).1 hpl).2.1 hnone
  have hmap (l' : List Ptr) (hl' : ∀ q ∈ l', q ∈ l) :
      (l'.map fun q => told (s.rt q) ((firstHit s src (done ++ [u]) q).getD 0)) =
        l'.map fun q => told (s.rt q) ((firstHit s src done q).getD 0) := by
    apply List.map_congr_left
    intro q hq
    rw [hsame q ((hmem q).1 (hl' q hq)).1 fun heq => hpl (heq ▸ hl' q hq)]
  have hbuf : (lowered e b.s p u.2).sendBuf = b.s.sendBuf := sendBuf_invalidate e b.s p
  have hended := ended_report (b := { b with s := lowered e b.s p u.2 }) (hlists.same rfl rfl hbuf)
    ((congrArg RtEntry.state hlow).trans (told_state _ _))
  have hreportable : Reportable ((lowered e b.s p u.2).rt p) ↔ Reportable (s.rt p) := by
    rw [hlow, Reportable, Reportable, told]
    simp only [down_nprecursor, down_flags]
  refine ⟨h.frame.trans ((kept_lowered hp' u.2).trans hended.frame), fun q hq => ?_,
    fun q hq => ?_, ?_, h.said.trans ((said_lowered p u.2).trans (.same hended.trace))⟩
  · by_cases hqp : q = p
    · rw [hqp, hended.self, heard, hself]
      exact congrArg forsaken hlow
    · rw [hended.others q hqp, heard, hsame q hq hqp]
      exact (hothers q hqp).trans (h.linked q hq)
  · have hqp : q ≠ p := fun heq => hq (heq ▸ hp)
    rw [hended.others q hqp]
    exact (hothers q hqp).trans (h.others q hq)
  · have hlisting := hended.listing
    by_cases hr : Reportable (s.rt p)
    · rw [if_pos (hreportable.2 hr)] at hlisting
      refine ⟨l ++ [p], ?_, fun q => ?_, ?_⟩
      · rw [List.nodup_append]
        refine ⟨hnodup, List.nodup_singleton p, fun q hq q' hq' heq => ?_⟩
        rw [List.mem_singleton.1 hq'] at heq
        exact hpl (heq ▸ hq)
      · rw [List.mem_append, List.mem_singleton, hmem]
        by_cases hqp : q = p
        · rw [hqp, hself]
          exact iff_of_true (.inr rfl) ⟨hp, Option.some_ne_none _, hr⟩
        · rw [or_iff_left hqp]
          exact and_congr_right fun hq => by rw [hsame q hq hqp]
      · rw [List.map_append, hmap l fun _ hq => hq, List.map_singleton, hself]
        change Lists false (_ ++ [told (s.rt p) u.2]) _
        rw [← hlow]
        exact hlisting
    · rw [if_neg fun h => hr (hreportable.1 h)] at hlisting
      refine ⟨l, hnodup, fun q => ?_, ?_⟩
      · rw [hmem]
        by_cases hqp : q = p
        · rw [hqp]
          exact iff_of_false (fun h => hr h.2.2) fun h => hr h.2.2
        · exact and_congr_right fun hq => by rw [hsame q hq hqp]
      · rw [hmap l fun _ hq => hq]
        exact hlisting

theorem heard_step (h : Heard s src done b) (hs : TableWf s.rtTbl s.brk) (hfull : ¬ Full s.rtTbl)
    (u : Addr × U32) : Heard s src (done ++ [u]) (rerrStep e false src b u) := by
  have hiff := hits_iff h hs hfull u
  rw [rerrStep]
  cases hhit : rerrHits b.s src u with
  | none =>
      apply heard_miss h
      intro p hp hnone hone
      have hsome := (hiff p).2 ⟨hp, hnone, hone⟩
      rw [hhit] at hsome
      cases hsome
  | some p =>
      obtain ⟨hp, hnone, hone⟩ := (hiff p).1 hhit
      exact heard_hit h hs hp hnone hone

theorem heard_loop (hs : TableWf s.rtTbl s.brk) (hfull : ¬ Full s.rtTbl) (l : List (Addr × U32)) :
    Heard s src l (l.foldl (rerrStep e false src) ⟨s, none, 0⟩) := by
  induction l using List.reverseRecOn with
  | nil =>
      have hnone (q : Ptr) : firstHit s src [] q = none := by
        rw [firstHit]
        split <;> rfl
      refine ⟨.refl, fun q _ => ?_, fun _ _ => rfl, ⟨[], List.nodup_nil, fun q => ?_, ?_⟩, .same rfl⟩
      · rw [heard, hnone]
        rfl
      · rw [hnone]
        exact iff_of_false List.not_mem_nil fun h => h.2.1 rfl
      · refine ⟨rfl, rfl, ?_⟩
        rintro m ⟨⟩
  | append_singleton done u ih =>
      rw [List.foldl_append]
      exact heard_step ih hs hfull u

def walked (e : Env) (s : Daemon) (src : Addr) (l : List (Addr × U32)) : RerrBuild :=
  l.foldl (rerrStep e false src) ⟨s, none, 0⟩

end Loop

def Hands (s s' : Daemon) (l : List Ptr) (dest : Addr) : Prop := ∃ len,
  let m : RERR := ⟨false, l.map fun q => ((s.rt q).destAddr, (s'.rt q).destSeqno)⟩
  rerrs s'.trace = (m, dest, len) :: rerrs s.trace ∧ Carries s' (.rerr m) len

structure Replies (s s' : Daemon) (l : List Ptr) : Prop where
  none : l = [] → rerrs s'.trace = rerrs s.trace
  sole : l ≠ [] → ∀ a, Sole (l.map s.rt) a →
    (∃ q, Linked s.rtTbl q ∧ (s.rt q).destAddr = a) → Hands s s' l a
  lost : ∀ a, Sole (l.map s.rt) a → (¬ ∃ q, Linked s.rtTbl q ∧ (s.rt q).destAddr = a) →
    rerrs s'.trace = rerrs s.trace
  many : (¬ ∃ a, Sole (l.map s.rt) a) → Hands s s' l aodvBroadcast

section Exact

variable {e : Env} {s : Daemon} {src : Addr} {u : List (Addr × U32)}

theorem firstHit_some {q : Ptr} {v : U32} (h : firstHit s src u q = some v) :
    (s.rt q).state = .valid ∧ (s.rt q).nextHop = src ∧ ((s.rt q).destAddr, v) ∈ u := by
  rw [firstHit] at h
  split at h
  next hroute =>
    obtain ⟨x, hfind, hx⟩ := Option.map_eq_some_iff.1 h
    have hlisted := List.find?_some hfind
    rw [decide_eq_true_eq] at hlisted
    have heq : x = ((s.rt q).destAddr, v) := Prod.ext hlisted.1 hx
    exact ⟨hroute.1, hroute.2, heq ▸ List.mem_of_find?_eq_some hfind⟩
  next => cases h

theorem listed_few (hs : TableWf s.rtTbl s.brk) {l : List Ptr} (hnodup : l.Nodup)
    (hl : ∀ q ∈ l, Linked s.rtTbl q ∧ firstHit s src u q ≠ none) : l.length ≤ u.length := by
  have hdests : (l.map fun q => (s.rt q).destAddr).Nodup := by
    apply hnodup.map_on
    intro q hq q' hq' heq
    exact hs.dests q q' (hl q hq).1 (hl q' hq').1 heq
  have hsub : (l.map fun q => (s.rt q).destAddr) ⊆ u.map Prod.fst := by
    intro d hd
    obtain ⟨q, hq, rfl⟩ := List.mem_map.1 hd
    obtain ⟨v, hv⟩ := Option.ne_none_iff_exists'.1 (hl q hq).2
    exact List.mem_map.2 ⟨_, (firstHit_some hv).2.2, rfl⟩
  have hle := (List.subperm_of_subset hdests hsub).length_le
  rwa [List.length_map, List.length_map] at hle

theorem pairs_told {b : RerrBuild} (h : Heard s src u b) {l : List Ptr}
    (hl : ∀ q ∈ l, Linked s.rtTbl q ∧ firstHit s src u q ≠ none) :
    pairs (l.map fun q => told (s.rt q) ((firstHit s src u q).getD 0)) =
      l.map fun q => ((s.rt q).destAddr, ((rerrReply e b).rt q).destSeqno) := by
  rw [pairs, List.map_map]
  apply List.map_congr_left
  intro q hq
  obtain ⟨v, hv⟩ := Option.ne_none_iff_exists'.1 (hl q hq).2
  rw [Function.comp_apply, rt_rerrReply e, h.linked q (hl q hq).1, heard, hv]
  exact Prod.ext (down_destAddr _) rfl

theorem target_told (hproper : ∀ q, Linked s.rtTbl q → Proper (s.rt q)) {l : List Ptr}
    (hl : ∀ q ∈ l, Linked s.rtTbl q ∧ Reportable (s.rt q)) (v : Ptr → U32) {a : Addr}
    (ha : a ≠ 0) :
    target (l.map fun q => told (s.rt q) (v q)) = a ↔ l ≠ [] ∧ Sole (l.map s.rt) a := by
  have hcounted : ∀ r ∈ l.map fun q => told (s.rt q) (v q), Counted r := by
    intro r hr
    obtain ⟨q, hq, rfl⟩ := List.mem_map.1 hr
    exact (hproper q (hl q hq).1).toCounted.congr (down_precursors _) (down_nprecursor _)
  have hsome : ∀ r ∈ l.map fun q => told (s.rt q) (v q), r.nprecursor ≠ 0 := by
    intro r hr
    obtain ⟨q, hq, rfl⟩ := List.mem_map.1 hr
    have hnprecursor := down_nprecursor (s.rt q)
    rw [told, hnprecursor]
    exact (hl q hq).2.1
  have hsole : Sole (l.map fun q => told (s.rt q) (v q)) a ↔ Sole (l.map s.rt) a := by
    simp only [Sole, List.forall_mem_map, told, down_precursors]
  rw [target_eq hcounted hsome ha, hsole, ne_eq, List.map_eq_nil_iff]

theorem replies_of_lists (hs : TableWf s.rtTbl s.brk) (hfull : ¬ Full s.rtTbl)
    (hproper : ∀ q, Linked s.rtTbl q → Proper (s.rt q)) (hfew : u.length ≤ 127)
    {b : RerrBuild} (h : Heard s src u b) {l : List Ptr} (hnodup : l.Nodup)
    (hl : ∀ q ∈ l, Linked s.rtTbl q ∧ firstHit s src u q ≠ none ∧ Reportable (s.rt q))
    (hlists : Lists false (l.map fun q => told (s.rt q) ((firstHit s src u q).getD 0)) b) :
    Replies s (rerrReply e b) l := by
  have hrerrs := rerrs_of_said h.said
  have hhit : ∀ q ∈ l, Linked s.rtTbl q ∧ firstHit s src u q ≠ none :=
    fun q hq => ⟨(hl q hq).1, (hl q hq).2.1⟩
  have hlen : l.length ≤ 127 := (listed_few hs hnodup hhit).trans hfew
  let reports := l.map fun q => told (s.rt q) ((firstHit s src u q).getD 0)
  have hpairs : pairs reports =
      l.map fun q => ((s.rt q).destAddr, ((rerrReply e b).rt q).destSeqno) := pairs_told h hhit
  have htarget {a : Addr} (ha : a ≠ 0) : target reports = a ↔ l ≠ [] ∧ Sole (l.map s.rt) a :=
    target_told hproper (fun q hq => ⟨(hl q hq).1, (hl q hq).2.2⟩) _ ha
  have hnil (hnone : l = []) : rerrReply e b = b.s := by
    have hrerr := hlists.rerr
    rw [hnone, List.map_nil, if_pos rfl] at hrerr
    rw [rerrReply, hrerr]
  have hbuilt (hne : l ≠ []) : b.rerr = some ⟨false, pairs reports⟩ := by
    have hrerr := hlists.rerr
    rw [if_neg (fun h => hne (List.map_eq_nil_iff.1 h))] at hrerr
    exact hrerr
  have hhands (hne : l ≠ []) (dest : Addr) (heq : rerrReply e b = aodvSocketSend e b.s
      (.rerr ⟨false, pairs reports⟩) dest (rerrCalcSize (b.s.sendBuf 3)) 1) :
      Hands s (rerrReply e b) l dest := by
    have hwritten := hlists.building _ (hbuilt hne)
    have hcount : (pairs reports).length ≤ 127 := by
      rw [pairs, List.length_map, List.length_map]
      exact hlen
    have hcarries := hwritten.carries hcount
    rw [Hands, ← hpairs, ← hrerrs, heq]
    exact ⟨_, rfl, hcarries⟩
  have hnonzero (hne : l ≠ []) (a : Addr) (ha : Sole (l.map s.rt) a) : a ≠ 0 := by
    rintro rfl
    obtain ⟨q, hq⟩ := List.exists_mem_of_ne_nil _ hne
    have hprec := ha (s.rt q) (List.mem_map_of_mem hq)
    exact (hproper q (hl q hq).1).nonzero (hprec ▸ List.mem_singleton_self 0)
  -- the RERR goes to the precursor that all entries share
  have hunicast (hne : l ≠ []) (a : Addr) (ha : Sole (l.map s.rt) a) : b.unicast = a := by
    rw [hlists.unicast]
    exact (htarget (hnonzero hne a ha)).2 ⟨hne, ha⟩
  have hcheck (a : Addr) (q : Ptr) : rtTableCheck b.s.rtTbl a = some q ↔
      Linked s.rtTbl q ∧ (s.rt q).destAddr = a := by
    rw [h.frame.keys.rtTableCheck]
    exact rtTableCheck_eq_some hs hfull
  refine ⟨fun hnone => ?_, fun hne a ha hknown => ?_, fun a ha hlost => ?_, fun hno => ?_⟩
  · rw [hnil hnone, hrerrs]
  · obtain ⟨q, hq⟩ := hknown
    apply hhands hne a
    rw [rerrReply, hbuilt hne, hunicast hne a ha]
    dsimp only
    rw [if_pos (hnonzero hne a ha), (hcheck a q).2 hq]
  · by_cases hne : l = []
    · rw [hnil hne, hrerrs]
    · have hnone : rtTableCheck b.s.rtTbl a = none := by
        rw [Option.eq_none_iff_forall_ne_some]
        exact fun q hq => hlost ⟨q, (hcheck a q).1 hq⟩
      rw [rerrReply, hbuilt hne, hunicast hne a ha]
      dsimp only
      rw [if_pos (hnonzero hne a ha), hnone]
      exact hrerrs
  · have hne : l ≠ [] := by
      rintro rfl
      exact hno ⟨0, fun r hr => absurd hr List.not_mem_nil⟩
    have hzero : b.unicast = 0 := by
      by_contra hunicast
      rw [hlists.unicast] at hunicast
      exact hno ⟨_, ((htarget hunicast).1 rfl).2⟩
    apply hhands hne aodvBroadcast
    rw [rerrReply, hbuilt hne]
    dsimp only
    rw [if_neg (not_not_intro hzero)]

end Exact

theorem records_few {buf : Buf} {len : Nat} (hlen : rerrCalcSize (buf 3) ≤ len)
    (hmax : len ≤ receBufSize) : (listed buf).length ≤ 127 := by
  rw [listed, List.length_map, List.length_range]
  rw [rerrCalcSize] at hlen
  rw [receBufSize] at hmax
  omega

/-- rerr_process is exact, unless every address has an entry. -/
theorem rerr_process_exact (e : Env) {s : Daemon} (hs : TableWf s.rtTbl s.brk)
    (hproper : ∀ q, Linked s.rtTbl q → Proper (s.rt q)) (hfull : ¬ Full s.rtTbl) (src : Addr)
    {buf : Buf} {len : Nat} (hn : (buf 1).getLsbD 0 = false)
    (hlen : rerrCalcSize (buf 3) ≤ len) (hmax : len ≤ receBufSize) :
    let s' := rerrProcess e s buf len src
    s'.rtTbl.tbl = s.rtTbl.tbl ∧
      (∀ q, TakenDown s s' q ↔ Linked s.rtTbl q ∧ firstHit s src (listed buf) q ≠ none) ∧
      (∀ q, TakenDown s s' q → some (s'.rt q).destSeqno = firstHit s src (listed buf) q ∧
        (s'.rt q).precursors = []) ∧
      (∀ q, ¬ TakenDown s s' q → s'.rt q = s.rt q) ∧
      ∃ l : List Ptr, l.Nodup ∧ (∀ q, q ∈ l ↔ TakenDown s s' q ∧
        (s.rt q).precursors ≠ [] ∧ (s.rt q).flags.repair = false) ∧ Replies s s' l := by
  intro s'
  have hfew := records_few hlen hmax
  have h : Heard s src (listed buf) (walked e s src (listed buf)) := heard_loop hs hfull _
  have heq : s' = rerrReply e (walked e s src (listed buf)) := by
    have hlong : ¬ (len : Int) < rerrCalcSize (buf 3) := Int.not_lt.2 hlen
    simp only [s', rerrProcess, if_neg hlong, hn]
    rfl
  have hrt (q : Ptr) : s'.rt q = (walked e s src (listed buf)).s.rt q := by
    rw [heq, rt_rerrReply]
  have hdown (q : Ptr) :
      TakenDown s s' q ↔ Linked s.rtTbl q ∧ firstHit s src (listed buf) q ≠ none := by
    refine and_congr_right fun hq => ?_
    rw [hrt, h.linked q hq, heard]
    cases hhit : firstHit s src (listed buf) q with
    | none =>
        refine iff_of_false (fun hboth => ?_) fun hne => hne rfl
        rw [hboth.1] at hboth
        cases hboth.2
    | some v => exact iff_of_true ⟨(firstHit_some hhit).1, told_state _ v⟩ (Option.some_ne_none v)
  refine ⟨?_, hdown, fun q hq => ?_, fun q hq => ?_, ?_⟩
  · rw [heq, tbl_rerrReply]
    exact h.frame.keys.tbl
  · obtain ⟨hlinked, hne⟩ := (hdown q).1 hq
    obtain ⟨v, hv⟩ := Option.ne_none_iff_exists'.1 hne
    rw [hrt, h.linked q hlinked, heard, hv]
    exact ⟨rfl, rfl⟩
  · rw [hrt]
    by_cases hlinked : Linked s.rtTbl q
    · have hnone : firstHit s src (listed buf) q = none := by
        by_contra hne
        exact hq ((hdown q).2 ⟨hlinked, hne⟩)
      rw [h.linked q hlinked, heard, hnone]
    · exact h.others q hlinked
  · obtain ⟨l, hnodup, hmem, hlists⟩ := h.listing
    refine ⟨l, hnodup, fun q => ?_, ?_⟩
    · rw [hmem, hdown, and_assoc]
      refine and_congr_right fun hq => and_congr_right fun _ => and_congr_left fun _ => ?_
      exact not_congr (hproper q hq).none_iff
    · rw [heq]
      exact replies_of_lists hs hfull hproper hfew h hnodup (fun q hq => (hmem q).1 hq) hlists

def lost : RERR := ⟨false, [(0x0900000a, 8)]⟩

theorem rerr_process_exact_carrying :
    let s' := rerrProcess plain carrying (rerrBuf lost) 12 0x0200000a
    ∃ l : List Ptr, l.Nodup ∧ (∀ q, q ∈ l ↔ TakenDown carrying s' q ∧
      (carrying.rt q).precursors ≠ [] ∧ (carrying.rt q).flags.repair = false) ∧
      Replies carrying s' l := by
  have hreach : Reachable plain carrying := ⟨0x0100000a, 0xff00000a, 2, _, rfl⟩
  have hs : TableWf carrying.rtTbl carrying.brk := (Aodv.Reachable.resting hreach).wellFormed.table
  have hall : (∀ q ∈ carrying.linked, (carrying.rt q).precursors.Nodup ∧
      (carrying.rt q).nprecursor.toNat = (carrying.rt q).precursors.length ∧
      (0 : Addr) ∉ (carrying.rt q).precursors) ∧ ¬ Full carrying.rtTbl := by
    decide +kernel
  obtain ⟨hlists, hfull⟩ := hall
  have hproper (q : Ptr) (hq : Linked carrying.rtTbl q) : Proper (carrying.rt q) := by
    obtain ⟨hnodup, hcounts, hnonzero⟩ := hlists q ((mem_linked _ q).2 hq)
    exact ⟨⟨hnodup, hcounts⟩, hnonzero⟩
  have hheader : (rerrBuf lost 1).getLsbD 0 = false ∧
      rerrCalcSize (rerrBuf lost 3) ≤ (12 : Nat) ∧ 12 ≤ receBufSize := by
    decide +kernel
  exact (rerr_process_exact plain hs hproper hfull 0x0200000a hheader.1 hheader.2.1
    hheader.2.2).2.2.2.2

structure OneHop (seqno : U32) (ds : List Addr) (s : Daemon) : Prop where
  wellFormed : WellFormed s
  length : (entries s.rtTbl).length = ds.length
  dests : ∀ d, (∃ q, Linked s.rtTbl q ∧ (s.rt q).destAddr = d) ↔ d ∈ ds
  entry : ∀ q, Linked s.rtTbl q → ∃ d, s.rt q = newEntry d d 1 seqno .valid .zero
  ipaddr : s.host.ipaddr = 0x0100000a
  records : s.rreqRecords = []
  blacklists : s.rreqBlacklists = []

theorem books_insertEntry (e : Env) (s : Daemon) (r : RtEntry) (hops lifetime : U32) :
    (insertEntry e s r hops lifetime).rreqRecords = s.rreqRecords ∧
      (insertEntry e s r hops lifetime).rreqBlacklists = s.rreqBlacklists := by
  have hopen := kept_openEntry e (linkEntry s r) s.brk hops lifetime
  have harm := kept_armEntry e (openEntry e (linkEntry s r) s.brk hops lifetime).2
    ((hopen.keys.linked s.brk).2 ((linked_linkEntry s r s.brk).2 (.inl rfl)))
  have hkept := hopen.trans harm
  rw [insertEntry, routeFound]
  split
  · cases seekListCheck _ _ <;> exact ⟨hkept.records, hkept.blacklists⟩
  · exact ⟨hkept.records, hkept.blacklists⟩

theorem one_hop_table (seqno : U32) {ds : List Addr} (hds : ds.Nodup) : ∃ s, OneHop seqno ds s := by
  induction ds with
  | nil =>
      have hno (q : Ptr) : ¬ Linked (init wide 0x0100000a 0xff00000a 2).rtTbl q := by
        rintro ⟨i, hq⟩
        exact List.not_mem_nil hq
      refine ⟨_, wellFormed_init wide 0x0100000a 0xff00000a 2, rfl, fun d => ?_,
        fun q hq => absurd hq (hno q), rfl, rfl, rfl⟩
      exact iff_of_false (fun ⟨q, hq, _⟩ => hno q hq) List.not_mem_nil
  | cons d ds ih =>
      obtain ⟨hd, hds⟩ := List.nodup_cons.1 hds
      obtain ⟨s, hs, hlen, hmem, hrt, hip, hrecords, hblacklists⟩ := ih hds
      let r := newEntry d d 1 seqno .valid .zero
      let s₁ := s.observe (.rtInsert d d 1 seqno 0 .valid .zero)
      have hnew : rtTableInsert wide s d d 1 seqno 0 .valid .zero =
          (insertEntry wide s₁ r 1 0, some s.brk) := by
        rw [rtTableInsert]
        apply if_neg
        intro hany
        obtain ⟨q, hq, hdest⟩ := List.any_eq_true.1 hany
        rw [decide_eq_true_eq] at hdest
        exact hd ((hmem d).1 ⟨q, ⟨_, hq⟩, hdest⟩)
      have hsound := insert_sound wide hs d d 1 seqno 0 .valid .zero
      rw [hnew] at hsound
      have hs' : WellFormed (insertEntry wide s₁ r 1 0) := hsound.wellFormed
      have hbooks := books_insertEntry wide s₁ r 1 0
      have hbrk : ¬ Linked s.rtTbl s.brk := fun hl => absurd rfl (Nat.ne_of_lt (hs.table.below _ hl))
      have hlinked (q : Ptr) : Linked (insertEntry wide s₁ r 1 0).rtTbl q ↔
          q = s.brk ∨ Linked s.rtTbl q := linked_insertEntry wide s₁ r 1 0 q
      have hself : (insertEntry wide s₁ r 1 0).rt s.brk = r := rt_insertEntry_self (s := s₁) r 1 0
      have hother (q : Ptr) (hq : Linked s.rtTbl q) : (insertEntry wide s₁ r 1 0).rt q = s.rt q :=
        rt_insertEntry_ne (s := s₁) r 1 0 fun heq => hbrk (heq ▸ hq)
      refine ⟨_, hs', ?_, fun d' => ?_, fun q hq => ?_, hsound.ipaddr.trans hip,
        hbooks.1.trans hrecords, hbooks.2.trans hblacklists⟩
      · rw [List.length_cons, ← hlen]
        exact entries_length_succ hs.table.entries_nodup hs'.table.entries_nodup hbrk hlinked
      · rw [List.mem_cons, ← hmem d']
        constructor
        · rintro ⟨q, hq, hdest⟩
          rcases (hlinked q).1 hq with rfl | hold
          · rw [hself] at hdest
            exact .inl hdest.symm
          · rw [hother q hold] at hdest
            exact .inr ⟨q, hold, hdest⟩
        · rintro (rfl | ⟨q, hq, hdest⟩)
          · exact ⟨s.brk, (hlinked _).2 (.inl rfl), congrArg RtEntry.destAddr hself⟩
          · exact ⟨q, (hlinked q).2 (.inr hq), (congrArg RtEntry.destAddr (hother q hq)).trans hdest⟩
      · rcases (hlinked q).1 hq with rfl | hold
        · exact ⟨d, hself⟩
        · rw [hother q hold]
          exact hrt q hold

theorem full_one_hop (seqno : U32) : ∃ s ds, OneHop seqno ds s ∧ Full s.rtTbl ∧
    ∀ d, ∃ q, Linked s.rtTbl q ∧ s.rt q = newEntry d d 1 seqno .valid .zero := by
  obtain ⟨s, hs⟩ := one_hop_table seqno nodup_addresses
  have hlen := hs.length
  rw [List.length_map, List.length_range] at hlen
  refine ⟨s, _, hs, hlen, fun d => ?_⟩
  obtain ⟨q, hq, hdest⟩ := (hs.dests d).2
    (List.mem_map.2 ⟨d.toNat, List.mem_range.2 d.isLt, BitVec.eq_of_toNat_eq (by simp)⟩)
  obtain ⟨d', hd'⟩ := hs.entry q hq
  have heq : d' = d := by
    rw [hd'] at hdest
    exact hdest
  exact ⟨q, hq, heq ▸ hd'⟩

/-- With 2^32 entries the counter of entries is 0 again, and rt_table_check finds
none of them. -/
theorem full_table_ignores : ¬ ∀ (e : Env) (s : Daemon), TableWf s.rtTbl s.brk →
    (∀ q, Linked s.rtTbl q → Proper (s.rt q)) → ∀ (src : Addr) (buf : Buf) (len : Nat),
    (buf 1).getLsbD 0 = false → rerrCalcSize (buf 3) ≤ len → len ≤ receBufSize →
    ∀ q, TakenDown s (rerrProcess e s buf len src) q ↔
      Linked s.rtTbl q ∧ firstHit s src (listed buf) q ≠ none := by
  intro hall
  obtain ⟨s, ds, honehop, hfull, hroute⟩ := full_one_hop 0
  have hs := honehop.wellFormed
  have hproper (q : Ptr) (hq : Linked s.rtTbl q) : Proper (s.rt q) := by
    obtain ⟨d, hd⟩ := honehop.entry q hq
    rw [hd]
    exact ⟨⟨List.nodup_nil, rfl⟩, List.not_mem_nil⟩
  -- 10.0.0.9 reports that it is lost
  obtain ⟨q, hq, hd⟩ := hroute 0x0900000a
  have hheader : (rerrBuf lost 1).getLsbD 0 = false ∧
      rerrCalcSize (rerrBuf lost 3) ≤ (12 : Nat) ∧ 12 ≤ receBufSize ∧
      listed (rerrBuf lost) = [(0x0900000a, 8)] := by
    decide +kernel
  obtain ⟨hn, hshort, hmax, hlisted⟩ := hheader
  have hhit : firstHit s 0x0900000a (listed (rerrBuf lost)) q = some 8 := by
    rw [hlisted, firstHit_one, hd]
    exact ⟨rfl, rfl, rfl, rfl, rfl⟩
  have hdown := (hall wide s hs.table hproper 0x0900000a (rerrBuf lost) 12 hn hshort hmax q).2
    ⟨hq, fun hnone => by rw [hhit] at hnone; cases hnone⟩
  have hnone (d : Addr) : rtTableCheck s.rtTbl d = none := by
    rw [rtTableCheck, if_pos (numEntries_full hs.table hfull)]
  have hsame : rerrProcess wide s (rerrBuf lost) 12 0x0900000a = s := by
    have hlong : ¬ ((12 : Nat) : Int) < rerrCalcSize (rerrBuf lost 3) := Int.not_lt.2 hshort
    have hmiss (b : Bool) : rerrStep wide b 0x0900000a ⟨s, none, 0⟩ (0x0900000a, 8) = ⟨s, none, 0⟩ := by
      rw [rerrStep, rerrHits, hnone]
    rw [rerrProcess, if_neg hlong, hlisted]
    dsimp only
    rw [List.foldl_cons, hmiss]
    rfl
  rw [hsame, TakenDown, hd] at hdown
  cases hdown.2.2

end Aodv.ReceivedRerr
