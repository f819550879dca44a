import Aodv.Moves
import Aodv.Report

namespace Aodv.Report

def own (s : Daemon) (p : Ptr) : RtEntry :=
  if (s.rt p).flags.repair then down (s.rt p) else forsaken (down (s.rt p))

def other (s : Daemon) (p q : Ptr) : RtEntry :=
  if usesLink s p q then
    if kept s p q then down { s.rt q with flags := { (s.rt q).flags with repair := true } }
    else forsaken (down (s.rt q))
  else s.rt q

/-- Whether the loop of the link break of p lists entry q. -/
def lists (s : Daemon) (p q : Ptr) : Bool :=
  usesLink s p q && !kept s p q && decide ((s.rt q).nprecursor ≠ 0)

def reportsOwn (s : Daemon) (p : Ptr) : List Ptr :=
  if (s.rt p).nprecursor ≠ 0 ∧ (s.rt p).flags.repair = false then [p] else []

/-- The entries the link break of p reports, in their order in the RERR. -/
def reported (s : Daemon) (p : Ptr) : List Ptr :=
  reportsOwn s p ++ s.linked.filter (lists s p)

def report (s : Daemon) (p : Ptr) : List RtEntry := (reported s p).map fun q => down (s.rt q)

variable {e : Env} {s : Daemon} {p : Ptr}

theorem mem_linked (s : Daemon) (q : Ptr) : q ∈ s.linked ↔ Linked s.rtTbl q := mem_entries _ q

theorem own_destAddr (s : Daemon) (p : Ptr) : (own s p).destAddr = (s.rt p).destAddr := by
  rw [own]
  split
  · exact down_destAddr _
  · exact down_destAddr _

theorem own_flags (s : Daemon) (p : Ptr) : (own s p).flags = (s.rt p).flags := by
  rw [own]
  split
  · exact down_flags _
  · exact down_flags _

theorem own_state (s : Daemon) (p : Ptr) : (own s p).state = .invalid := by
  rw [own]
  split
  · exact down_state _
  · exact down_state _

theorem usesLink_self (s : Daemon) (p : Ptr) : usesLink s p p = false := by
  simp [usesLink]

theorem not_reported_self (s : Daemon) (p : Ptr) : lists s p p = false := by
  rw [lists, usesLink_self]
  rfl

/-- The loop of the link break of p when the entries of done have had their turn. -/
structure Mid (s : Daemon) (p : Ptr) (done : List Ptr) (b : RerrBuild) : Prop where
  frame : Kept s b.s
  self : b.s.rt p = own s p
  turned : ∀ q ∈ done, q ≠ p → b.s.rt q = other s p q
  waiting : ∀ q, q ∉ done → q ≠ p → b.s.rt q = s.rt q
  listing : Lists false ((reportsOwn s p ++ done.filter (lists s p)).map fun q => down (s.rt q)) b
  said : Said RouteObs s b.s

theorem mid_self (hp : Linked s.rtTbl p) : Mid s p [] (linkBreakSelf e s p) := by
  have hdown : (rtTableInvalidate e s p).rt p = down (s.rt p) := by
    rw [rt_invalidate, if_pos rfl]
  have hrest (q : Ptr) (hq : q ≠ p) : (rtTableInvalidate e s p).rt q = s.rt q :=
    rt_invalidate_ne e s hq
  have hempty : Lists false [] ⟨rtTableInvalidate e s p, none, 0⟩ := by
    refine ⟨rfl, rfl, ?_⟩
    rintro m ⟨⟩
  -- the RERR of the own entry, when there is one
  have hlist : ∃ b : RerrBuild, Kept s b.s ∧ (∀ q, b.s.rt q = (rtTableInvalidate e s p).rt q) ∧
      Lists false ((reportsOwn s p).map fun q => down (s.rt q)) b ∧ Said RouteObs s b.s ∧
      linkBreakSelf e s p = if (b.s.rt p).flags.repair then b
        else { b with s := precursorListDestroy b.s p } := by
    have hkept := kept_invalidate e hp
    have hsaid := invalidate_said e s p
    rw [linkBreakSelf, reportsOwn]
    dsimp only
    rw [hdown, down_nprecursor, down_flags]
    split
    next hown =>
      refine ⟨rerrList ⟨rtTableInvalidate e s p, none, 0⟩ false p, hkept.trans
          (kept_rerrList ⟨rtTableInvalidate e s p, none, 0⟩ false p),
        fun q => rt_rerrList _ false p q, ?_, hsaid.trans (.same rfl), rfl⟩
      have hadd := hempty.add p
      rw [List.nil_append] at hadd
      rw [List.map_singleton, ← hdown]
      exact hadd
    next => exact ⟨_, hkept, fun _ => rfl, hempty, hsaid, rfl⟩
  obtain ⟨b, hkept, hsame, hlists, hsaid, heq⟩ := hlist
  have hrt : b.s.rt p = down (s.rt p) := (hsame p).trans hdown
  rw [heq, hrt, down_flags]
  split
  next hrepair =>
    refine ⟨hkept, ?_, fun q hq => absurd hq List.not_mem_nil, fun q _ hq => ?_, ?_, hsaid⟩
    · rw [hrt, Report.own, if_pos hrepair]
    · rw [hsame, hrest q hq]
    · rw [List.filter_nil, List.append_nil]
      exact hlists
  next hrepair =>
    refine ⟨hkept.trans (kept_precursorListDestroy _ _), ?_,
      fun q hq => absurd hq List.not_mem_nil, fun q _ hq => ?_, ?_, hsaid.trans (.same rfl)⟩
    · rw [rt_destroy, if_pos rfl, hrt, Report.own, if_neg hrepair]
    · rw [rt_destroy, if_neg hq, hsame, hrest q hq]
    · rw [List.filter_nil, List.append_nil]
      exact hlists.same rfl rfl rfl

theorem Mid.turn {done : List Ptr} {b b' : RerrBuild} (h : Mid s p done b) {q : Ptr}
    (hne : q ≠ p) (hkept : Kept b.s b'.s) (hrest : ∀ q', q' ≠ q → b'.s.rt q' = b.s.rt q')
    (hturn : b'.s.rt q = other s p q)
    (hlisting : Lists false ((reportsOwn s p ++
      (done ++ [q]).filter (lists s p)).map fun q => down (s.rt q)) b')
    (hsaid : Said RouteObs b.s b'.s) : Mid s p (done ++ [q]) b' where
  frame := h.frame.trans hkept
  self := by
    rw [hrest p hne.symm]
    exact h.self
  turned := by
    intro q' hq' hne'
    by_cases hqq : q' = q
    · rw [hqq]
      exact hturn
    · rw [hrest q' hqq]
      apply h.turned q' _ hne'
      rcases List.mem_append.1 hq' with hmem | hmem
      · exact hmem
      · exact absurd (List.mem_singleton.1 hmem) hqq
  waiting := by
    intro q' hq' hne'
    have hqq : q' ≠ q := fun heq => hq' (heq ▸ List.mem_append_right done List.mem_cons_self)
    rw [hrest q' hqq]
    exact h.waiting q' (fun hmem => hq' (List.mem_append_left _ hmem)) hne'
  listing := hlisting
  said := h.said.trans hsaid

theorem unlisted {done : List Ptr} {q : Ptr} (hno : lists s p q = false) :
    (done ++ [q]).filter (lists s p) = done.filter (lists s p) := by
  rw [List.filter_append, List.filter_singleton, hno]
  exact List.append_nil _

theorem Mid.judges {done : List Ptr} {b : RerrBuild} (h : Mid s p done b) {q : Ptr}
    (hq : q ∉ done) (hne : q ≠ p) :
    b.s.rt q = s.rt q ∧ usesLink b.s p q = usesLink s p q ∧ kept b.s p q = kept s p q := by
  have hsame : b.s.rt q = s.rt q := h.waiting q hq hne
  refine ⟨hsame, ?_, ?_⟩
  · simp only [usesLink, hsame, h.self, own_destAddr]
  · simp only [kept, hsame, h.self, own_flags]

theorem Mid.repaired {done : List Ptr} {b : RerrBuild} (h : Mid s p done b) {q : Ptr}
    (hne : q ≠ p) (hlinked : Linked b.s.rtTbl q) (hsame : b.s.rt q = s.rt q)
    (hover : usesLink s p q = true) (hrepair : kept s p q = true) :
    Mid s p (done ++ [q]) { b with s := rtTableInvalidate e (markRepair b.s q) q } := by
  have hno : lists s p q = false := by simp [lists, hrepair]
  have hmark : Kept b.s (markRepair b.s q) := Kept.setRt b.s q _ rfl rfl
  have hdown := kept_invalidate e ((hmark.keys.linked q).2 hlinked)
  have hsaid : Said RouteObs b.s (rtTableInvalidate e (markRepair b.s q) q) :=
    invalidate_said e (markRepair b.s q) q
  refine h.turn hne (hmark.trans hdown) (fun q' hq' => ?_) ?_ ?_ hsaid
  · rw [rt_invalidate_ne e _ hq']
    exact rt_setRt_ne b.s _ hq'
  · rw [other, if_pos hover, if_pos hrepair, ← hsame, rt_invalidate, if_pos rfl,
      markRepair, rt_setRt_self]
  · rw [unlisted hno]
    exact h.listing.same rfl rfl (sendBuf_invalidate e _ q)

theorem Mid.forsaken {done : List Ptr} {b : RerrBuild} (h : Mid s p done b) {q : Ptr}
    (hne : q ≠ p) (hlinked : Linked b.s.rtTbl q) (hsame : b.s.rt q = s.rt q)
    (hover : usesLink s p q = true) (hrepair : ¬ kept s p q = true) :
    let b₁ : RerrBuild := { b with s := rtTableInvalidate e b.s q }
    let b₂ := if (b₁.s.rt q).nprecursor ≠ 0 then rerrList b₁ false q else b₁
    Mid s p (done ++ [q]) { b₂ with s := precursorListDestroy b₂.s q } := by
  have hdown := kept_invalidate e hlinked
  have hrt : (rtTableInvalidate e b.s q).rt q = down (s.rt q) := by
    rw [rt_invalidate, if_pos rfl, hsame]
  have hother (q' : Ptr) (hq' : q' ≠ q) : (rtTableInvalidate e b.s q).rt q' = b.s.rt q' :=
    rt_invalidate_ne e b.s hq'
  have hlisting : Lists false _ { b with s := rtTableInvalidate e b.s q } :=
    h.listing.same rfl rfl (sendBuf_invalidate e b.s q)
  dsimp only
  rw [hrt, down_nprecursor]
  split
  next hsome =>
    have hyes : lists s p q = true := by
      rw [lists, hover, Bool.eq_false_of_not_eq_true hrepair, decide_eq_true hsome]
      rfl
    have hadd := hlisting.add q
    have hlist := kept_rerrList ⟨rtTableInvalidate e b.s q, b.rerr, b.unicast⟩ false q
    refine h.turn hne (hdown.trans (hlist.trans (kept_precursorListDestroy _ q)))
      (fun q' hq' => ?_) ?_ ?_ ((invalidate_said e b.s q).trans (.same (trace_rerrList _ false q)))
    · rw [rt_destroy, if_neg hq', rt_rerrList]
      exact hother q' hq'
    · rw [other, if_pos hover, if_neg hrepair, rt_destroy, if_pos rfl, rt_rerrList]
      exact congrArg Report.forsaken hrt
    · rw [List.filter_append, List.filter_singleton, hyes, ← List.append_assoc, List.map_append]
      rw [hrt] at hadd
      exact hadd.same rfl rfl rfl
  next hnone =>
    have hno : lists s p q = false := by
      rw [lists, decide_eq_false hnone, Bool.and_false]
    refine h.turn hne (hdown.trans (kept_precursorListDestroy _ q))
      (fun q' hq' => ?_) ?_ ?_ ((invalidate_said e b.s q).trans (.same rfl))
    · rw [rt_destroy, if_neg hq']
      exact hother q' hq'
    · rw [other, if_pos hover, if_neg hrepair, rt_destroy, if_pos rfl]
      exact congrArg Report.forsaken hrt
    · rw [unlisted hno]
      exact hlisting.same rfl rfl rfl

theorem mid_step {done : List Ptr} {b : RerrBuild} (h : Mid s p done b) {q : Ptr}
    (hq : q ∉ done) (hlinked : Linked s.rtTbl q) :
    Mid s p (done ++ [q]) (linkBreakStep e p b q) := by
  by_cases hne : q = p
  · -- the neighbour's own entry does not route over the link
    have hno : usesLink b.s p q = false := by
      rw [hne]
      exact usesLink_self b.s p
    rw [linkBreakStep, hno]
    refine ⟨h.frame, h.self, fun q' hq' hne' => ?_, fun q' hq' hne' => ?_, ?_, h.said⟩
    · rcases List.mem_append.1 hq' with hmem | hmem
      · exact h.turned q' hmem hne'
      · exact absurd ((List.mem_singleton.1 hmem).trans hne) hne'
    · exact h.waiting q' (fun hmem => hq' (List.mem_append_left _ hmem)) hne'
    · rw [hne, unlisted (not_reported_self s p)]
      exact h.listing
  · obtain ⟨hsame, huses, hkeeps⟩ := h.judges hq hne
    have hlinked' : Linked b.s.rtTbl q := (h.frame.keys.linked q).2 hlinked
    rw [linkBreakStep, huses]
    dsimp only
    rw [hkeeps]
    split
    next hover =>
      split
      next hrepair => exact h.repaired hne hlinked' hsame hover hrepair
      next hrepair => exact h.forsaken hne hlinked' hsame hover hrepair
    next hover =>
      have hno : lists s p q = false := by simp [lists, hover]
      refine h.turn hne .refl (fun _ _ => rfl) ?_ ?_ (.same rfl)
      · rw [other, if_neg hover, hsame]
      · rw [unlisted hno]
        exact h.listing

theorem mid_loop (hp : Linked s.rtTbl p) (l : List Ptr) (hn : l.Nodup)
    (hl : ∀ q ∈ l, Linked s.rtTbl q) :
    Mid s p l (l.foldl (linkBreakStep e p) (linkBreakSelf e s p)) := by
  induction l using List.reverseRecOn with
  | nil => exact mid_self hp
  | append_singleton done q ih =>
      have hq : q ∉ done := by
        intro hmem
        exact (List.nodup_append.1 hn).2.2 q hmem q List.mem_cons_self rfl
      rw [List.foldl_append]
      apply mid_step _ hq (hl q (List.mem_append_right done List.mem_cons_self))
      exact ih (List.nodup_append.1 hn).1 fun q' hq' => hl q' (List.mem_append_left _ hq')

def built (e : Env) (s : Daemon) (p : Ptr) : RerrBuild :=
  s.linked.foldl (linkBreakStep e p) (linkBreakSelf e s p)

theorem linkBreak_eq (hp : Linked s.rtTbl p) (hhop : (s.rt p).hopcnt = 1) :
    neighborLinkBreak e s p = linkBreakSend e (built e s p) := by
  have hlinked : (linkBreakSelf e s p).s.linked = s.linked := (mid_self hp).frame.keys.entries
  rw [neighborLinkBreak, if_neg (not_not_intro hhop), built, ← hlinked]

theorem mid_built (hs : TableWf s.rtTbl s.brk) (hp : Linked s.rtTbl p) :
    Mid s p s.linked (built e s p) :=
  mid_loop hp s.linked hs.entries_nodup fun q hq => (mem_linked s q).1 hq

theorem lists_built (hs : TableWf s.rtTbl s.brk) (hp : Linked s.rtTbl p) :
    Lists false (report s p) (built e s p) := (mid_built hs hp).listing

theorem rt_linkBreakSend (b : RerrBuild) (q : Ptr) : (linkBreakSend e b).rt q = b.s.rt q := by
  rw [linkBreakSend]
  cases b.rerr <;> rfl

theorem rt_linkBreak (hs : TableWf s.rtTbl s.brk) (hp : Linked s.rtTbl p)
    (hhop : (s.rt p).hopcnt = 1) (q : Ptr) : (neighborLinkBreak e s p).rt q =
      if q = p then own s p else if q ∈ s.linked then other s p q else s.rt q := by
  have hmid := mid_built (e := e) hs hp
  rw [linkBreak_eq hp hhop, rt_linkBreakSend]
  split
  next heq =>
    rw [heq]
    exact hmid.self
  next hne =>
    split
    next hq => exact hmid.turned q hq hne
    next hq => exact hmid.waiting q hq hne

def message (l : List RtEntry) : RERR × Addr × Int :=
  (⟨false, pairs l⟩, addressee l, rerrCalcSize (BitVec.ofNat 8 l.length))

/-- A link break hands over the RERR of the entries it reports, if any. -/
theorem rerrs_linkBreak (hs : TableWf s.rtTbl s.brk) (hp : Linked s.rtTbl p)
    (hhop : (s.rt p).hopcnt = 1) : rerrs (neighborLinkBreak e s p).trace =
      (if report s p = [] then [] else [message (report s p)]) ++ rerrs s.trace := by
  have hlists := lists_built (e := e) hs hp
  have hsaid := rerrs_of_said ((mid_built (e := e) hs hp).said.mono fun _ => .route)
  have hrerr := hlists.rerr
  rw [linkBreak_eq hp hhop, linkBreakSend]
  split at hrerr
  next hnil =>
    rw [hrerr, hnil, if_pos rfl, List.nil_append]
    exact hsaid
  next hsome =>
    have hcount := (hlists.building _ hrerr).count
    have hlen : (pairs (report s p)).length = (report s p).length := List.length_map _
    rw [hrerr, if_neg hsome, List.singleton_append, message, addressee, ← hlists.unicast,
      ← hlen, ← hcount, ← hsaid]
    rfl

theorem carries_linkBreak (hs : TableWf s.rtTbl s.brk) (hp : Linked s.rtTbl p)
    (hhop : (s.rt p).hopcnt = 1) (hsome : report s p ≠ []) (hfew : (report s p).length ≤ 127) :
    Carries (neighborLinkBreak e s p) (.rerr (message (report s p)).1) (message (report s p)).2.2 := by
  have hlists := lists_built (e := e) hs hp
  have hrerr := hlists.rerr
  rw [if_neg hsome] at hrerr
  have hwritten := hlists.building _ hrerr
  have hlen : (pairs (report s p)).length = (report s p).length := List.length_map _
  have hcarries := hwritten.carries (by rw [hlen]; exact hfew)
  rw [hwritten.count, hlen] at hcarries
  rw [linkBreak_eq hp hhop, linkBreakSend, hrerr]
  exact hcarries

/-- The entries that have gone from VALID to INVALID. -/
def TakenDown (s s' : Daemon) (q : Ptr) : Prop :=
  Linked s.rtTbl q ∧ (s.rt q).state = .valid ∧ (s'.rt q).state = .invalid

/-- The entries the link break of p has to take down. -/
def affected (s : Daemon) (p : Ptr) : List Ptr :=
  s.linked.filter fun q => decide (q = p) || usesLink s p q

theorem mem_reported (q : Ptr) : q ∈ reported s p ↔
    (q = p ∧ (s.rt p).nprecursor ≠ 0 ∧ (s.rt p).flags.repair = false) ∨
      (Linked s.rtTbl q ∧ lists s p q = true) := by
  have hown : q ∈ reportsOwn s p ↔
      q = p ∧ (s.rt p).nprecursor ≠ 0 ∧ (s.rt p).flags.repair = false := by
    rw [reportsOwn]
    split
    next h => exact ⟨fun hq => ⟨List.mem_singleton.1 hq, h⟩, fun hq => List.mem_singleton.2 hq.1⟩
    next h => exact iff_of_false List.not_mem_nil fun hq => h hq.2
  rw [reported, List.mem_append, hown, List.mem_filter, mem_linked]

theorem reported_nodup (hs : TableWf s.rtTbl s.brk) : (reported s p).Nodup := by
  apply List.Nodup.append
  · rw [reportsOwn]
    split
    · exact List.nodup_singleton p
    · exact List.nodup_nil
  · exact hs.entries_nodup.filter _
  · intro q hown hother
    have hq : q = p := by
      rw [reportsOwn] at hown
      split at hown
      · exact List.mem_singleton.1 hown
      · exact absurd hown List.not_mem_nil
    have hlists := (List.mem_filter.1 hother).2
    rw [hq, not_reported_self] at hlists
    cases hlists

theorem reported_few (hs : TableWf s.rtTbl s.brk) (hp : Linked s.rtTbl p) :
    (report s p).length ≤ (affected s p).length := by
  have hsub : reported s p ⊆ affected s p := by
    intro q hq
    rw [affected, List.mem_filter, Bool.or_eq_true, decide_eq_true_eq]
    rcases (mem_reported q).1 hq with ⟨heq, _⟩ | ⟨hlinked, hlists⟩
    · exact ⟨(mem_linked s q).2 (heq ▸ hp), .inl heq⟩
    · simp only [lists, Bool.and_eq_true] at hlists
      exact ⟨(mem_linked s q).2 hlinked, .inr hlists.1.1⟩
  rw [report, List.length_map]
  exact (List.subperm_of_subset (reported_nodup hs) hsub).length_le

theorem other_state (q : Ptr) : (other s p q).state =
    if usesLink s p q then .invalid else (s.rt q).state := by
  rw [other]
  split
  · split
    · exact down_state _
    · exact down_state _
  · rfl

theorem reported_rt (hs : TableWf s.rtTbl s.brk) (hp : Linked s.rtTbl p)
    (hhop : (s.rt p).hopcnt = 1) {q : Ptr} (hq : q ∈ reported s p) :
    (neighborLinkBreak e s p).rt q = forsaken (down (s.rt q)) := by
  rw [rt_linkBreak hs hp hhop]
  rcases (mem_reported q).1 hq with ⟨heq, _, hrepair⟩ | ⟨hlinked, hlists⟩
  · rw [if_pos heq, heq, own, hrepair]
    rfl
  · have hne : q ≠ p := by
      rintro rfl
      rw [not_reported_self] at hlists
      cases hlists
    simp only [lists, Bool.and_eq_true, Bool.not_eq_true'] at hlists
    obtain ⟨⟨huses, hkept⟩, _⟩ := hlists
    rw [if_neg hne, if_pos ((mem_linked s q).2 hlinked), other, huses, hkept]
    rfl

/-- What is handed over about the entries of l, when s becomes s': nothing if
there are none, else one RERR with their addresses and numbers. -/
structure Reports (s s' : Daemon) (l : List Ptr) : Prop where
  none : l = [] → rerrs s'.trace = rerrs s.trace
  one : l ≠ [] → ∃ dest len,
    let m : RERR := ⟨false, l.map fun q => ((s.rt q).destAddr, (s'.rt q).destSeqno)⟩
    rerrs s'.trace = (m, dest, len) :: rerrs s.trace ∧ Carries s' (.rerr m) len ∧
      (∀ a, Sole (l.map s.rt) a → dest = a) ∧
      ((¬ ∃ a, Sole (l.map s.rt) a) → dest = aodvBroadcast)
  seqnos : ∀ q ∈ l, (s'.rt q).destSeqno = seqnoIncr (s.rt q).destSeqno

section Exact

variable (hs : TableWf s.rtTbl s.brk) (hproper : ∀ q, Linked s.rtTbl q → Proper (s.rt q))
  (hp : Linked s.rtTbl p) (hhop : (s.rt p).hopcnt = 1)
include hs hproper hp hhop

theorem reported_iff (hv : (s.rt p).state = .valid) (hrepair : ∀ q, Linked s.rtTbl q → q ≠ p →
    (s.rt q).state = .valid → (s.rt q).flags.repair = false) (q : Ptr) :
    q ∈ reported s p ↔ TakenDown s (neighborLinkBreak e s p) q ∧ (s.rt q).precursors ≠ [] ∧
      ((neighborLinkBreak e s p).rt q).flags.repair = false := by
  by_cases hlinked : Linked s.rtTbl q
  · have hsome : (s.rt q).precursors ≠ [] ↔ (s.rt q).nprecursor ≠ 0 :=
      not_congr (hproper q hlinked).none_iff.symm
    rw [mem_reported, TakenDown, rt_linkBreak hs hp hhop, hsome]
    by_cases hqp : q = p
    · rw [hqp, if_pos rfl, own_state, own_flags, not_reported_self]
      simp [hp, hv]
    · rw [if_neg hqp, if_pos ((mem_linked s q).2 hlinked), other_state, lists]
      cases huses : usesLink s p q with
      | false =>
          -- an entry that does not route over the link keeps its state
          have hsame : ¬ ((s.rt q).state = .valid ∧ (s.rt q).state = .invalid) := by
            rintro ⟨hvalid, hinvalid⟩
            rw [hvalid] at hinvalid
            cases hinvalid
          simp only [Bool.false_eq_true, if_false, Bool.false_and, and_false, or_false]
          exact iff_of_false (fun h => hqp h.1) fun h => hsame h.1.2
      | true =>
          have hvalid : (s.rt q).state = .valid := by
            simp only [usesLink, decide_eq_true_eq] at huses
            exact huses.1
          rw [other, huses]
          cases hkept : kept s p q with
          | false =>
              have hflags : (forsaken (down (s.rt q))).flags.repair = false := by
                change (down (s.rt q)).flags.repair = false
                rw [down_flags]
                exact hrepair q hlinked hqp hvalid
              simp [hqp, hlinked, hvalid, hflags]
          | true => simp [hqp]
  · refine iff_of_false (fun hq => ?_) fun h => hlinked h.1.1
    rcases (mem_reported q).1 hq with ⟨heq, _⟩ | ⟨hmem, _⟩
    · exact hlinked (heq ▸ hp)
    · exact hlinked hmem

theorem reports_linkBreak (hv : (s.rt p).state = .valid) (hfew : (report s p).length ≤ 127) :
    Reports s (neighborLinkBreak e s p) (reported s p) := by
  have hlinked (q : Ptr) (hq : q ∈ reported s p) : Linked s.rtTbl q := by
    rcases (mem_reported q).1 hq with ⟨heq, _⟩ | ⟨hmem, _⟩
    · exact heq ▸ hp
    · exact hmem
  have hvalid (q : Ptr) (hq : q ∈ reported s p) : (s.rt q).state = .valid := by
    rcases (mem_reported q).1 hq with ⟨heq, _⟩ | ⟨_, hlists⟩
    · exact heq ▸ hv
    · simp only [lists, usesLink, Bool.and_eq_true, decide_eq_true_eq] at hlists
      exact hlists.1.1.1
  have hsome (q : Ptr) (hq : q ∈ reported s p) : (s.rt q).nprecursor ≠ 0 := by
    rcases (mem_reported q).1 hq with ⟨heq, hn, _⟩ | ⟨_, hlists⟩
    · exact heq ▸ hn
    · simp only [lists, Bool.and_eq_true, decide_eq_true_eq] at hlists
      exact hlists.2
  have hseqno (q : Ptr) (hq : q ∈ reported s p) :
      ((neighborLinkBreak e s p).rt q).destSeqno = (down (s.rt q)).destSeqno := by
    rw [reported_rt hs hp hhop hq]
    rfl
  have hnil : report s p = [] ↔ reported s p = [] := List.map_eq_nil_iff
  have hrerrs := rerrs_linkBreak (e := e) hs hp hhop
  refine ⟨fun hl => ?_, fun hl => ?_, fun q hq => ?_⟩
  · rw [hrerrs, if_pos (hnil.2 hl), List.nil_append]
  · have hne : report s p ≠ [] := fun h => hl (hnil.1 h)
    have hpairs : pairs (report s p) = (reported s p).map fun q =>
        ((s.rt q).destAddr, ((neighborLinkBreak e s p).rt q).destSeqno) := by
      rw [pairs, report, List.map_map]
      apply List.map_congr_left
      intro q hq
      rw [Function.comp_apply, down_destAddr, hseqno q hq]
    have hcounted : ∀ r ∈ report s p, Counted r := by
      intro r hr
      obtain ⟨q, hq, rfl⟩ := List.mem_map.1 hr
      exact (hproper q (hlinked q hq)).toCounted.congr (down_precursors _) (down_nprecursor _)
    have hnonzero : ∀ r ∈ report s p, r.nprecursor ≠ 0 := by
      intro r hr
      obtain ⟨q, hq, rfl⟩ := List.mem_map.1 hr
      rw [down_nprecursor]
      exact hsome q hq
    have hsole (a : Addr) : Sole ((reported s p).map s.rt) a ↔ Sole (report s p) a := by
      simp only [Sole, report, List.forall_mem_map, down_precursors]
    refine ⟨addressee (report s p), (message (report s p)).2.2, ?_, ?_, fun a ha => ?_,
      fun hno => ?_⟩
    · rw [hrerrs, if_neg hne, message, hpairs]
      rfl
    · have hcarries := carries_linkBreak (e := e) hs hp hhop hne hfew
      rw [message, hpairs] at hcarries
      exact hcarries
    · apply addressee_sole hcounted hnonzero hne _ ((hsole a).1 ha)
      rintro rfl
      obtain ⟨q, hq⟩ := List.exists_mem_of_ne_nil _ hl
      have hprec := ha (s.rt q) (List.mem_map_of_mem hq)
      exact (hproper q (hlinked q hq)).nonzero (hprec ▸ List.mem_singleton_self 0)
    · exact addressee_many hcounted hnonzero fun a ha => hno ⟨a, (hsole a).2 ha⟩
  · rw [hseqno q hq, down, hvalid q hq]

end Exact

/-- A link break is complete and its RERR exact. -/
theorem link_break_exact (e : Env) {s : Daemon} (hs : TableWf s.rtTbl s.brk)
    (hproper : ∀ q, Linked s.rtTbl q → Proper (s.rt q)) {p : Ptr} (hp : Linked s.rtTbl p)
    (hv : (s.rt p).state = .valid) (hhop : (s.rt p).hopcnt = 1)
    (hrepair : ∀ q, Linked s.rtTbl q → q ≠ p → (s.rt q).state = .valid →
      (s.rt q).flags.repair = false) (hfew : (affected s p).length ≤ 127) :
    let s' := neighborLinkBreak e s p
    s'.rtTbl.tbl = s.rtTbl.tbl ∧ (s'.rt p).state = .invalid ∧
      (∀ q, Linked s'.rtTbl q → (s'.rt q).state = .valid →
        (s'.rt q).nextHop ≠ (s.rt p).destAddr) ∧
      (∀ q, q ≠ p → ((s.rt q).state ≠ .valid ∨ (s.rt q).nextHop ≠ (s.rt p).destAddr) →
        s'.rt q = s.rt q) ∧
      ∃ l : List Ptr, l.Nodup ∧ (∀ q, q ∈ l ↔
        TakenDown s s' q ∧ (s.rt q).precursors ≠ [] ∧ (s'.rt q).flags.repair = false) ∧
        Reports s s' l := by
  intro s'
  have hkeys := (lb_kept (lb_linkBreak e hp)).keys
  have hrt (q : Ptr) : s'.rt q =
      if q = p then own s p else if q ∈ s.linked then other s p q else s.rt q :=
    rt_linkBreak hs hp hhop q
  refine ⟨hkeys.tbl, ?_, fun q hq hvalid hnext => ?_, fun q hne hout => ?_, reported s p,
    reported_nodup hs, reported_iff hs hproper hp hhop hv hrepair,
    reports_linkBreak hs hproper hp hhop hv ((reported_few hs hp).trans hfew)⟩
  · rw [hrt, if_pos rfl, own_state]
  · have hlinked := (hkeys.linked q).1 hq
    rw [hrt] at hvalid hnext
    by_cases hqp : q = p
    · rw [if_pos hqp, own_state] at hvalid
      cases hvalid
    · rw [if_neg hqp, if_pos ((mem_linked s q).2 hlinked)] at hvalid hnext
      rw [other_state] at hvalid
      split at hvalid
      · cases hvalid
      next huses =>
        rw [other, if_neg huses] at hnext
        have hdest : (s.rt q).destAddr ≠ (s.rt p).destAddr := fun heq =>
          hqp (hs.dests q p hlinked hp heq)
        apply huses
        rw [usesLink, decide_eq_true_eq]
        exact ⟨hvalid, hnext, hdest⟩
  · rw [hrt, if_neg hne]
    split
    · rw [other, if_neg]
      intro huses
      simp only [usesLink, decide_eq_true_eq] at huses
      exact hout.elim (fun h => h huses.1) fun h => h huses.2.1
    · rfl

def asked : Packet :=
  .of (.rreq ⟨false, false, false, false, false, 0, 1, 0x0900000a, 0, 0x0300000a, 5⟩) 0x0300000a
    aodvBroadcast 5 (fits_rreq _)

def answered : Packet :=
  .of (.rrep ⟨false, false, 0, 1, 0x0900000a, 7, 0x0300000a, 60000⟩) 0x0200000a 0x0100000a 5
    (fits_rrep _)

def carrying : Daemon :=
  run plain (init plain 0x0100000a 0xff00000a 2) [.recv asked, .recv answered]

theorem link_break_exact_carrying :
    let s' := neighborLinkBreak plain carrying 2
    ∃ l : List Ptr, l.Nodup ∧ (∀ q, q ∈ l ↔ TakenDown carrying s' q ∧
      (carrying.rt q).precursors ≠ [] ∧ (s'.rt q).flags.repair = false) ∧
      Reports carrying s' l := by
  have hreach : Reachable plain carrying := ⟨0x0100000a, 0xff00000a, 2, _, rfl⟩
  have hs : TableWf carrying.rtTbl carrying.brk := (Aodv.Reachable.resting hreach).wellFormed.table
  have hall : (∀ q ∈ carrying.linked, (carrying.rt q).precursors.Nodup ∧
      (carrying.rt q).nprecursor.toNat = (carrying.rt q).precursors.length ∧
      (0 : Addr) ∉ (carrying.rt q).precursors ∧ (carrying.rt q).flags.repair = false) ∧
      2 ∈ carrying.linked ∧ (carrying.rt 2).state = .valid ∧ (carrying.rt 2).hopcnt = 1 ∧
      (affected carrying 2).length ≤ 127 := by
    decide +kernel
  obtain ⟨hlists, hp, hv, hhop, hfew⟩ := hall
  have hproper (q : Ptr) (hq : Linked carrying.rtTbl q) : Proper (carrying.rt q) := by
    obtain ⟨hnodup, hcounts, hnonzero, _⟩ := hlists q ((mem_linked _ q).2 hq)
    exact ⟨⟨hnodup, hcounts⟩, hnonzero⟩
  exact (link_break_exact plain hs hproper ((mem_linked _ 2).1 hp) hv hhop
    (fun q hq _ _ => (hlists q ((mem_linked _ q).2 hq)).2.2.2) hfew).2.2.2.2

end Aodv.Report
