import Aodv.Trace

namespace Aodv.Report

open Lib.Bytes

def down (r : RtEntry) : RtEntry :=
  match r.state with
  | .invalid => r
  | .valid => { r with
      state := .invalid, helloCnt := 0, destSeqno := seqnoIncr r.destSeqno, lastHelloTime := ⟨0, 0⟩ }

def forsaken (r : RtEntry) : RtEntry := { r with
  precursors := [], nprecursor := r.nprecursor - BitVec.ofNat 32 r.precursors.length }

theorem rt_invalidate (e : Env) (s : Daemon) (p q : Ptr) :
    (rtTableInvalidate e s p).rt q = if q = p then down (s.rt p) else s.rt q := by
  split
  next h =>
    subst q
    cases hv : (s.rt p).state with
    | invalid =>
        rw [invalidate_invalid e s hv, down, hv]
        rfl
    | valid =>
        rw [Daemon.rt, rt_invalidate_valid e hv, down, hv]
        exact Function.update_self ..
  next h => exact rt_invalidate_ne e s h

theorem rt_destroy (s : Daemon) (p q : Ptr) :
    (precursorListDestroy s p).rt q = if q = p then forsaken (s.rt p) else s.rt q := by
  rw [precursorListDestroy]
  split
  next h =>
    subst q
    exact rt_setRt_self s p _
  next h => exact rt_setRt_ne s _ h

theorem rt_rerrList (b : RerrBuild) (n : Bool) (p q : Ptr) :
    (rerrList b n p).s.rt q = b.s.rt q := by
  rw [Daemon.rt, tbl_rerrList]
  rfl

theorem kept_rerrList (b : RerrBuild) (n : Bool) (p : Ptr) : Kept b.s (rerrList b n p).s := by
  rw [rerrList]
  cases b.rerr with
  | none => exact Kept.write b.s _
  | some m => exact Kept.write b.s _

@[simp] theorem down_destAddr (r : RtEntry) : (down r).destAddr = r.destAddr := by
  rw [down]
  cases r.state <;> rfl

@[simp] theorem down_flags (r : RtEntry) : (down r).flags = r.flags := by
  rw [down]
  cases r.state <;> rfl

@[simp] theorem down_precursors (r : RtEntry) : (down r).precursors = r.precursors := by
  rw [down]
  cases r.state <;> rfl

@[simp] theorem down_nprecursor (r : RtEntry) : (down r).nprecursor = r.nprecursor := by
  rw [down]
  cases r.state <;> rfl

@[simp] theorem down_state (r : RtEntry) : (down r).state = .invalid := by
  rw [down]
  cases h : r.state with
  | invalid => exact h
  | valid => rfl

/-- A later entry keeps the destination unless it has another precursor. -/
def narrow (u : Addr) (r : RtEntry) : Addr :=
  if u ≠ 0 ∧ r.precursors.any (· ≠ u) then 0 else u

def target : List RtEntry → Addr
  | [] => 0
  | r :: rest => rest.foldl narrow (if r.nprecursor = 1 then firstPrec r else 0)

theorem narrow_foldl (rest : List RtEntry) (u : Addr) :
    rest.foldl narrow u = if ∀ r ∈ rest, ∀ a ∈ r.precursors, a = u then u else 0 := by
  have hzero (rest : List RtEntry) : rest.foldl narrow 0 = 0 := by
    induction rest with
    | nil => rfl
    | cons r rest ih =>
        rw [List.foldl_cons, narrow, if_neg (by simp), ih]
  induction rest with
  | nil => simp
  | cons r rest ih =>
      rw [List.foldl_cons, narrow]
      by_cases hu : u = 0
      · rw [if_neg (by simp [hu]), hu, hzero]
        split <;> rfl
      · by_cases hr : ∀ a ∈ r.precursors, a = u
        · have hany : r.precursors.any (· ≠ u) = false := by
            simpa using hr
          have hall : (∀ r' ∈ r :: rest, ∀ a ∈ r'.precursors, a = u) ↔
              ∀ r' ∈ rest, ∀ a ∈ r'.precursors, a = u := by
            rw [List.forall_mem_cons]
            exact and_iff_right hr
          have hsame : ¬ (u ≠ 0 ∧ r.precursors.any (· ≠ u) = true) := by
            rintro ⟨_, hother⟩
            rw [hany] at hother
            cases hother
          rw [if_neg hsame, ih, if_congr hall rfl rfl]
        · have hany : r.precursors.any (· ≠ u) = true := by
            simpa using hr
          rw [if_pos ⟨hu, hany⟩, hzero, if_neg]
          exact fun hall => hr (hall r List.mem_cons_self)

/-- A list of distinct precursors and a counter that counts them. -/
structure Counted (r : RtEntry) : Prop where
  nodup : r.precursors.Nodup
  counts : r.nprecursor.toNat = r.precursors.length

/-- Besides, no precursor is 0. -/
structure Proper (r : RtEntry) : Prop extends Counted r where
  nonzero : (0 : Addr) ∉ r.precursors

theorem Counted.none_iff {r : RtEntry} (h : Counted r) : r.nprecursor = 0 ↔ r.precursors = [] := by
  have hcounts := h.counts
  constructor
  · intro hzero
    rw [hzero] at hcounts
    exact List.length_eq_zero_iff.1 hcounts.symm
  · intro hnil
    apply BitVec.eq_of_toNat_eq
    rw [hcounts, hnil]
    rfl

theorem Counted.one_iff {r : RtEntry} (h : Counted r) :
    r.nprecursor = 1 ↔ ∃ a, r.precursors = [a] := by
  have hcounts := h.counts
  rw [← List.length_eq_one_iff, ← hcounts]
  constructor
  · intro hone
    rw [hone]
    rfl
  · intro hone
    exact BitVec.eq_of_toNat_eq hone

theorem Counted.congr {r r' : RtEntry} (h : Counted r) (hl : r'.precursors = r.precursors)
    (hn : r'.nprecursor = r.nprecursor) : Counted r' := by
  constructor
  · rw [hl]
    exact h.nodup
  · rw [hl, hn]
    exact h.counts

def Sole (l : List RtEntry) (a : Addr) : Prop := ∀ r ∈ l, r.precursors = [a]

theorem eq_singleton {l : List Addr} {a : Addr} (hn : l.Nodup) (hl : l ≠ [])
    (h : ∀ b ∈ l, b = a) : l = [a] := by
  obtain ⟨b, rest, rfl⟩ := List.exists_cons_of_ne_nil hl
  have hb := h b List.mem_cons_self
  have hrest : rest = [] := by
    rw [List.eq_nil_iff_forall_not_mem]
    intro c hc
    have hcb : c = b := (h c (List.mem_cons_of_mem b hc)).trans hb.symm
    exact (List.nodup_cons.1 hn).1 (hcb ▸ hc)
  rw [hb, hrest]

/-- The destination is the one precursor that the entries share, or 0. -/
theorem target_eq {l : List RtEntry} (hcounted : ∀ r ∈ l, Counted r)
    (hsome : ∀ r ∈ l, r.nprecursor ≠ 0) {a : Addr} (ha : a ≠ 0) :
    target l = a ↔ l ≠ [] ∧ Sole l a := by
  cases l with
  | nil => exact iff_of_false (fun h => ha h.symm) (by simp)
  | cons r rest =>
      have hr := hcounted r List.mem_cons_self
      have hfirst : (if r.nprecursor = 1 then firstPrec r else 0) = a ↔ r.precursors = [a] := by
        constructor
        · intro h
          split at h
          next hone =>
            obtain ⟨b, hb⟩ := hr.one_iff.1 hone
            rw [firstPrec, hb] at h
            rw [hb]
            exact congrArg (fun x => [x]) h
          next hother => exact absurd h.symm ha
        · intro h
          rw [if_pos (hr.one_iff.2 ⟨a, h⟩), firstPrec, h]
          rfl
      rw [target, narrow_foldl]
      constructor
      · intro h
        by_cases hall : ∀ r' ∈ rest, ∀ b ∈ r'.precursors,
            b = if r.nprecursor = 1 then firstPrec r else 0
        · rw [if_pos hall] at h
          refine ⟨List.cons_ne_nil _ _, fun r' hr' => ?_⟩
          rcases List.mem_cons.1 hr' with rfl | hmem
          · exact hfirst.1 h
          · have hcounted' := hcounted r' hr'
            apply eq_singleton hcounted'.nodup
            · exact fun hnil => hsome r' hr' (hcounted'.none_iff.2 hnil)
            · intro b hb
              rw [← h]
              exact hall r' hmem b hb
        · rw [if_neg hall] at h
          exact absurd h.symm ha
      · rintro ⟨-, hsole⟩
        have hhead := hfirst.2 (hsole r List.mem_cons_self)
        rw [hhead, if_pos]
        intro r' hr' b hb
        rw [hsole r' (List.mem_cons_of_mem r hr')] at hb
        exact List.mem_singleton.1 hb

def addressee (l : List RtEntry) : Addr := if target l ≠ 0 then target l else aodvBroadcast

theorem addressee_sole {l : List RtEntry} (hcounted : ∀ r ∈ l, Counted r)
    (hsome : ∀ r ∈ l, r.nprecursor ≠ 0) (hl : l ≠ []) {a : Addr} (ha : a ≠ 0) (h : Sole l a) :
    addressee l = a := by
  have htarget := (target_eq hcounted hsome ha).2 ⟨hl, h⟩
  rw [addressee, htarget, if_pos ha]

theorem addressee_many {l : List RtEntry} (hcounted : ∀ r ∈ l, Counted r)
    (hsome : ∀ r ∈ l, r.nprecursor ≠ 0) (h : ∀ a, ¬ Sole l a) : addressee l = aodvBroadcast := by
  rw [addressee, if_neg]
  intro hne
  exact h _ ((target_eq hcounted hsome hne).1 rfl).2

def pairs (l : List RtEntry) : List (Addr × U32) := l.map fun r => (r.destAddr, r.destSeqno)

/-- The locals of a loop that has listed these entries. -/
structure Lists (n : Bool) (l : List RtEntry) (b : RerrBuild) : Prop where
  rerr : b.rerr = if l = [] then none else some ⟨n, pairs l⟩
  unicast : b.unicast = target l
  building : Building b

theorem Lists.same {n : Bool} {l : List RtEntry} {b b' : RerrBuild} (h : Lists n l b)
    (hr : b'.rerr = b.rerr) (hu : b'.unicast = b.unicast) (hs : b'.s.sendBuf = b.s.sendBuf) :
    Lists n l b' :=
  ⟨hr.trans h.rerr, hu.trans h.unicast, h.building.same hr hs⟩

theorem Lists.add {n : Bool} {l : List RtEntry} {b : RerrBuild} (h : Lists n l b) (p : Ptr) :
    Lists n (l ++ [b.s.rt p]) (rerrList b n p) := by
  have hrerr := h.rerr
  have hunicast := h.unicast
  cases hl : l with
  | nil =>
      rw [hl] at hrerr hunicast
      have hnone : b.rerr = none := hrerr
      rw [rerrList, hnone]
      refine ⟨rfl, ?_, ?_⟩
      · change (if (b.s.rt p).nprecursor = 1 then firstPrec (b.s.rt p) else b.unicast) =
          if (b.s.rt p).nprecursor = 1 then firstPrec (b.s.rt p) else 0
        rw [hunicast]
        rfl
      · rintro m ⟨⟩
        exact written_create b.s n _ _
  | cons r rest =>
      rw [hl] at hrerr hunicast
      have hsome : b.rerr = some ⟨n, pairs (r :: rest)⟩ := hrerr
      rw [rerrList, hsome]
      refine ⟨?_, ?_, ?_⟩
      · change some (rerrAddUdest b.s ⟨n, pairs (r :: rest)⟩ _ _).2 = _
        have hne : r :: rest ++ [b.s.rt p] ≠ [] := List.cons_ne_nil r _
        rw [if_neg hne]
        simp only [rerrAddUdest, pairs, List.map_append, List.map_singleton]
      · change narrow b.unicast (b.s.rt p) = List.foldl narrow _ (rest ++ [b.s.rt p])
        rw [List.foldl_append, hunicast]
        rfl
      · rintro m ⟨⟩
        exact written_add (h.building _ hsome) _ _

def rerrs (tr : List Obs) : List (RERR × Addr × Int) := tr.filterMap fun
  | .socketSend (.rerr m) dest len _ _ => some (m, dest, len)
  | _ => none

theorem rerrs_append (tr tr' : List Obs) : rerrs (tr ++ tr') = rerrs tr ++ rerrs tr' :=
  List.filterMap_append

inductive LoopObs : Obs → Prop
  | route {o : Obs} (h : RouteObs o) : LoopObs o
  | rerrSeqno (p : Ptr) (old : RtEntry) (seqno : U32) : LoopObs (.rerrSeqno p old seqno)

theorem rerrs_of_said {s s' : Daemon} (h : Said LoopObs s s') : rerrs s'.trace = rerrs s.trace := by
  obtain ⟨l, htr, hl⟩ := h
  have hnone : rerrs l = [] := by
    rw [rerrs, List.filterMap_eq_nil_iff]
    intro o ho
    cases hl o ho with
    | route h => cases h <;> rfl
    | rerrSeqno => rfl
  rw [htr, rerrs_append, hnone, List.nil_append]

end Aodv.Report
