import Mathlib.Data.List.Chain
import Mathlib.Data.List.Nodup
import Mathlib.Logic.Function.Basic

namespace Aodv.Lib.Rings

variable {α : Type}

/-- The two link fields of every node, with none for a null pointer. -/
structure Links (α : Type) where
  prev : α → Option α
  next : α → Option α

def Joined (h : Links α) (x y : α) : Prop := h.next x = some y ∧ h.prev y = some x

/-- The nodes of a circular list, from any of them on. -/
def Ring (h : Links α) (c : List α) : Prop := (c ++ c.head?.toList).IsChain (Joined h)

def Loose (h : Links α) (x : α) : Prop := h.prev x = none ∧ h.next x = none

section Rings

variable {h h' : Links α} {x y : α} {u v c : List α}

theorem ring_cons : Ring h (x :: u) ↔ (x :: u ++ [x]).IsChain (Joined h) := Iff.rfl

theorem ring_singleton : Ring h [x] ↔ h.next x = some x ∧ h.prev x = some x := by
  rw [ring_cons]
  exact List.isChain_pair

theorem ring_arcs : Ring h (x :: u ++ y :: v) ↔
    (x :: u ++ [y]).IsChain (Joined h) ∧ (y :: v ++ [x]).IsChain (Joined h) := by
  have hround : x :: u ++ y :: v ++ [x] = (x :: u) ++ y :: (v ++ [x]) := by simp
  rw [Ring, List.cons_append, List.head?_cons, Option.toList_some, ← List.cons_append, hround]
  exact List.isChain_split

theorem ring_rotate : Ring h (u ++ v) ↔ Ring h (v ++ u) := by
  cases u with
  | nil => rw [List.nil_append, List.append_nil]
  | cons x u =>
      cases v with
      | nil => rw [List.nil_append, List.append_nil]
      | cons y v => rw [ring_arcs, ring_arcs, and_comm]

/-- An arc reads the next field of its nodes but the last, and the prev field of
its nodes but the first. -/
theorem arc_congr (hnext : ∀ x ∈ c.dropLast, h'.next x = h.next x)
    (hprev : ∀ y ∈ c.tail, h'.prev y = h.prev y) (hc : c.IsChain (Joined h)) :
    c.IsChain (Joined h') := by
  induction c with
  | nil => exact List.isChain_nil
  | cons x c ih =>
      cases c with
      | nil => exact List.isChain_singleton x
      | cons y c =>
          obtain ⟨⟨hxy, hyx⟩, hc⟩ := List.isChain_cons_cons.1 hc
          refine List.isChain_cons_cons.2 ⟨⟨?_, ?_⟩, ih (fun z hz => ?_) (fun z hz => ?_) hc⟩
          · rw [hnext x List.mem_cons_self, hxy]
          · rw [hprev y List.mem_cons_self, hyx]
          · exact hnext z (List.mem_cons_of_mem _ hz)
          · exact hprev z (List.mem_cons_of_mem _ hz)

theorem ring_congr (hnext : ∀ x ∈ c, h'.next x = h.next x) (hprev : ∀ x ∈ c, h'.prev x = h.prev x)
    (hc : Ring h c) : Ring h' c := by
  cases c with
  | nil => exact List.isChain_nil
  | cons x c =>
      rw [ring_cons] at hc ⊢
      refine arc_congr (fun z hz => ?_) (fun z hz => ?_) hc
      · rw [List.dropLast_concat] at hz
        exact hnext z hz
      · refine hprev z ?_
        rw [List.cons_append, List.tail_cons, List.mem_append, List.mem_singleton] at hz
        exact List.mem_cons.2 hz.symm

theorem ring_next (hc : Ring h (x :: c)) : h.next x = (c ++ [x]).head? := by
  rw [ring_cons, List.cons_append] at hc
  cases c with
  | nil => exact (List.isChain_pair.1 hc).1
  | cons y c => exact (List.isChain_cons_cons.1 hc).1.1

theorem ring_prev (hc : Ring h (x :: c)) : h.prev x = (x :: c).getLast? := by
  rw [ring_cons] at hc
  obtain ⟨-, -, hlast⟩ := List.isChain_append.1 hc
  have hmem : (x :: c).getLast (List.cons_ne_nil x c) ∈ (x :: c).getLast? := by
    rw [List.getLast?_eq_some_getLast (List.cons_ne_nil x c)]
    rfl
  rw [(hlast _ hmem x rfl).2, List.getLast?_eq_some_getLast]

section Members

variable {head : α} {l : List α}

theorem ring_member (hc : Ring h (head :: (u ++ x :: v))) : Ring h (x :: (v ++ head :: u)) := by
  rw [← List.cons_append] at hc
  exact ring_rotate.1 hc

theorem next_member (hc : Ring h (head :: (u ++ x :: v))) : h.next x = (v ++ [head]).head? := by
  rw [ring_next (ring_member hc)]
  cases v <;> rfl

theorem prev_member (hc : Ring h (head :: (u ++ x :: v))) : h.prev x = (head :: u).getLast? := by
  rw [ring_prev (ring_member hc), ← List.cons_append, List.getLast?_append_cons]

theorem joined_at {a b : α} (hc : Ring h (head :: (u ++ v))) (ha : (head :: u).getLast? = some a)
    (hb : (v ++ [head]).head? = some b) : Joined h a b := by
  obtain ⟨q, hq⟩ : ∃ q, head :: u = q ++ [a] := List.getLast?_eq_some_iff.1 ha
  obtain ⟨w, hw⟩ : ∃ w, v ++ [head] = b :: w := List.head?_eq_some_iff.1 hb
  have hround : head :: (u ++ v) ++ [head] = q ++ a :: b :: w := by
    rw [← List.cons_append, List.append_assoc, hw, hq, List.append_assoc]
    rfl
  rw [ring_cons, hround, List.isChain_append_cons_cons] at hc
  exact hc.2.1

end Members

end Rings

variable [DecidableEq α]

structure Inserted (h h' : Links α) (a n b : α) : Prop where
  next : h'.next = Function.update (Function.update h.next a (some n)) n (some b)
  prev : h'.prev = Function.update (Function.update h.prev b (some n)) n (some a)

structure Removed (h h' : Links α) (a n b : α) : Prop where
  next : h'.next = Function.update (Function.update h.next a (some b)) n none
  prev : h'.prev = Function.update (Function.update h.prev b (some a)) n none

section Change

variable {h h' : Links α} {a n b x : α} {u v c : List α}

theorem Inserted.next_ne (hi : Inserted h h' a n b) (ha : x ≠ a) (hn : x ≠ n) :
    h'.next x = h.next x := by
  rw [hi.next, Function.update_of_ne hn, Function.update_of_ne ha]

theorem Inserted.prev_ne (hi : Inserted h h' a n b) (hb : x ≠ b) (hn : x ≠ n) :
    h'.prev x = h.prev x := by
  rw [hi.prev, Function.update_of_ne hn, Function.update_of_ne hb]

theorem Removed.next_ne (hr : Removed h h' a n b) (ha : x ≠ a) (hn : x ≠ n) :
    h'.next x = h.next x := by
  rw [hr.next, Function.update_of_ne hn, Function.update_of_ne ha]

theorem Removed.prev_ne (hr : Removed h h' a n b) (hb : x ≠ b) (hn : x ≠ n) :
    h'.prev x = h.prev x := by
  rw [hr.prev, Function.update_of_ne hn, Function.update_of_ne hb]

theorem Removed.loose (hr : Removed h h' a n b) : Loose h' n := by
  constructor
  · rw [hr.prev, Function.update_self]
  · rw [hr.next, Function.update_self]

theorem ring_inserted (hc : Ring h (a :: u)) (hnodup : (a :: u).Nodup) (hn : n ∉ a :: u)
    (hb : (u ++ [a]).head? = some b) (hi : Inserted h h' a n b) : Ring h' (a :: n :: u) := by
  have hna : n ≠ a := fun heq => hn (heq ▸ List.mem_cons_self)
  obtain ⟨q, hq⟩ : ∃ q, u ++ [a] = b :: q := List.head?_eq_some_iff.1 hb
  have hmem : ∀ z ∈ b :: q, z ≠ n := by
    rintro z hz rfl
    rw [← hq, List.mem_append, List.mem_singleton] at hz
    exact hn (List.mem_cons.2 hz.symm)
  have hnodup' : (b :: q).Nodup := by
    rw [← hq]
    have hsplit : ([a] ++ u).Nodup := hnodup
    exact List.nodup_append_comm.1 hsplit
  rw [ring_cons, List.cons_append, hq] at hc
  rw [ring_cons, List.cons_append, List.cons_append, hq]
  obtain ⟨-, hchain⟩ := List.isChain_cons_cons.1 hc
  refine List.isChain_cons_cons.2 ⟨⟨?_, ?_⟩, List.isChain_cons_cons.2 ⟨⟨?_, ?_⟩, ?_⟩⟩
  · rw [hi.next, Function.update_of_ne hna.symm, Function.update_self]
  · rw [hi.prev, Function.update_self]
  · rw [hi.next, Function.update_self]
  · rw [hi.prev, Function.update_of_ne (hmem b List.mem_cons_self), Function.update_self]
  · refine arc_congr (fun z hz => ?_) (fun z hz => ?_) hchain
    · refine hi.next_ne (fun heq => ?_) (hmem z (List.dropLast_subset _ hz))
      rw [← hq, List.dropLast_concat] at hz
      exact (List.nodup_cons.1 hnodup).1 (heq ▸ hz)
    · refine hi.prev_ne (fun heq => ?_) (hmem z (List.mem_cons_of_mem _ hz))
      exact (List.nodup_cons.1 hnodup').1 (heq ▸ hz)

theorem ring_removed (hc : Ring h (n :: b :: u)) (hnodup : (n :: b :: u).Nodup)
    (ha : (b :: u).getLast? = some a) (hr : Removed h h' a n b) : Ring h' (b :: u) := by
  obtain ⟨q, hq⟩ : ∃ q, b :: u = q ++ [a] := List.getLast?_eq_some_iff.1 ha
  obtain ⟨hn, hnodup⟩ := List.nodup_cons.1 hnodup
  have hmem : ∀ z ∈ b :: u, z ≠ n := by
    rintro z hz rfl
    exact hn hz
  have hchain : (b :: u ++ [n]).IsChain (Joined h) := (List.isChain_cons_cons.1 (ring_cons.1 hc)).2
  have harc : (b :: u).IsChain (Joined h') := by
    refine arc_congr (fun z hz => ?_) (fun z hz => ?_) hchain.left_of_append
    · refine hr.next_ne (fun heq => ?_) (hmem z (List.dropLast_subset _ hz))
      rw [hq] at hz hnodup
      rw [List.dropLast_concat] at hz
      exact List.disjoint_of_nodup_append hnodup (heq ▸ hz) (List.mem_singleton.2 rfl)
    · refine hr.prev_ne (fun heq => ?_) (hmem z (List.mem_cons_of_mem _ hz))
      exact (List.nodup_cons.1 hnodup).1 (heq ▸ hz)
  rw [ring_cons]
  refine harc.append (List.isChain_singleton b) fun x hx y hy => ?_
  rw [ha] at hx
  obtain rfl : a = x := by simpa using hx
  obtain rfl : b = y := by simpa using hy
  have han : a ≠ n := hmem a (by rw [hq]; exact List.mem_append.2 (.inr (List.mem_singleton.2 rfl)))
  constructor
  · rw [hr.next, Function.update_of_ne han, Function.update_self]
  · rw [hr.prev, Function.update_of_ne (hmem b List.mem_cons_self), Function.update_self]

end Change

omit [DecidableEq α] in
def nodes (rs : List (α × List α)) : List α := rs.flatMap fun r => r.1 :: r.2

section Nodes

variable {rs rs' : List (α × List α)} {head n x : α} {l : List α}

omit [DecidableEq α] in
theorem nodes_cons : nodes ((head, l) :: rs) = head :: l ++ nodes rs := List.flatMap_cons

omit [DecidableEq α] in
theorem mem_nodes {r : α × List α} (hr : r ∈ rs) (hx : x ∈ r.1 :: r.2) : x ∈ nodes rs :=
  List.mem_flatMap.2 ⟨r, hr, hx⟩

omit [DecidableEq α] in
theorem nodes_perm (hp : rs.Perm rs') : x ∈ nodes rs ↔ x ∈ nodes rs' := (hp.flatMap_right _).mem_iff

def edit (rs : List (α × List α)) (head : α) (l : List α) : List (α × List α) :=
  rs.map fun r => if r.1 = head then (r.1, l) else r

def without (rs : List (α × List α)) (n : α) : List (α × List α) :=
  rs.map fun r => (r.1, r.2.filter (· ≠ n))

theorem edit_of_notMem (hhead : head ∉ nodes rs) : edit rs head l = rs := by
  rw [edit]
  refine (List.map_congr_left fun r hr => ?_).trans (List.map_id rs)
  refine if_neg fun heq => hhead (mem_nodes hr ?_)
  rw [← heq]
  exact List.mem_cons_self

theorem without_of_notMem (hn : n ∉ nodes rs) : without rs n = rs := by
  rw [without]
  refine (List.map_congr_left fun r hr => ?_).trans (List.map_id rs)
  have hkeep : r.2.filter (· ≠ n) = r.2 := by
    refine List.filter_eq_self.2 fun x hx => decide_eq_true fun heq => hn (mem_nodes hr ?_)
    rw [← heq]
    exact List.mem_cons_of_mem _ hx
  rw [hkeep]
  rfl

end Nodes

/-- The heap has these circular lists, and no node is in two of them. -/
structure Holds (h : Links α) (rs : List (α × List α)) : Prop where
  nodup : (nodes rs).Nodup
  ring : ∀ r ∈ rs, Ring h (r.1 :: r.2)

namespace Holds

variable {h h' : Links α} {rs rs' : List (α × List α)} {head a n b x : α} {u v l : List α}

omit [DecidableEq α] in
theorem perm (hh : Holds h rs) (hp : rs.Perm rs') : Holds h rs' :=
  ⟨(hp.flatMap_right _).nodup_iff.1 hh.nodup, fun r hr => hh.ring r (hp.mem_iff.2 hr)⟩

omit [DecidableEq α] in
theorem rest (hh : Holds h ((head, l) :: rs)) : Holds h rs := by
  refine ⟨?_, fun r hr => hh.ring r (List.mem_cons_of_mem _ hr)⟩
  have hnodup := hh.nodup
  rw [nodes_cons] at hnodup
  exact hnodup.of_append_right

omit [DecidableEq α] in
theorem congr (hh : Holds h rs) (hnext : ∀ x ∈ nodes rs, h'.next x = h.next x)
    (hprev : ∀ x ∈ nodes rs, h'.prev x = h.prev x) : Holds h' rs :=
  ⟨hh.nodup, fun r hr => ring_congr (fun x hx => hnext x (mem_nodes hr hx))
    (fun x hx => hprev x (mem_nodes hr hx)) (hh.ring r hr)⟩

omit [DecidableEq α] in
theorem empty (hh : Holds h rs) (hn : head ∉ nodes rs) (hnext : h.next head = some head)
    (hprev : h.prev head = some head) : Holds h ((head, []) :: rs) := by
  refine ⟨?_, fun r hr => ?_⟩
  · rw [nodes_cons]
    exact List.nodup_cons.2 ⟨hn, hh.nodup⟩
  · rcases List.mem_cons.1 hr with rfl | hr
    · exact ring_singleton.2 ⟨hnext, hprev⟩
    · exact hh.ring r hr

omit [DecidableEq α] in
theorem others (hh : Holds h ((head, l) :: rs)) (hx : x ∈ head :: l) : x ∉ nodes rs := by
  have hnodup := hh.nodup
  rw [nodes_cons] at hnodup
  exact List.disjoint_of_nodup_append hnodup hx

omit [DecidableEq α] in
theorem next_of_mem (hh : Holds h rs) (hx : x ∈ nodes rs) : ∃ y, h.next x = some y := by
  obtain ⟨r, hr, hx⟩ := List.mem_flatMap.1 hx
  have hring := hh.ring r hr
  obtain ⟨u, v, huv⟩ := List.mem_iff_append.1 hx
  rw [huv] at hring
  rw [ring_next (ring_rotate.1 hring), List.head?_eq_some_head]
  · exact ⟨_, rfl⟩
  · exact List.append_ne_nil_of_right_ne_nil _ (List.cons_ne_nil x [])

omit [DecidableEq α] in
theorem not_mem_of_loose (hh : Holds h rs) (hx : Loose h x) : x ∉ nodes rs := by
  intro hmem
  obtain ⟨y, hy⟩ := hh.next_of_mem hmem
  rw [hx.2] at hy
  cases hy

theorem inserted (hh : Holds h ((head, u ++ v) :: rs)) (hn : n ∉ nodes ((head, u ++ v) :: rs))
    (ha : (head :: u).getLast? = some a) (hb : (v ++ [head]).head? = some b)
    (hi : Inserted h h' a n b) : Holds h' ((head, u ++ n :: v) :: rs) := by
  obtain ⟨q, hq⟩ : ∃ q, head :: u = q ++ [a] := List.getLast?_eq_some_iff.1 ha
  obtain ⟨w, hw⟩ : ∃ w, v ++ [head] = b :: w := List.head?_eq_some_iff.1 hb
  have hring := hh.ring _ List.mem_cons_self
  have hnodup := hh.nodup
  rw [nodes_cons] at hn hnodup
  have hlist := hnodup.of_append_left
  have hamem : a ∈ head :: (u ++ v) := by
    rw [← List.cons_append, hq]
    simp
  have hbmem : b ∈ head :: (u ++ v) := by
    have hb' : b ∈ v ++ [head] := by simp [hw]
    rw [List.mem_append, List.mem_singleton] at hb'
    rcases hb' with hb' | rfl
    · simp [hb']
    · simp
  have hne {x : α} (hx : x ∈ nodes rs) : x ≠ a ∧ x ≠ n ∧ x ≠ b := by
    refine ⟨?_, ?_, ?_⟩
    · rintro rfl
      exact hh.others hamem hx
    · rintro rfl
      exact hn (List.mem_append.2 (.inr hx))
    · rintro rfl
      exact hh.others hbmem hx
  have hrest : Holds h' rs := hh.rest.congr (fun x hx => hi.next_ne (hne hx).1 (hne hx).2.1)
    fun x hx => hi.prev_ne (hne hx).2.2 (hne hx).2.1
  have hperm : (head :: (u ++ n :: v)).Perm (n :: (head :: (u ++ v))) := by
    rw [← List.cons_append, ← List.cons_append]
    exact List.perm_middle
  refine ⟨?_, fun r hr => ?_⟩
  · rw [nodes_cons]
    refine ((hperm.append_right _).nodup_iff).2 ?_
    rw [List.cons_append]
    exact List.nodup_cons.2 ⟨hn, hnodup⟩
  · rcases List.mem_cons.1 hr with rfl | hr
    · have hcycle : Ring h (a :: (v ++ q)) := by
        rw [← List.cons_append, hq, List.append_assoc, List.singleton_append] at hring
        exact ring_rotate.1 hring
      have hnodup' : (a :: (v ++ q)).Nodup ∧ n ∉ a :: (v ++ q) := by
        have hp : (head :: (u ++ v)).Perm (a :: (v ++ q)) := by
          rw [← List.cons_append, hq, List.append_assoc, List.singleton_append]
          exact List.perm_append_comm
        exact ⟨hp.nodup_iff.1 hlist, fun hmem => hn (List.mem_append.2 (.inl (hp.mem_iff.2 hmem)))⟩
      have hb' : (v ++ q ++ [a]).head? = some b := by
        rw [List.append_assoc, ← hq]
        cases v with
        | nil =>
            rw [List.nil_append, List.cons.injEq] at hw
            rw [List.nil_append, List.head?_cons, hw.1]
        | cons y v =>
            rw [List.cons_append, List.cons.injEq] at hw
            rw [List.cons_append, List.head?_cons, hw.1]
      have hdone := ring_inserted hcycle hnodup'.1 hnodup'.2 hb' hi
      rw [← List.cons_append, hq, List.append_assoc, List.singleton_append]
      exact ring_rotate.1 hdone
    · exact hrest.ring r hr

theorem removed (hh : Holds h ((head, u ++ n :: v) :: rs)) (ha : h.prev n = some a)
    (hb : h.next n = some b) (hr : Removed h h' a n b) : Holds h' ((head, u ++ v) :: rs) := by
  have hring := hh.ring _ List.mem_cons_self
  have hcycle := ring_member hring
  have hnodup := hh.nodup
  rw [nodes_cons] at hnodup
  rw [prev_member hring] at ha
  rw [ring_next hcycle] at hb
  obtain ⟨q, hq⟩ : ∃ q, head :: u = q ++ [a] := List.getLast?_eq_some_iff.1 ha
  obtain ⟨w, hw⟩ : ∃ w, v ++ head :: u = b :: w := by
    cases v with
    | nil => exact ⟨u, by rw [List.nil_append] at hb ⊢; rw [← Option.some.inj hb]⟩
    | cons y v => exact ⟨v ++ head :: u, by rw [← Option.some.inj hb]; rfl⟩
  have hperm : (head :: (u ++ n :: v)).Perm (n :: (head :: (u ++ v))) := by
    rw [← List.cons_append, ← List.cons_append]
    exact List.perm_middle
  have hlist := hperm.nodup_iff.1 hnodup.of_append_left
  have hperm' : (n :: (head :: (u ++ v))).Perm (n :: b :: w) := by
    rw [← hw, ← List.cons_append]
    exact List.perm_append_comm.cons n
  have hmem {x : α} (hx : x ∈ n :: b :: w) : x ∉ nodes rs :=
    hh.others (hperm.mem_iff.2 (hperm'.mem_iff.2 hx))
  have hlast : (b :: w).getLast? = some a := by
    rw [← hw, hq, ← List.append_assoc, List.getLast?_concat]
  have hamem : a ∈ b :: w := List.mem_of_getLast? hlast
  have hne {x : α} (hx : x ∈ nodes rs) : x ≠ a ∧ x ≠ n ∧ x ≠ b := by
    refine ⟨?_, ?_, ?_⟩
    · rintro rfl
      exact hmem (List.mem_cons_of_mem _ hamem) hx
    · rintro rfl
      exact hmem List.mem_cons_self hx
    · rintro rfl
      exact hmem (List.mem_cons_of_mem _ List.mem_cons_self) hx
  have hrest : Holds h' rs := hh.rest.congr (fun x hx => hr.next_ne (hne hx).1 (hne hx).2.1)
    fun x hx => hr.prev_ne (hne hx).2.2 (hne hx).2.1
  refine ⟨?_, fun r hmemr => ?_⟩
  · rw [nodes_cons]
    refine ((hperm.append_right _).nodup_iff.1 hnodup).of_cons
  · rcases List.mem_cons.1 hmemr with rfl | hmemr
    · rw [hw] at hcycle
      have hdone := ring_removed hcycle (hperm'.nodup_iff.1 hlist) hlast hr
      rw [← hw] at hdone
      exact ring_rotate.1 hdone
    · exact hrest.ring r hmemr

omit [DecidableEq α] in
theorem split (hh : Holds h rs) (hmem : (head, l) ∈ rs) :
    ∃ s t, rs = s ++ (head, l) :: t ∧ Holds h ((head, l) :: (s ++ t)) := by
  obtain ⟨s, t, hst⟩ := List.mem_iff_append.1 hmem
  refine ⟨s, t, hst, hh.perm ?_⟩
  rw [hst]
  exact List.perm_middle

theorem edited (hh : Holds h rs) (hmem : (head, l) ∈ rs) :
    ∃ rest, Holds h ((head, l) :: rest) ∧ (∀ x, x ∈ nodes rs ↔ x ∈ nodes ((head, l) :: rest)) ∧
      ∀ l', ((head, l') :: rest).Perm (edit rs head l') := by
  obtain ⟨s, t, hst, hsplit⟩ := hh.split hmem
  refine ⟨s ++ t, hsplit, fun x => nodes_perm ?_, fun l' => ?_⟩
  · rw [hst]
    exact List.perm_middle
  · have hothers : head ∉ nodes (s ++ t) := hsplit.others List.mem_cons_self
    have hst' : edit rs head l' = s ++ (head, l') :: t := by
      have hs : edit (s ++ t) head l' = s ++ t := edit_of_notMem hothers
      rw [edit, List.map_append] at hs
      obtain ⟨hs, ht⟩ := List.append_inj hs (List.length_map _)
      rw [hst, edit, List.map_append, List.map_cons, if_pos rfl, hs, ht]
    rw [hst']
    exact List.perm_middle.symm

theorem insert_at (hh : Holds h rs) (hmem : (head, u ++ v) ∈ rs) (hn : n ∉ nodes rs)
    (ha : (head :: u).getLast? = some a) (hb : (v ++ [head]).head? = some b)
    (hi : Inserted h h' a n b) : Holds h' (edit rs head (u ++ n :: v)) := by
  obtain ⟨rest, hrest, hnodes, hperm⟩ := hh.edited hmem
  rw [hnodes] at hn
  exact (hrest.inserted hn ha hb hi).perm (hperm _)

theorem remove_at (hh : Holds h rs) (hmem : (head, u ++ n :: v) ∈ rs) (ha : h.prev n = some a)
    (hb : h.next n = some b) (hr : Removed h h' a n b) : Holds h' (without rs n) := by
  obtain ⟨s, t, hst, hsplit⟩ := hh.split hmem
  have hnmem : n ∈ head :: (u ++ n :: v) := by simp
  have hothers : n ∉ nodes (s ++ t) := hsplit.others hnmem
  have hnodup := hsplit.nodup
  rw [nodes_cons] at hnodup
  have hlist : n ∉ u ++ v := by
    have hl := (List.nodup_cons.1 hnodup.of_append_left).2
    exact (List.nodup_cons.1 (List.perm_middle.nodup_iff.1 hl)).1
  have hkeep : (u ++ n :: v).filter (· ≠ n) = u ++ v := by
    have hself : (u ++ v).filter (· ≠ n) = u ++ v :=
      List.filter_eq_self.2 fun x hx => decide_eq_true fun heq => hlist (heq ▸ hx)
    rw [List.filter_append] at hself
    rw [List.filter_append, List.filter_cons_of_neg (by simp), hself]
  have hdone : without rs n = s ++ (head, u ++ v) :: t := by
    have hs : without (s ++ t) n = s ++ t := without_of_notMem hothers
    rw [without, List.map_append] at hs
    obtain ⟨hs, ht⟩ := List.append_inj hs (List.length_map _)
    rw [hst, without, List.map_append, List.map_cons, hs, ht, hkeep]
  rw [hdone]
  exact (hsplit.removed ha hb hr).perm List.perm_middle.symm

end Holds

/-- A loop along one of the two links, up to the first node that passes the test:
the node at which it ends, which is the head when none does. Without a
result it has met a null pointer or run for n turns. -/
def seek (step : α → Option α) (head : α) (stop : α → Bool) : Nat → Option α → Option α
  | 0, _ => none
  | _ + 1, none => none
  | n + 1, some x =>
      if x = head then some head
      else if stop x then some x
      else seek step head stop n (step x)

theorem seek_ends (step : α → Option α) (head : α) (stop : α → Bool) (l : List α) {n : Nat}
    (hstep : ∀ u x v, l = u ++ x :: v → step x = (v ++ [head]).head?) (hhead : head ∉ l)
    (hn : l.length < n) :
    seek step head stop n (l ++ [head]).head? = some ((l.find? stop).getD head) := by
  induction l generalizing n with
  | nil =>
      cases n with
      | zero => exact absurd hn (Nat.not_lt_zero _)
      | succ n => rw [List.nil_append, List.head?_cons, seek, if_pos rfl]; rfl
  | cons x l ih =>
      cases n with
      | zero => exact absurd hn (Nat.not_lt_zero _)
      | succ n =>
          have hx : x ≠ head := fun heq => hhead (heq ▸ List.mem_cons_self)
          rw [List.cons_append, List.head?_cons, seek, if_neg hx, List.find?_cons]
          cases hstop : stop x with
          | true => rw [if_pos rfl]; rfl
          | false =>
              rw [if_neg Bool.false_ne_true, hstep [] x l rfl]
              refine ih (fun u y v heq => hstep (x :: u) y v (by rw [heq]; rfl)) (fun hmem => ?_)
                (Nat.lt_of_succ_lt_succ hn)
              exact hhead (List.mem_cons_of_mem _ hmem)

/-- A loop that reads the next node before its body runs, which may take its own
node off the list. The body says whether the loop goes on. -/
def forEachSafe {σ : Type} (links : σ → Links α) (head : α) (body : α → σ → Option (σ × Bool)) :
    Nat → Option α → Option α → σ → Option σ
  | 0, _, _, _ => none
  | _ + 1, none, _, _ => none
  | n + 1, some x, tmp, s =>
      if x = head then some s
      else
        match body x s with
        | none => none
        | some (s', false) => some s'
        | some (s', true) =>
            forEachSafe links head body n tmp (tmp.bind (links s').next) s'

/-- P speaks about the members that are still to come, Q about the end of the loop. -/
theorem forEachSafe_ends {σ : Type} (links : σ → Links α) (head : α)
    (body : α → σ → Option (σ × Bool)) (P : List α → σ → Prop) (Q : σ → Prop)
    (hbody : ∀ x l s, P (x :: l) s → x ≠ head ∧ (links s).next x = (l ++ [head]).head? ∧
      ∃ s' go, body x s = some (s', go) ∧ (go = true → P l s') ∧ (go = false → Q s'))
    (hend : ∀ s, P [] s → Q s) {l : List α} {s : σ} (hs : P l s) {n : Nat} (hn : l.length < n) :
    ∃ s', forEachSafe links head body n (l ++ [head]).head?
      ((l ++ [head]).head?.bind (links s).next) s = some s' ∧ Q s' := by
  induction l generalizing n s with
  | nil =>
      cases n with
      | zero => exact absurd hn (Nat.not_lt_zero _)
      | succ n =>
          refine ⟨s, ?_, hend s hs⟩
          rw [List.nil_append, List.head?_cons, forEachSafe, if_pos rfl]
  | cons x l ih =>
      cases n with
      | zero => exact absurd hn (Nat.not_lt_zero _)
      | succ n =>
          obtain ⟨hx, hnext, s', go, hdone, hgo, hstop⟩ := hbody x l s hs
          rw [List.cons_append, List.head?_cons, forEachSafe, if_neg hx, hdone, Option.bind_some,
            hnext]
          cases go with
          | false => exact ⟨s', rfl, hstop rfl⟩
          | true => exact ih (hgo rfl) (Nat.lt_of_succ_lt_succ hn)

end Aodv.Lib.Rings
