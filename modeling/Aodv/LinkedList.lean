import Aodv.Lib.Rings

namespace Aodv.LinkedList

open Lib.Rings

variable {α : Type} [DecidableEq α]

def setPrev (h : Links α) (x : α) (y : Option α) : Links α :=
  { h with prev := Function.update h.prev x y }

def setNext (h : Links α) (x : α) (y : Option α) : Links α :=
  { h with next := Function.update h.next x y }

def listInitHead (h : Links α) (head : α) : Links α :=
  setPrev (setNext h head (some head)) head (some head)

def listInitHeadNull (h : Links α) (head : α) : Links α :=
  setPrev (setNext h head none) head none

def listIsEmpty (h : Links α) (head : α) : Bool :=
  decide (h.prev head = some head ∧ h.next head = some head)

def listUnattached (h : Links α) (head : α) : Bool :=
  decide (h.prev head = none ∧ h.next head = none)

def listInsert (h : Links α) (node prev next : α) : Links α :=
  let h := setNext (setPrev h next (some node)) prev (some node)
  setNext (setPrev h node (some prev)) node (some next)

def listAdd (h : Links α) (head node : α) : Option (Links α) :=
  (h.next head).map fun next => listInsert h node head next

def listPushFront (h : Links α) (head node : α) : Option (Links α) :=
  (h.next head).map fun next => listInsert h node head next

def listPushBack (h : Links α) (head node : α) : Option (Links α) :=
  (h.prev head).map fun prev => listInsert h node prev head

def listDelete (h : Links α) (prev next : α) : Links α :=
  setPrev (setNext h prev (some next)) next (some prev)

def listRemove (h : Links α) (node : α) : Option (Links α) :=
  match h.prev node, h.next node with
  | some prev, some next =>
      some (setPrev (setNext (listDelete h prev next) node none) node none)
  | _, _ => none

section Functions

variable {h h' : Links α} {rs : List (α × List α)} {head a n b x : α} {u v l : List α}

theorem inserted_listInsert (h : Links α) (n a b : α) : Inserted h (listInsert h n a b) a n b :=
  ⟨rfl, rfl⟩

theorem removed_listRemove (ha : h.prev n = some a) (hb : h.next n = some b) :
    ∃ h', listRemove h n = some h' ∧ Removed h h' a n b := by
  refine ⟨_, by rw [listRemove, ha, hb], rfl, rfl⟩

omit [DecidableEq α] in
theorem ends_mem (ha : (head :: u).getLast? = some a) (hb : (v ++ [head]).head? = some b) :
    a ∈ head :: (u ++ v) ∧ b ∈ head :: (u ++ v) := by
  constructor
  · have hmem := List.mem_of_getLast? ha
    rw [← List.cons_append]
    exact List.mem_append.2 (.inl hmem)
  · have hmem := List.mem_of_head? hb
    rcases List.mem_append.1 hmem with hmem | hmem
    · exact List.mem_cons_of_mem _ (List.mem_append.2 (.inr hmem))
    · rw [List.mem_singleton.1 hmem]
      exact List.mem_cons_self

theorem holds_initHead (hh : Holds h rs) (hn : head ∉ nodes rs) :
    Holds (listInitHead h head) ((head, []) :: rs) := by
  have hmem {x : α} (hx : x ∈ nodes rs) : x ≠ head := fun heq => hn (heq ▸ hx)
  refine Holds.empty (hh.congr (fun x hx => ?_) fun x hx => ?_) hn ?_ ?_
  · exact Function.update_of_ne (hmem hx) _ _
  · exact Function.update_of_ne (hmem hx) _ _
  · exact Function.update_self _ _ _
  · exact Function.update_self _ _ _

theorem loose_initHead (hx : x ≠ head) (hl : Loose h x) : Loose (listInitHead h head) x :=
  ⟨(Function.update_of_ne hx _ _).trans hl.1, (Function.update_of_ne hx _ _).trans hl.2⟩

theorem holds_initHeadNull (hh : Holds h rs) (hn : n ∉ nodes rs) :
    Holds (listInitHeadNull h n) rs := by
  have hmem {x : α} (hx : x ∈ nodes rs) : x ≠ n := fun heq => hn (heq ▸ hx)
  refine hh.congr (fun x hx => ?_) fun x hx => ?_
  · exact Function.update_of_ne (hmem hx) _ _
  · exact Function.update_of_ne (hmem hx) _ _

theorem loose_initHeadNull (hl : x = n ∨ Loose h x) : Loose (listInitHeadNull h n) x := by
  by_cases hx : x = n
  · subst hx
    exact ⟨Function.update_self _ _ _, Function.update_self _ _ _⟩
  · have hloose := hl.resolve_left hx
    exact ⟨(Function.update_of_ne hx _ _).trans hloose.1,
      (Function.update_of_ne hx _ _).trans hloose.2⟩

omit [DecidableEq α] in
theorem head_notMem (hh : Holds h rs) (hmem : (head, l) ∈ rs) : head ∉ l := by
  obtain ⟨s, t, -, hsplit⟩ := hh.split hmem
  have hnodup := hsplit.nodup
  rw [nodes_cons] at hnodup
  exact (List.nodup_cons.1 hnodup.of_append_left).1

theorem isEmpty_iff (hh : Holds h rs) (hmem : (head, l) ∈ rs) :
    listIsEmpty h head = true ↔ l = [] := by
  have hring := hh.ring _ hmem
  rw [listIsEmpty, decide_eq_true_eq, ring_prev hring, ring_next hring]
  cases l with
  | nil => simp
  | cons x l =>
      refine iff_of_false (fun heq => head_notMem hh hmem ?_) (List.cons_ne_nil x l)
      have hx : x = head := Option.some.inj heq.2
      rw [hx]
      exact List.mem_cons_self

theorem loose_inserted (hx : x ∉ nodes rs) (hmem : (head, u ++ v) ∈ rs)
    (ha : (head :: u).getLast? = some a) (hb : (v ++ [head]).head? = some b)
    (hi : Inserted h h' a n b) (hn : x ≠ n) (hl : Loose h x) : Loose h' x := by
  obtain ⟨hamem, hbmem⟩ := ends_mem ha hb
  have hxa : x ≠ a := fun heq => hx (heq ▸ mem_nodes hmem hamem)
  have hxb : x ≠ b := fun heq => hx (heq ▸ mem_nodes hmem hbmem)
  exact ⟨(hi.prev_ne hxb hn).trans hl.1, (hi.next_ne hxa hn).trans hl.2⟩

theorem loose_removed (hx : x ∉ nodes rs) (hmem : (head, u ++ n :: v) ∈ rs)
    (ha : (head :: u).getLast? = some a) (hb : (v ++ [head]).head? = some b)
    (hr : Removed h h' a n b) (hl : Loose h x) : Loose h' x := by
  have hsub {y : α} (hy : y ∈ head :: (u ++ v)) : x ≠ y := by
    rintro rfl
    refine hx (mem_nodes hmem ?_)
    rcases List.mem_cons.1 hy with rfl | hy
    · exact List.mem_cons_self
    · refine List.mem_cons_of_mem _ (List.mem_append.2 ?_)
      exact (List.mem_append.1 hy).imp id (List.mem_cons_of_mem _)
  obtain ⟨hamem, hbmem⟩ := ends_mem ha hb
  have hxn : x ≠ n := by
    rintro rfl
    exact hx (mem_nodes hmem (by simp))
  exact ⟨(hr.prev_ne (hsub hbmem) hxn).trans hl.1, (hr.next_ne (hsub hamem) hxn).trans hl.2⟩

end Functions

/-- What the callers have made of their nodes: the lists, and the nodes that are
marked as unattached. -/
structure Lists (α : Type) where
  lists : List (α × List α)
  loose : List α

inductive Call (α : Type)
  | initHead (head : α)
  | initHeadNull (node : α)
  | add (head node : α)
  | pushFront (head node : α)
  | pushBack (head node : α)
  | remove (node : α)

def call (h : Links α) : Call α → Option (Links α)
  | .initHead head => some (listInitHead h head)
  | .initHeadNull node => some (listInitHeadNull h node)
  | .add head node => listAdd h head node
  | .pushFront head node => listPushFront h head node
  | .pushBack head node => listPushBack h head node
  | .remove node => listRemove h node

namespace Lists

variable (m : Lists α)

def members (head : α) : List α :=
  ((m.lists.find? fun r => decide (r.1 = head)).map Prod.snd).getD []

def call : Call α → Lists α
  | .initHead head => ⟨(head, []) :: m.lists, m.loose.filter (· ≠ head)⟩
  | .initHeadNull node => ⟨m.lists, node :: m.loose⟩
  | .add head node | .pushFront head node =>
      ⟨edit m.lists head (node :: m.members head), m.loose.filter (· ≠ node)⟩
  | .pushBack head node =>
      ⟨edit m.lists head (m.members head ++ [node]), m.loose.filter (· ≠ node)⟩
  | .remove node => ⟨without m.lists node, node :: m.loose⟩

end Lists

/-- A node is initialised, as a head or as a single node, and put on a list only
while it is on none, and only a member of a list is taken off. -/
def Call.Allowed (m : Lists α) : Call α → Prop
  | .initHead head => head ∉ nodes m.lists
  | .initHeadNull node => node ∉ nodes m.lists
  | .add head node | .pushFront head node | .pushBack head node =>
      head ∈ m.lists.map Prod.fst ∧ node ∉ nodes m.lists
  | .remove node => ∃ r ∈ m.lists, node ∈ r.2

instance (m : Lists α) : (c : Call α) → Decidable (c.Allowed m)
  | .initHead head => inferInstanceAs (Decidable (head ∉ nodes m.lists))
  | .initHeadNull node => inferInstanceAs (Decidable (node ∉ nodes m.lists))
  | .add head node | .pushFront head node | .pushBack head node =>
      inferInstanceAs (Decidable (head ∈ m.lists.map Prod.fst ∧ node ∉ nodes m.lists))
  | .remove node => inferInstanceAs (Decidable (∃ r ∈ m.lists, node ∈ r.2))

def Permitted : Lists α → List (Call α) → Prop
  | _, [] => True
  | m, c :: cs => c.Allowed m ∧ Permitted (m.call c) cs

instance decidablePermitted : (m : Lists α) → (cs : List (Call α)) → Decidable (Permitted m cs)
  | _, [] => inferInstanceAs (Decidable True)
  | m, c :: cs =>
      have := decidablePermitted (m.call c) cs
      inferInstanceAs (Decidable (c.Allowed m ∧ Permitted (m.call c) cs))

structure Represents (h : Links α) (m : Lists α) : Prop where
  holds : Holds h m.lists
  loose : ∀ x ∈ m.loose, x ∉ nodes m.lists ∧ Loose h x

def removeAll (p : α → Bool) (head : α) (n : Nat) (h : Links α) : Option (Links α) :=
  forEachSafe id head
    (fun x h => if p x then (listRemove h x).map fun h => (h, true) else some (h, true)) n
    (h.next head) ((h.next head).bind h.next) h

/-- What the macros and the functions of list.h tell about the lists. -/
structure Faithful (h : Links α) (m : Lists α) : Prop where
  isEmpty : ∀ r ∈ m.lists, listIsEmpty h r.1 = true ↔ r.2 = []
  unattached : ∀ x, x ∈ nodes m.lists ∨ x ∈ m.loose → (listUnattached h x = true ↔ x ∈ m.loose)
  forEach : ∀ r ∈ m.lists, ∀ stop n, r.2.length < n →
    seek h.next r.1 stop n (h.next r.1) = some ((r.2.find? stop).getD r.1)
  forEachReverse : ∀ r ∈ m.lists, ∀ stop n, r.2.length < n →
    seek h.prev r.1 stop n (h.prev r.1) = some ((r.2.reverse.find? stop).getD r.1)
  removes : ∀ r ∈ m.lists, ∀ p n, r.2.length < n → ∃ h', removeAll p r.1 n h = some h' ∧
    Holds h' (edit m.lists r.1 (r.2.filter fun x => !p x))

section Calls

variable {h h' : Links α} {m : Lists α} {head node x : α} {l : List α} {c : Call α}

theorem members_eq (hh : Holds h m.lists) (hmem : (head, l) ∈ m.lists) : m.members head = l := by
  obtain ⟨s, t, hst, hsplit⟩ := hh.split hmem
  have hothers : head ∉ nodes (s ++ t) := hsplit.others List.mem_cons_self
  have hs : (s.find? fun r => decide (r.1 = head)) = none := by
    rw [List.find?_eq_none]
    intro r hr heq
    refine hothers (mem_nodes (List.mem_append.2 (.inl hr)) ?_)
    rw [← of_decide_eq_true heq]
    exact List.mem_cons_self
  rw [Lists.members, hst, List.find?_append, hs, Option.none_or, List.find?_cons_of_pos (by simp)]
  rfl

theorem head_of (hh : Holds h m.lists) (hhead : head ∈ m.lists.map Prod.fst) :
    (head, m.members head) ∈ m.lists := by
  obtain ⟨r, hr, rfl⟩ := List.mem_map.1 hhead
  rw [members_eq hh hr]
  exact hr

omit [DecidableEq α] in
theorem head_exists (l : List α) (x : α) : ∃ b, (l ++ [x]).head? = some b :=
  ⟨_, List.head?_eq_some_head (List.append_ne_nil_of_right_ne_nil _ (List.cons_ne_nil x []))⟩

omit [DecidableEq α] in
theorem last_exists (l : List α) (x : α) : ∃ a, (x :: l).getLast? = some a :=
  ⟨_, List.getLast?_eq_some_getLast (List.cons_ne_nil x l)⟩

theorem remove_member {rs : List (α × List α)} {r : α × List α} (hh : Holds h rs) (hr : r ∈ rs)
    (hnode : node ∈ r.2) : ∃ h', listRemove h node = some h' ∧ Holds h' (without rs node) ∧
      ∀ x, x = node ∨ (x ∉ nodes rs ∧ Loose h x) → Loose h' x := by
  obtain ⟨u, v, huv⟩ := List.mem_iff_append.1 hnode
  obtain ⟨head, l⟩ := r
  obtain rfl : l = u ++ node :: v := huv
  obtain ⟨a, ha⟩ := last_exists u head
  obtain ⟨b, hb⟩ := head_exists v head
  have hring := hh.ring _ hr
  have hprev := (prev_member hring).trans ha
  have hnext := (next_member hring).trans hb
  obtain ⟨h', hdone, hrem⟩ := removed_listRemove hprev hnext
  refine ⟨h', hdone, hh.remove_at hr hprev hnext hrem, ?_⟩
  rintro x (rfl | ⟨hx, hloose⟩)
  · exact hrem.loose
  · exact loose_removed hx hr ha hb hrem hloose

theorem represents_inserted (hr : Represents h m) {u v : List α} {a b : α}
    (hmem : (head, u ++ v) ∈ m.lists) (hn : node ∉ nodes m.lists)
    (ha : (head :: u).getLast? = some a) (hb : (v ++ [head]).head? = some b)
    (hi : Inserted h h' a node b) :
    Represents h' ⟨edit m.lists head (u ++ node :: v), m.loose.filter (· ≠ node)⟩ := by
  have hafter := hr.holds.insert_at hmem hn ha hb hi
  refine ⟨hafter, fun x hx => ?_⟩
  obtain ⟨hx, hne⟩ := List.mem_filter.1 hx
  have hne : x ≠ node := of_decide_eq_true hne
  obtain ⟨hxn, hloose⟩ := hr.loose x hx
  have hloose' := loose_inserted hxn hmem ha hb hi hne hloose
  exact ⟨hafter.not_mem_of_loose hloose', hloose'⟩

theorem represents_call (hr : Represents h m) (hc : c.Allowed m) :
    ∃ h', call h c = some h' ∧ Represents h' (m.call c) := by
  cases c with
  | initHead head =>
      have hafter := holds_initHead hr.holds hc
      refine ⟨_, rfl, hafter, fun x hx => ?_⟩
      obtain ⟨hx, hne⟩ := List.mem_filter.1 hx
      have hloose := loose_initHead (of_decide_eq_true hne) (hr.loose x hx).2
      exact ⟨hafter.not_mem_of_loose hloose, hloose⟩
  | initHeadNull node =>
      have hafter := holds_initHeadNull hr.holds hc
      refine ⟨_, rfl, hafter, fun x hx => ?_⟩
      have hloose := loose_initHeadNull ((List.mem_cons.1 hx).imp id fun hx => (hr.loose x hx).2)
      exact ⟨hafter.not_mem_of_loose hloose, hloose⟩
  | add head node | pushFront head node =>
      obtain ⟨hhead, hn⟩ := hc
      have hmem := head_of hr.holds hhead
      obtain ⟨b, hb⟩ := head_exists (m.members head) head
      have hnext : h.next head = some b := (ring_next (hr.holds.ring _ hmem)).trans hb
      refine ⟨listInsert h node head b, congrArg (Option.map _) hnext, ?_⟩
      exact represents_inserted (u := []) hr hmem hn rfl hb (inserted_listInsert h node head b)
  | pushBack head node =>
      obtain ⟨hhead, hn⟩ := hc
      have hmem := head_of hr.holds hhead
      obtain ⟨a, ha⟩ := last_exists (m.members head) head
      have hprev : h.prev head = some a := (ring_prev (hr.holds.ring _ hmem)).trans ha
      refine ⟨listInsert h node a head, congrArg (Option.map _) hprev, ?_⟩
      rw [← List.append_nil (m.members head)] at hmem
      exact represents_inserted (v := []) hr hmem hn ha rfl (inserted_listInsert h node a head)
  | remove node =>
      obtain ⟨r, hmem, hnode⟩ := hc
      obtain ⟨h', hdone, hholds, hloose⟩ := remove_member hr.holds hmem hnode
      refine ⟨h', hdone, hholds, fun x hx => ?_⟩
      rcases List.mem_cons.1 hx with rfl | hx
      · exact ⟨hholds.not_mem_of_loose (hloose _ (.inl rfl)), hloose _ (.inl rfl)⟩
      · have hafter := hloose x (.inr (hr.loose x hx))
        exact ⟨hholds.not_mem_of_loose hafter, hafter⟩

theorem represents_calls {cs : List (Call α)} (hr : Represents h m) (hcs : Permitted m cs) :
    ∃ h', cs.foldlM call h = some h' ∧ Represents h' (cs.foldl Lists.call m) := by
  induction cs generalizing h m with
  | nil => exact ⟨h, rfl, hr⟩
  | cons c cs ih =>
      obtain ⟨h₁, hfirst, hr₁⟩ := represents_call hr hcs.1
      obtain ⟨h', hdone, hr'⟩ := ih hr₁ hcs.2
      refine ⟨h', ?_, hr'⟩
      rw [List.foldlM_cons, hfirst]
      exact hdone

theorem removes_ends (hh : Holds h m.lists) (hmem : (head, l) ∈ m.lists) (p : α → Bool) {n : Nat}
    (hn : l.length < n) : ∃ h', removeAll p head n h = some h' ∧
      Holds h' (edit m.lists head (l.filter fun x => !p x)) := by
  obtain ⟨rest, hrest, -, hperm⟩ := hh.edited hmem
  -- the members that are behind the loop have been tested, the ones before it are all there
  let P (ahead : List α) (h : Links α) : Prop :=
    ∃ u, l = u ++ ahead ∧ Holds h ((head, u.filter (fun x => !p x) ++ ahead) :: rest)
  have hloop := forEachSafe_ends id head
    (fun x h => if p x then (listRemove h x).map fun h => (h, true) else some (h, true))
    P (P []) (fun x ahead h hP => ?_) (fun _ => id) (l := l) (s := h) ⟨[], rfl, hrest⟩ hn
  · rw [← ring_next (hh.ring _ hmem)] at hloop
    obtain ⟨h', hdone, u, hu, hholds⟩ := hloop
    refine ⟨h', hdone, ?_⟩
    rw [List.append_nil] at hu hholds
    rw [hu]
    exact hholds.perm (hperm _)
  · obtain ⟨u, hu, hholds⟩ := hP
    have hring := hholds.ring _ List.mem_cons_self
    have hnext := next_member hring
    refine ⟨?_, hnext, ?_⟩
    · rintro rfl
      refine head_notMem hh hmem ?_
      rw [hu]
      simp
    · cases hp : p x with
      | false =>
          refine ⟨h, true, if_neg (by simp), fun _ => ⟨u ++ [x], by simp [hu], ?_⟩, nofun⟩
          rw [List.filter_append, List.filter_cons_of_pos (by simp [hp]), List.append_assoc]
          exact hholds
      | true =>
          obtain ⟨a, ha⟩ := last_exists (u.filter fun x => !p x) head
          obtain ⟨b, hb⟩ := head_exists ahead head
          have hprev := (prev_member hring).trans ha
          obtain ⟨h', hdone, hrem⟩ := removed_listRemove hprev (hnext.trans hb)
          refine ⟨h', true, by rw [if_pos rfl, hdone]; rfl,
            fun _ => ⟨u ++ [x], by simp [hu], ?_⟩, nofun⟩
          rw [List.filter_append, List.filter_cons_of_neg (by simp [hp]), List.filter_nil,
            List.append_nil]
          exact hholds.removed hprev (hnext.trans hb) hrem

theorem faithful (hr : Represents h m) : Faithful h m := by
  have hh := hr.holds
  have hhead {r : α × List α} (hmem : r ∈ m.lists) : r.1 ∉ r.2 := head_notMem hh hmem
  refine ⟨fun r hmem => isEmpty_iff hh hmem, fun x hx => ?_, fun r hmem stop n hn => ?_,
    fun r hmem stop n hn => ?_, fun r hmem p n hn => removes_ends hh hmem p hn⟩
  · rw [listUnattached, decide_eq_true_eq]
    exact ⟨fun hloose => hx.resolve_left (hh.not_mem_of_loose hloose),
      fun hmem => (hr.loose x hmem).2⟩
  · have hring := hh.ring r hmem
    rw [ring_next hring]
    refine seek_ends _ _ _ _ (fun u x v heq => ?_) (hhead hmem) hn
    rw [heq] at hring
    exact next_member hring
  · have hring := hh.ring r hmem
    have hlast : (r.1 :: r.2).getLast? = (r.2.reverse ++ [r.1]).head? := by
      rw [← List.reverse_cons, List.head?_reverse]
    rw [ring_prev hring, hlast]
    refine seek_ends _ _ _ _ (fun u x v heq => ?_) (by simpa using hhead hmem) (by simpa using hn)
    have hl : r.2 = v.reverse ++ x :: u.reverse := by
      rw [← List.reverse_reverse r.2, heq]
      simp
    rw [hl] at hring
    rw [prev_member hring, ← List.head?_reverse]
    simp

/-- No sequence of calls meets a null pointer, and after each of them the links
stand for the lists. -/
theorem list_calls_represented (h : Links α) {cs : List (Call α)} (hcs : Permitted ⟨[], []⟩ cs) :
    ∃ h', cs.foldlM call h = some h' ∧ Holds h' (cs.foldl Lists.call ⟨[], []⟩).lists ∧
      Faithful h' (cs.foldl Lists.call ⟨[], []⟩) := by
  have hempty : Represents h ⟨[], []⟩ :=
    ⟨⟨List.nodup_nil, fun _ hr => absurd hr List.not_mem_nil⟩,
      fun _ hx => absurd hx List.not_mem_nil⟩
  obtain ⟨h', hdone, hr⟩ := represents_calls hempty hcs
  exact ⟨h', hdone, hr.holds, faithful hr⟩

def moved : List (Call Nat) :=
  [.initHead 0, .initHead 1, .initHeadNull 2, .initHeadNull 3, .pushFront 0 2, .add 0 3, .remove 2,
    .pushBack 1 2]

theorem list_calls_represented_moved : ∃ h',
    moved.foldlM call ⟨fun _ => none, fun _ => none⟩ = some h' ∧
    Holds h' [(1, [2]), (0, [3])] ∧ Faithful h' ⟨[(1, [2]), (0, [3])], []⟩ :=
  list_calls_represented _ (by decide)

end Calls

end Aodv.LinkedList
