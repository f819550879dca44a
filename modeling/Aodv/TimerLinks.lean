import Aodv.LinkedList
import Aodv.TimerSteps

namespace Aodv.TimerLinks

open Lib.Rings TimerCalls LinkedList

/-- The objects with a list_t in timer_queue.c: the queue tq, the exptq of each call
of timer_timeout that has not returned, and the timers. -/
inductive Node
  | tq
  | exptq (depth : Nat)
  | timer (t : TimerId)
deriving DecidableEq

/-- The links and the other fields of the timers. The number depth counts the calls of
timer_timeout that have not returned. -/
structure Memory where
  links : Links Node
  timer : TimerId → Timer
  depth : Nat

namespace Memory

variable (p : Memory)

def set (t : TimerId) (v : Timer) : Memory := { p with timer := Function.update p.timer t v }

@[simp] theorem timer_set (t : TimerId) (v : Timer) :
    (p.set t v).timer = Function.update p.timer t v := rfl

end Memory

def timerInit (p : Memory) (t : TimerId) (f : Option Handler) (data : Data) : Memory :=
  { p.set t ⟨false, ⟨0, 0⟩, f, data⟩ with links := listInitHeadNull p.links (.timer t) }

def timerRemove (p : Memory) (t : TimerId) : Option (Memory × Int) :=
  let unused := { p.timer t with used := false }
  if listUnattached p.links (.timer t) then some (p.set t unused, 0)
  else (LinkedList.listRemove p.links (.timer t)).map fun h => ({ p.set t unused with links := h }, 1)

def comesBefore (w : Arch) (p : Memory) (t : TimerId) : Node → Bool
  | .timer curr => decide (timevalDiff w (p.timer t).timeout (p.timer curr).timeout < 0)
  | _ => false

def timerAdd (w : Arch) (n : Nat) (p : Memory) (t : TimerId) : Option Memory :=
  if (p.timer t).handler = none then some p
  else if (p.timer t).used then some p
  else
    let p := p.set t { p.timer t with used := true }
    if listIsEmpty p.links .tq then
      (listPushFront p.links .tq (.timer t)).map fun h => { p with links := h }
    else
      (seek p.links.next .tq (comesBefore w p t) n (p.links.next .tq)).bind fun pos =>
        (p.links.prev pos).bind fun prev =>
          (listPushFront p.links prev (.timer t)).map fun h => { p with links := h }

def timerSetTimeout (w : Arch) (n : Nat) (now : Timeval) (p : Memory) (t : TimerId) (msec : Int) :
    Option Memory :=
  (if (p.timer t).used then (timerRemove p t).map Prod.fst else some p).bind fun p =>
    let p := p.set t { p.timer t with timeout := now }
    if msec < 0 then some p
    else timerAdd w n (p.set t { p.timer t with timeout := timeoutAfter w now msec }) t

def expire (w : Arch) (now : Timeval) (x : Node) (p : Memory) : Option (Memory × Bool) :=
  match x with
  | .timer t =>
      if 0 < timevalDiff w (p.timer t).timeout now then some (p, false)
      else
        (LinkedList.listRemove p.links x).bind fun h =>
          (listPushBack h (.exptq p.depth) x).map fun h => ({ p with links := h }, true)
  | _ => none

/-- The first loop of timer_timeout, with at most n turns. -/
def takeDue (w : Arch) (n : Nat) (now : Timeval) (p : Memory) : Option Memory :=
  let p := { p with depth := p.depth + 1, links := listInitHead p.links (.exptq (p.depth + 1)) }
  forEachSafe Memory.links .tq (expire w now) n (p.links.next .tq)
    ((p.links.next .tq).bind p.links.next) p

/-- What a step tells: the result of timer_remove, or whether the second loop of
timer_timeout calls a handler or is over. -/
inductive Answer
  | done
  | removed (res : Int)
  | calls (f : Option Handler) (data : Data)
  | returns

/-- One turn of the second loop of timer_timeout, up to the call of the handler. -/
def turn (p : Memory) : Option (Memory × Answer) :=
  if listIsEmpty p.links (.exptq p.depth) then some ({ p with depth := p.depth - 1 }, .returns)
  else
    match p.links.next (.exptq p.depth) with
    | some (.timer t) =>
        (LinkedList.listRemove p.links (.timer t)).map fun h =>
          ({ p.set t { p.timer t with used := false } with links := h },
            .calls (p.timer t).handler (p.timer t).data)
    | _ => none

/-- A call from a handler or from the main loop, or a step of timer_timeout. -/
inductive Action
  | call (c : Call)
  | takeDue (now : Timeval)
  | turn

def call (w : Arch) (n : Nat) (p : Memory) : Call → Option (Memory × Answer)
  | .init t f data => some (timerInit p t f data, .done)
  | .setTimeout now t msec => (timerSetTimeout w n now p t msec).map fun p => (p, .done)
  | .add t => (timerAdd w n p t).map fun p => (p, .done)
  | .remove t => (timerRemove p t).map fun x => (x.1, .removed x.2)
  | .setHandler t f => some (p.set t { p.timer t with handler := some f }, .done)

def act (w : Arch) (n : Nat) (p : Memory) : Action → Option (Memory × Answer)
  | .call c => call w n p c
  | .takeDue now => (takeDue w n now p).map fun p => (p, .done)
  | .turn => turn p

def run (w : Arch) (n : Nat) (p : Memory) : List Action → Option (Memory × List Answer)
  | [] => some (p, [])
  | x :: xs =>
      (act w n p x).bind fun y => (run w n y.1 xs).map fun z => (z.1, y.2 :: z.2)

namespace Lists

variable (w : Arch) (m : Timers)

def turn : Timers × Answer :=
  match m.q.exptq with
  | [] => (m.leave, .returns)
  | t :: _ => (m.remove t, .calls (m.q.timer t).handler (m.q.timer t).data)

def act : Action → Timers × Answer
  | .call (.remove t) => (m.remove t, .removed (if t ∈ m.lists then 1 else 0))
  | .call c => (m.call w c, .done)
  | .takeDue now => (m.takeDue w now, .done)
  | .turn => turn m

def run (w : Arch) (m : Timers) : List Action → Timers × List Answer
  | [] => (m, [])
  | x :: xs => ((run w (act w m x).1 xs).1, (act w m x).2 :: (run w (act w m x).1 xs).2)

end Lists

/-- A timer is initialised before any other function is called with it, and the
second loop runs in a call of timer_timeout. -/
def Action.Allowed (m : Timers) (made : TimerId → Prop) : Action → Prop
  | .call (.init t _ _) => t ∉ m.lists
  | .call (.setTimeout _ t _) | .call (.add t) | .call (.remove t) => made t
  | .call (.setHandler _ _) | .takeDue _ => True
  | .turn => m.outer ≠ []

/-- The timers that are initialised once a step is over. -/
def Action.makes (made : TimerId → Prop) : Action → TimerId → Prop
  | .call (.init t _ _) => fun u => u = t ∨ made u
  | _ => made

def Permitted (w : Arch) : Timers → (TimerId → Prop) → List Action → Prop
  | _, _, [] => True
  | m, made, x :: xs => x.Allowed m made ∧ Permitted w (Lists.act w m x).1 (x.makes made) xs

def longest (w : Arch) (m : Timers) : List Action → Nat
  | [] => m.lists.length
  | x :: xs => max m.lists.length (longest w (Lists.act w m x).1 xs)

def batches : List (List TimerId) → List (Node × List Node)
  | [] | [_] => []
  | l :: l' :: ls => (.exptq (l' :: ls).length, l.map .timer) :: batches (l' :: ls)

def rings (m : Timers) : List (Node × List Node) :=
  (.tq, m.q.tq.map .timer) :: batches (m.q.exptq :: m.outer)

/-- The memory stands for the lists. -/
structure Stands (p : Memory) (made : TimerId → Prop) (m : Timers) : Prop where
  holds : Holds p.links (rings m)
  loose : ∀ t, made t → t ∉ m.lists → Loose p.links (.timer t)
  timer : p.timer = m.q.timer
  depth : p.depth = m.outer.length
  bottom : (m.q.exptq :: m.outer).getLast? = some []
  made : ∀ t ∈ m.lists, made t

section Rings

variable {w : Arch} {m : Timers} {t : TimerId} {ls : List (List TimerId)} {k : Nat}

theorem timer_injective : Function.Injective Node.timer := fun _ _ heq => by cases heq; rfl

theorem mem_map_timer {l : List TimerId} : Node.timer t ∈ l.map .timer ↔ t ∈ l :=
  List.mem_map_of_injective timer_injective

theorem mem_batches (hls : ls.getLast? = some []) :
    (.timer t ∈ nodes (batches ls) ↔ t ∈ ls.flatten) ∧
      (.exptq k ∈ nodes (batches ls) ↔ 0 < k ∧ k < ls.length) ∧ .tq ∉ nodes (batches ls) := by
  induction ls with
  | nil => cases hls
  | cons l ls ih =>
      cases ls with
      | nil =>
          obtain rfl : l = [] := Option.some.inj hls
          refine ⟨by simp [batches, nodes], ?_, by simp [batches, nodes]⟩
          simp only [batches, nodes, List.flatMap_nil, List.not_mem_nil, List.length_singleton,
            false_iff]
          omega
      | cons l' ls =>
          obtain ⟨htimer, hexptq, htq⟩ := ih (by simpa using hls)
          rw [batches, nodes_cons]
          refine ⟨?_, ?_, ?_⟩
          · rw [List.flatten_cons, List.mem_append, List.mem_append, htimer, List.mem_cons,
              mem_map_timer]
            simp
          · rw [List.mem_append, hexptq, List.mem_cons]
            simp only [Node.exptq.injEq, List.mem_map, reduceCtorEq, and_false, exists_false,
              or_false, List.length_cons]
            omega
          · rw [List.mem_append, List.mem_cons]
            simp [htq]

theorem head_batches {r : Node × List Node} (hr : r ∈ batches ls) : ∃ k, r.1 = .exptq k := by
  induction ls with
  | nil => exact absurd hr List.not_mem_nil
  | cons l ls ih =>
      cases ls with
      | nil => exact absurd hr List.not_mem_nil
      | cons l' ls =>
          rcases List.mem_cons.1 hr with rfl | hr
          · exact ⟨_, rfl⟩
          · exact ih hr

theorem mem_rings (hbottom : (m.q.exptq :: m.outer).getLast? = some []) :
    .timer t ∈ nodes (rings m) ↔ t ∈ m.lists := by
  rw [rings, nodes_cons, List.mem_append, List.mem_cons, mem_map_timer,
    (mem_batches (k := 0) hbottom).1, Timers.lists, List.flatten_cons, List.mem_append]
  simp

theorem map_filter_timer (l : List TimerId) (t : TimerId) :
    (l.filter (· ≠ t)).map Node.timer = (l.map Node.timer).filter (· ≠ .timer t) := by
  rw [List.filter_map]
  congr 1
  apply List.filter_congr
  intro u _
  simp

theorem batches_filter (ls : List (List TimerId)) (t : TimerId) :
    batches (ls.map fun l => l.filter (· ≠ t)) = without (batches ls) (.timer t) := by
  induction ls with
  | nil => rfl
  | cons l ls ih =>
      cases ls with
      | nil => rfl
      | cons l' ls =>
          rw [List.map_cons, List.map_cons, batches, ← List.map_cons, ih, List.length_map,
            map_filter_timer]
          rfl

theorem rings_remove (m : Timers) (t : TimerId) :
    rings (m.remove t) = without (rings m) (.timer t) := by
  have htail := batches_filter (m.q.exptq :: m.outer) t
  rw [List.map_cons] at htail
  change (Node.tq, (m.q.tq.filter (· ≠ t)).map Node.timer) ::
    batches (m.q.exptq.filter (· ≠ t) :: m.outer.map fun l => l.filter (· ≠ t)) = _
  rw [htail, map_filter_timer]
  rfl

end Rings

section Steps

variable {w : Arch} {p p' : Memory} {m : Timers} {made : TimerId → Prop} {t : TimerId} {n : Nat}

namespace Stands

theorem member (h : Stands p made m) (ht : t ∈ m.lists) : ∃ r ∈ rings m, .timer t ∈ r.2 := by
  obtain ⟨r, hr, hmem⟩ := List.mem_flatMap.1 ((mem_rings h.bottom).2 ht)
  refine ⟨r, hr, (List.mem_cons.1 hmem).resolve_left fun heq => ?_⟩
  rcases List.mem_cons.1 hr with rfl | hr
  · cases heq
  · obtain ⟨k, hk⟩ := head_batches hr
    rw [hk] at heq
    cases heq

theorem notMem (h : Stands p made m) (ht : t ∉ m.lists) : .timer t ∉ nodes (rings m) :=
  mt (mem_rings h.bottom).1 ht

theorem write (h : Stands p made m) (t : TimerId) (v : Timer) :
    Stands (p.set t v) made { m with q := Aodv.set m.q t v } := by
  refine ⟨h.holds, h.loose, ?_, h.depth, h.bottom, h.made⟩
  rw [Memory.set, h.timer]
  rfl

theorem bottom_filter {l : List TimerId} {ls : List (List TimerId)}
    (h : (l :: ls).getLast? = some []) (t : TimerId) :
    (l.filter (· ≠ t) :: ls.map fun l => l.filter (· ≠ t)).getLast? = some [] := by
  rw [← List.map_cons, List.getLast?_map, h]
  rfl

theorem unlink (h : Stands p made m) (ht : t ∈ m.lists) : ∃ links,
    LinkedList.listRemove p.links (.timer t) = some links ∧
      Stands { p.set t { p.timer t with used := false } with links := links } made
        (m.remove t) := by
  obtain ⟨r, hr, hmem⟩ := h.member ht
  obtain ⟨links, hdone, hholds, hloose⟩ := remove_member h.holds hr hmem
  refine ⟨links, hdone, ?_, fun u hu hnot => ?_, ?_, ?_, ?_, fun u hu => ?_⟩
  · rw [rings_remove]
    exact hholds
  · by_cases heq : u = t
    · exact hloose _ (.inl (congrArg Node.timer heq))
    · have hout : u ∉ m.lists := by
        intro hin
        refine hnot ?_
        rw [TimerCalls.Sound.lists_remove, List.mem_filter]
        exact ⟨hin, decide_eq_true heq⟩
      exact hloose _ (.inr ⟨h.notMem hout, h.loose u hu hout⟩)
  · dsimp only
    rw [Memory.set, h.timer]
    rfl
  · exact h.depth.trans (List.length_map _).symm
  · exact bottom_filter h.bottom t
  · rw [TimerCalls.Sound.lists_remove, List.mem_filter] at hu
    exact h.made u hu.1

theorem remove_of_notMem (ht : t ∉ m.lists) : m.remove t =
    { m with q := Aodv.set m.q t { m.q.timer t with used := false } } := by
  have hkeep {l : List TimerId} (hl : l ∈ m.q.tq :: m.q.exptq :: m.outer) :
      l.filter (· ≠ t) = l := by
    refine List.filter_eq_self.2 fun u hu => decide_eq_true fun heq => ht ?_
    exact List.mem_flatten.2 ⟨l, hl, heq ▸ hu⟩
  have houter : m.outer.map (fun l => l.filter (· ≠ t)) = m.outer :=
    (List.map_congr_left fun l hl => hkeep (by simp [hl])).trans (List.map_id _)
  rw [Timers.remove, houter, Aodv.timerRemove, Aodv.unlink, hkeep List.mem_cons_self,
    hkeep (List.mem_cons_of_mem _ List.mem_cons_self)]

theorem remove (h : Stands p made m) (ht : made t) : ∃ p',
    timerRemove p t = some (p', if t ∈ m.lists then 1 else 0) ∧ Stands p' made (m.remove t) := by
  by_cases hmem : t ∈ m.lists
  · obtain ⟨links, hdone, hafter⟩ := h.unlink hmem
    refine ⟨_, ?_, hafter⟩
    have hattached : listUnattached p.links (.timer t) = false := by
      rw [listUnattached, decide_eq_false_iff_not]
      exact fun hloose => h.holds.not_mem_of_loose hloose ((mem_rings h.bottom).2 hmem)
    rw [timerRemove, hattached, if_neg Bool.false_ne_true, hdone, if_pos hmem]
    rfl
  · refine ⟨p.set t { p.timer t with used := false }, ?_, ?_⟩
    · have hfree : listUnattached p.links (.timer t) = true := decide_eq_true (h.loose t ht hmem)
      rw [timerRemove, hfree, if_pos rfl, if_neg hmem]
    · rw [remove_of_notMem hmem, h.timer]
      exact h.write t _

theorem init (h : Stands p made m) (ht : t ∉ m.lists) (f : Option Handler) (data : Data) :
    Stands (TimerLinks.timerInit p t f data) (fun u => u = t ∨ made u)
      (m.call w (.init t f data)) := by
  have hcall : m.call w (.init t f data) =
      { m with q := Aodv.set m.q t ⟨false, ⟨0, 0⟩, f, data⟩ } := by cases f <;> rfl
  have hwrite := h.write t ⟨false, ⟨0, 0⟩, f, data⟩
  rw [hcall]
  refine ⟨holds_initHeadNull h.holds (h.notMem ht), fun u hu hout => ?_, hwrite.timer, h.depth,
    h.bottom, fun u hu => .inr (h.made u hu)⟩
  refine loose_initHeadNull ?_
  by_cases heq : u = t
  · exact .inl (congrArg Node.timer heq)
  · exact .inr (h.loose u (hu.resolve_left heq) hout)

theorem link (h : Stands p made m) (ht : made t) (hout : t ∉ m.lists) (v : Timer)
    {before after : List TimerId} (hq : m.q.tq = before ++ after) {a b : Node}
    (ha : (Node.tq :: before.map Node.timer).getLast? = some a)
    (hb : (after.map Node.timer ++ [Node.tq]).head? = some b) :
    Stands { p.set t v with links := listInsert p.links (.timer t) a b } made
      { m with q := { Aodv.set m.q t v with tq := before ++ t :: after } } := by
  have hmem : (Node.tq, before.map Node.timer ++ after.map Node.timer) ∈ rings m := by
    rw [← List.map_append, ← hq]
    exact List.mem_cons_self
  have hrings : rings m = (.tq, before.map Node.timer ++ after.map Node.timer) ::
      batches (m.q.exptq :: m.outer) := by rw [rings, hq, List.map_append]
  have hin := inserted_listInsert p.links (.timer t) a b
  have hn := h.notMem hout
  have hwrite := h.write t v
  refine ⟨?_, fun u hu hnot => ?_, hwrite.timer, h.depth, h.bottom, fun u hu => ?_⟩
  · have hholds := h.holds
    rw [hrings] at hholds hn
    have hdone := hholds.inserted hn ha hb hin
    rw [rings, List.map_append, List.map_cons]
    exact hdone
  · have hne : u ≠ t := by
      rintro rfl
      refine hnot ?_
      simp [Timers.lists]
    have hold : u ∉ m.lists := by
      intro hu
      refine hnot ?_
      rw [Timers.lists, hq] at hu
      rw [Timers.lists]
      simp only [List.flatten_cons, List.mem_append, List.mem_cons] at hu ⊢
      tauto
    refine loose_inserted (h.notMem hold) hmem ha hb hin (fun heq => hne ?_) (h.loose u hu hold)
    exact timer_injective heq
  · rw [Timers.lists] at hu
    simp only [List.flatten_cons, List.mem_append, List.mem_cons] at hu
    by_cases heq : u = t
    · rw [heq]
      exact ht
    · refine h.made u ?_
      rw [Timers.lists, hq]
      simp only [List.flatten_cons, List.mem_append]
      tauto

theorem insertSorted_split (timeout : TimerId → Timeval) (t : TimerId) (l : List TimerId) :
    ∃ before after, l = before ++ after ∧ insertSorted w timeout t l = before ++ t :: after ∧
      l.find? (fun u => decide (timevalDiff w (timeout t) (timeout u) < 0)) = after.head? := by
  induction l with
  | nil => exact ⟨[], [], rfl, rfl, rfl⟩
  | cons u l ih =>
      rw [insertSorted, List.find?_cons]
      split
      next hsooner => exact ⟨[], u :: l, rfl, rfl, by rw [decide_eq_true hsooner]; rfl⟩
      next hsooner =>
        obtain ⟨before, after, hl, hins, hfind⟩ := ih
        refine ⟨u :: before, after, by rw [hl]; rfl, by rw [hins]; rfl, ?_⟩
        rw [decide_eq_false hsooner]
        exact hfind

theorem seek_place (h : Stands p made m) {before after : List TimerId}
    (hq : m.q.tq = before ++ after) (hn : m.q.tq.length < n)
    (hfind : m.q.tq.find?
        (fun u => decide (timevalDiff w (m.q.timer t).timeout (m.q.timer u).timeout < 0)) =
      after.head?) {links : Links Node} (hl : p.links = links) (v : Timer)
    (hv : v.timeout = (m.q.timer t).timeout) :
    seek links.next .tq (comesBefore w (p.set t v) t) n (links.next .tq) =
      (after.map Node.timer ++ [Node.tq]).head? := by
  subst hl
  have hmem : (Node.tq, m.q.tq.map Node.timer) ∈ rings m := List.mem_cons_self
  have hring := h.holds.ring _ hmem
  have htimeout (u : TimerId) : ((p.set t v).timer u).timeout = (m.q.timer u).timeout := by
    rw [Memory.timer_set, h.timer]
    by_cases hu : u = t
    · rw [hu, Function.update_self, hv]
    · rw [Function.update_of_ne hu]
  have hstop : (comesBefore w (p.set t v) t ∘ Node.timer) =
      fun u => decide (timevalDiff w (m.q.timer t).timeout (m.q.timer u).timeout < 0) := by
    funext u
    rw [Function.comp_apply, comesBefore, htimeout, htimeout]
  have hends := seek_ends p.links.next Node.tq (comesBefore w (p.set t v) t)
    (m.q.tq.map Node.timer) (n := n)
    (fun u x w heq => by rw [heq] at hring; exact next_member hring)
    (head_notMem h.holds hmem) (by rwa [List.length_map])
  rw [ring_next hring, hends, List.find?_map, hstop, hfind]
  cases after <;> rfl

theorem add (h : Stands p made m) (hs : TimerCalls.Sound w m) (ht : made t) (hn : m.lists.length < n) :
    ∃ p', TimerLinks.timerAdd w n p t = some p' ∧
      Stands p' made { m with q := Aodv.timerAdd w m.q t } := by
  rw [TimerLinks.timerAdd, Aodv.timerAdd, h.timer]
  by_cases hh : (m.q.timer t).handler = none
  · rw [if_pos hh, if_pos hh]
    exact ⟨p, rfl, h⟩
  rw [if_neg hh, if_neg hh]
  cases hu : (m.q.timer t).used with
  | true => exact ⟨p, rfl, h⟩
  | false =>
      have hout : t ∉ m.lists := fun hin => by
        rw [(hs.used t).2 hin] at hu
        cases hu
      have hmem : (Node.tq, m.q.tq.map Node.timer) ∈ rings m := List.mem_cons_self
      have hring := h.holds.ring _ hmem
      have hlen : m.q.tq.length < n := by
        refine Nat.lt_of_le_of_lt ?_ hn
        simp [Timers.lists]
      obtain ⟨before, after, hq, hins, hfind⟩ :=
        insertSorted_split (fun u => (m.q.timer u).timeout) t m.q.tq
      obtain ⟨a, ha⟩ := last_exists (before.map Node.timer) Node.tq
      obtain ⟨b, hb⟩ := head_exists (after.map Node.timer) Node.tq
      have hdone := h.link ht hout { m.q.timer t with used := true } hq ha hb
      have hjoined : Joined p.links a b := by
        rw [hq, List.map_append] at hring
        exact joined_at hring ha hb
      rw [if_neg Bool.false_ne_true, if_neg Bool.false_ne_true, hins]
      refine ⟨_, ?_, hdone⟩
      dsimp only
      by_cases hempty : listIsEmpty p.links .tq = true
      · -- the only place in an empty queue is behind its head
        have hnil := (isEmpty_iff h.holds hmem).1 hempty
        rw [List.map_eq_nil_iff, hq, List.append_eq_nil_iff] at hnil
        obtain ⟨rfl, rfl⟩ := hnil
        obtain rfl : Node.tq = a := Option.some.inj ha
        rw [if_pos (show listIsEmpty (p.set t _).links .tq = true from hempty)]
        exact congrArg (fun o => Option.map _ (Option.map _ o)) hjoined.1
      · rw [if_neg (show ¬ listIsEmpty (p.set t _).links .tq = true from hempty)]
        have hplace := h.seek_place hq hlen hfind rfl { m.q.timer t with used := true } rfl
        rw [hb] at hplace
        have hprev : p.links.prev b = some a := hjoined.2
        have hnext : p.links.next a = some b := hjoined.1
        change Option.bind
          (seek p.links.next .tq (comesBefore w (p.set t _) t) n (p.links.next .tq)) _ = _
        rw [hplace, Option.bind_some]
        change Option.bind (p.links.prev b) _ = _
        rw [hprev, Option.bind_some, listPushFront]
        change Option.map _ (Option.map _ (p.links.next a)) = _
        rw [hnext]
        rfl

theorem arm (h : Stands p made m) (hs : TimerCalls.Sound w m) (ht : made t) (hout : t ∉ m.lists)
    (hn : m.lists.length < n) (now : Timeval) (msec : Int) :
    ∃ p', TimerLinks.timerSetTimeout w n now p t msec = some p' ∧
      Stands p' made { m with q := Aodv.timerSetTimeout w now m.q t msec } := by
  have hidle : (m.q.timer t).used = false := hs.unused hout
  have htimer : p.timer t = m.q.timer t := congrFun h.timer t
  cases hv : m.q.timer t with
  | mk used timeout f data =>
      rw [hv] at hidle htimer
      obtain rfl : used = false := hidle
      have hnow := h.write t ⟨false, now, f, data⟩
      have hsnow : TimerCalls.Sound w { m with q := Aodv.set m.q t ⟨false, now, f, data⟩ } :=
        hs.write hout rfl
      simp only [TimerLinks.timerSetTimeout, Aodv.timerSetTimeout, htimer, hv,
        Bool.false_eq_true, if_false, Option.bind_some, Memory.timer_set, Function.update_self,
        set_timer_self]
      by_cases hneg : msec < 0
      · rw [if_pos hneg, if_pos hneg]
        exact ⟨_, rfl, hnow⟩
      · rw [if_neg hneg, if_neg hneg]
        exact (hnow.write t _).add (hsnow.write hout rfl) ht hn

theorem setTimeout (h : Stands p made m) (hs : TimerCalls.Sound w m) (ht : made t)
    (hn : m.lists.length < n)
    (now : Timeval) (msec : Int) : ∃ p', TimerLinks.timerSetTimeout w n now p t msec = some p' ∧
      Stands p' made (m.call w (.setTimeout now t msec)) := by
  have htimer : p.timer t = m.q.timer t := congrFun h.timer t
  by_cases hu : (m.q.timer t).used = true
  · obtain ⟨p₁, hremove, h₁⟩ := h.remove ht
    have hout : t ∉ (m.remove t).lists := by
      rw [TimerCalls.Sound.lists_remove]
      simp
    have hlen : (m.remove t).lists.length < n := by
      rw [TimerCalls.Sound.lists_remove]
      exact Nat.lt_of_le_of_lt (List.length_filter_le _ _) hn
    have hidle : (p₁.timer t).used = false := by
      rw [h₁.timer]
      exact (hs.remove t).unused hout
    obtain ⟨p', hdone, hafter⟩ := h₁.arm (hs.remove t) ht hout hlen now msec
    refine ⟨p', ?_, ?_⟩
    · rw [TimerLinks.timerSetTimeout, htimer, if_pos hu, hremove, ← hdone,
        TimerLinks.timerSetTimeout, hidle, if_neg Bool.false_ne_true]
      rfl
    · rw [Timers.call, if_pos hu, ← timerSetTimeout_timerRemove now m.q t msec hu]
      exact hafter
  · obtain ⟨p', hdone, hafter⟩ := h.arm hs ht (fun hin => hu ((hs.used t).2 hin)) hn now msec
    refine ⟨p', hdone, ?_⟩
    rw [Timers.call, if_neg hu]
    exact hafter

structure Expiring (w : Arch) (now : Timeval) (made : TimerId → Prop) (m : Timers) (u v : List TimerId)
    (p : Memory) : Prop where
  tq : m.q.tq = u ++ v
  due : ∀ t ∈ u, timevalDiff w (m.q.timer t).timeout now ≤ 0
  holds : Holds p.links ((.tq, v.map .timer) :: (.exptq p.depth, u.map .timer) ::
    batches (m.q.exptq :: m.outer))
  loose : ∀ t, made t → t ∉ m.lists → Loose p.links (.timer t)
  timer : p.timer = m.q.timer
  depth : p.depth = m.outer.length + 1

theorem expiring_start (h : Stands p made m) (now : Timeval) : Expiring w now made m [] m.q.tq
    { p with depth := p.depth + 1, links := listInitHead p.links (.exptq (p.depth + 1)) } := by
  have hnew : Node.exptq (p.depth + 1) ∉ nodes (rings m) := by
    rw [rings, nodes_cons, List.mem_append, (mem_batches (t := .worbTimer) h.bottom).2.1, h.depth]
    simp
  have hholds := holds_initHead h.holds hnew
  exact ⟨rfl, fun _ hu => absurd hu List.not_mem_nil, hholds.perm (List.Perm.swap _ _ _),
    fun u hu hout => loose_initHead nofun (h.loose u hu hout), h.timer, congrArg (· + 1) h.depth⟩

theorem expiring_step {now : Timeval} {u v : List TimerId} (h : Expiring w now made m u (t :: v) p)
    (hdue : timevalDiff w (m.q.timer t).timeout now ≤ 0) :
    ∃ p', expire w now (.timer t) p = some (p', true) ∧ Expiring w now made m (u ++ [t]) v p' := by
  have hring := h.holds.ring _ List.mem_cons_self
  obtain ⟨b, hb⟩ := head_exists (v.map Node.timer) Node.tq
  have hprev : p.links.prev (.timer t) = some .tq := prev_member (u := []) hring
  have hnext : p.links.next (.timer t) = some b := (next_member (u := []) hring).trans hb
  obtain ⟨h₁, hremove, hrem⟩ := removed_listRemove hprev hnext
  have hout : Holds h₁ ((.tq, v.map .timer) :: (.exptq p.depth, u.map .timer) ::
      batches (m.q.exptq :: m.outer)) := h.holds.removed (u := []) hprev hnext hrem
  have hswap := hout.perm (List.Perm.swap (Node.exptq p.depth, u.map Node.timer) _ _)
  obtain ⟨a, ha⟩ := last_exists (u.map Node.timer) (Node.exptq p.depth)
  have hback : h₁.prev (.exptq p.depth) = some a :=
    (ring_prev (hswap.ring _ List.mem_cons_self)).trans ha
  have hin := inserted_listInsert h₁ (.timer t) a (.exptq p.depth)
  have hnew := hswap.not_mem_of_loose hrem.loose
  rw [← List.append_nil (u.map Node.timer)] at hswap hnew
  have hdone := hswap.inserted hnew ha rfl hin
  refine ⟨{ p with links := listInsert h₁ (.timer t) a (.exptq p.depth) }, ?_, ?_⟩
  · rw [expire, h.timer, if_neg (Int.not_lt.2 hdue), hremove, Option.bind_some, listPushBack, hback]
    rfl
  · refine ⟨by rw [h.tq]; simp, fun w hw => ?_, ?_, fun w hw hnot => ?_, h.timer, h.depth⟩
    · rcases List.mem_append.1 hw with hw | hw
      · exact h.due w hw
      · rw [List.mem_singleton.1 hw]
        exact hdue
    · rw [List.map_append]
      exact hdone.perm (List.Perm.swap _ _ _)
    · have hloose := h.loose w hw hnot
      have hne : Node.timer w ≠ .timer t := by
        intro heq
        refine hnot ?_
        rw [timer_injective heq, Timers.lists, h.tq]
        simp
      have hmid : Loose h₁ (.timer w) :=
        loose_removed (u := []) (h.holds.not_mem_of_loose hloose) List.mem_cons_self rfl hb
          hrem hloose
      exact loose_inserted (hswap.not_mem_of_loose hmid) List.mem_cons_self ha rfl hin hne hmid

theorem takeWhile_split {now : Timeval} {u v : List TimerId} (h : Expiring w now made m u v p)
    (hv : ∀ t ∈ v.head?, 0 < timevalDiff w (m.q.timer t).timeout now) :
    m.q.tq.takeWhile (fun t => decide (timevalDiff w (m.q.timer t).timeout now ≤ 0)) = u ∧
      m.q.tq.dropWhile (fun t => decide (timevalDiff w (m.q.timer t).timeout now ≤ 0)) = v := by
  have hu : ∀ t ∈ u, decide (timevalDiff w (m.q.timer t).timeout now ≤ 0) = true :=
    fun t ht => decide_eq_true (h.due t ht)
  rw [h.tq, List.takeWhile_append_of_pos hu, List.dropWhile_append_of_pos hu]
  cases v with
  | nil => exact ⟨List.append_nil u, rfl⟩
  | cons t v =>
      have hlate : ¬ timevalDiff w (m.q.timer t).timeout now ≤ 0 := Int.not_le.2 (hv t rfl)
      rw [List.takeWhile_cons_of_neg (by simpa using hlate),
        List.dropWhile_cons_of_neg (by simpa using hlate)]
      exact ⟨List.append_nil u, rfl⟩

theorem expiring_done {now : Timeval} {u v : List TimerId} (h : Expiring w now made m u v p)
    (hs : Stands p' made m) (hv : ∀ t ∈ v.head?, 0 < timevalDiff w (m.q.timer t).timeout now) :
    Stands p made (m.takeDue w now) := by
  obtain ⟨htake, hdrop⟩ := takeWhile_split h hv
  have hperm := TimerCalls.Sound.lists_takeDue w m now
  refine ⟨?_, fun t ht hout => h.loose t ht (fun hin => hout (hperm.mem_iff.2 hin)), h.timer,
    h.depth, ?_, fun t ht => hs.made t (hperm.mem_iff.1 ht)⟩
  · have hholds := h.holds
    rw [h.depth] at hholds
    rw [rings, Timers.takeDue]
    dsimp only
    rw [htake, hdrop]
    exact hholds
  · rw [Timers.takeDue, List.getLast?_cons_cons]
    exact hs.bottom

theorem takeDue (h : Stands p made m) (hn : m.lists.length < n) (now : Timeval) :
    ∃ p', TimerLinks.takeDue w n now p = some p' ∧ Stands p' made (m.takeDue w now) := by
  have hstart := h.expiring_start (w := w) now
  have hlen : (m.q.tq.map Node.timer).length < n := by
    rw [List.length_map]
    refine Nat.lt_of_le_of_lt ?_ hn
    simp [Timers.lists]
  have hloop := forEachSafe_ends Memory.links Node.tq (expire w now)
    (fun ahead p => ∃ u v, ahead = v.map .timer ∧ Expiring w now made m u v p)
    (fun p => ∃ u v, Expiring w now made m u v p ∧
      ∀ t ∈ v.head?, 0 < timevalDiff w (m.q.timer t).timeout now)
    (fun x ahead p hP => ?_) (fun p hP => ?_) ⟨[], m.q.tq, rfl, hstart⟩ hlen
  · rw [← ring_next (hstart.holds.ring _ List.mem_cons_self)] at hloop
    obtain ⟨p', hdone, u, v, hend, hv⟩ := hloop
    exact ⟨p', hdone, expiring_done hend h hv⟩
  · obtain ⟨u, v, hahead, hexp⟩ := hP
    cases v with
    | nil => cases hahead
    | cons t v =>
        obtain ⟨rfl, rfl⟩ := List.cons.inj hahead
        refine ⟨by rintro ⟨⟩, next_member (u := []) (hexp.holds.ring _ List.mem_cons_self), ?_⟩
        by_cases hlate : 0 < timevalDiff w (m.q.timer t).timeout now
        · refine ⟨p, false, ?_, by rintro ⟨⟩, fun _ => ⟨u, t :: v, hexp, fun w hw => ?_⟩⟩
          · rw [expire, hexp.timer, if_pos hlate]
          · obtain rfl : t = w := Option.some.inj hw
            exact hlate
        · obtain ⟨p', hdone, hafter⟩ := expiring_step hexp (Int.not_lt.1 hlate)
          exact ⟨p', true, hdone, fun _ => ⟨_, v, rfl, hafter⟩, by rintro ⟨⟩⟩
  · obtain ⟨u, v, hahead, hexp⟩ := hP
    obtain rfl : v = [] := List.map_eq_nil_iff.1 hahead.symm
    exact ⟨u, [], hexp, fun t ht => by cases ht⟩

theorem turn (h : Stands p made m) (houter : m.outer ≠ []) :
    ∃ p', TimerLinks.turn p = some (p', (Lists.turn m).2) ∧ Stands p' made (Lists.turn m).1 := by
  obtain ⟨l, ls, hls⟩ := List.exists_cons_of_ne_nil houter
  have hdepth : p.depth = (l :: ls).length := by rw [h.depth, hls]
  have hrings : rings m = (.tq, m.q.tq.map .timer) :: (.exptq p.depth, m.q.exptq.map .timer) ::
      batches (l :: ls) := by rw [rings, hls, batches, hdepth]
  have hmem : (Node.exptq p.depth, m.q.exptq.map Node.timer) ∈ rings m := by
    rw [hrings]
    exact List.mem_cons_of_mem _ List.mem_cons_self
  have hempty := isEmpty_iff h.holds hmem
  rw [List.map_eq_nil_iff] at hempty
  rw [TimerLinks.turn, Lists.turn]
  cases hq : m.q.exptq with
  | nil =>
      have hlists : m.leave.lists = m.lists := by
        rw [Timers.leave, Timers.lists, Timers.lists, hls, hq]
        rfl
      rw [if_pos (hempty.2 hq)]
      refine ⟨_, rfl, ?_, fun t ht hout => h.loose t ht (by rwa [← hlists]), ?_, ?_, ?_,
        fun t ht => ?_⟩
      · have hholds := h.holds
        rw [hrings] at hholds
        have hrest := (hholds.perm (List.Perm.swap _ _ _)).rest
        rw [rings, Timers.leave, hls]
        exact hrest
      · rw [Timers.leave, hls]
        exact h.timer
      · rw [Timers.leave, hls]
        dsimp only
        rw [hdepth]
        rfl
      · have hbottom := h.bottom
        rw [hls, List.getLast?_cons_cons] at hbottom
        rw [Timers.leave, hls]
        exact hbottom
      · exact h.made t (by rwa [← hlists])
  | cons t rest =>
      have hin : t ∈ m.lists := by
        rw [Timers.lists, hq]
        simp
      have hne : ¬ listIsEmpty p.links (.exptq p.depth) = true := by
        rw [hempty, hq]
        exact List.cons_ne_nil t rest
      have hnext : p.links.next (.exptq p.depth) = some (.timer t) := by
        rw [ring_next (h.holds.ring _ hmem), hq]
        rfl
      obtain ⟨links, hdone, hafter⟩ := h.unlink hin
      rw [if_neg hne, hnext]
      refine ⟨_, ?_, hafter⟩
      dsimp only
      rw [hdone, h.timer]
      rfl

theorem act (h : Stands p made m) (hs : TimerCalls.Sound w m) {a : Action} (ha : a.Allowed m made)
    (hn : m.lists.length < n) : ∃ p', TimerLinks.act w n p a = some (p', (Lists.act w m a).2) ∧
      Stands p' (a.makes made) (Lists.act w m a).1 := by
  cases a with
  | call c =>
      cases c with
      | init t f data => exact ⟨_, rfl, h.init ha f data⟩
      | setTimeout now t msec =>
          obtain ⟨p', hdone, hafter⟩ := h.setTimeout hs ha hn now msec
          exact ⟨p', by rw [TimerLinks.act, call, hdone]; rfl, hafter⟩
      | add t =>
          obtain ⟨p', hdone, hafter⟩ := h.add hs ha hn
          exact ⟨p', by rw [TimerLinks.act, call, hdone]; rfl, hafter⟩
      | remove t =>
          obtain ⟨p', hdone, hafter⟩ := h.remove ha
          exact ⟨p', by rw [TimerLinks.act, call, hdone]; rfl, hafter⟩
      | setHandler t f =>
          refine ⟨_, rfl, ?_⟩
          rw [h.timer]
          exact h.write t _
  | takeDue now =>
      obtain ⟨p', hdone, hafter⟩ := h.takeDue hn now
      exact ⟨p', by rw [TimerLinks.act, hdone]; rfl, hafter⟩
  | turn => exact h.turn ha

end Stands

theorem sound_act (hs : TimerCalls.Sound w m) {a : Action} (ha : a.Allowed m made) :
    TimerCalls.Sound w (Lists.act w m a).1 := by
  cases a with
  | call c =>
      cases c with
      | init t f data => exact hs.call (.init t f data) ha
      | setTimeout now t msec => exact hs.setTimeout now t msec
      | add t => exact hs.add t
      | remove t => exact hs.remove t
      | setHandler t f => exact hs.call (.setHandler t f) trivial
  | takeDue now => exact hs.takeDue now
  | turn =>
      rw [Lists.act, Lists.turn]
      cases hq : m.q.exptq with
      | nil => exact hs.leave hq
      | cons t rest => exact hs.remove t

theorem Stands.run (h : Stands p made m) (hs : TimerCalls.Sound w m) {as : List Action}
    (has : Permitted w m made as) (hn : longest w m as < n) : ∃ p',
      TimerLinks.run w n p as = some (p', (Lists.run w m as).2) ∧
        Stands p' (as.foldl Action.makes made) (Lists.run w m as).1 := by
  induction as generalizing p m made with
  | nil => exact ⟨p, rfl, h⟩
  | cons a as ih =>
      rw [longest, Nat.max_lt] at hn
      obtain ⟨p₁, hfirst, h₁⟩ := h.act hs has.1 hn.1
      obtain ⟨p', hdone, hafter⟩ := ih h₁ (sound_act hs has.1) has.2 hn.2
      refine ⟨p', ?_, hafter⟩
      rw [TimerLinks.run, hfirst, Option.bind_some]
      exact congrArg (Option.map fun z => (z.1, (Lists.act w m a).2 :: z.2)) hdone

end Steps

/-- Memory in which no timer is set yet: tq is joined to itself, and the links of the
timers that are initialised are null. -/
structure Booted (p : Memory) (made : TimerId → Prop) : Prop where
  tq : p.links.next .tq = some .tq ∧ p.links.prev .tq = some .tq
  loose : ∀ t, made t → Loose p.links (.timer t)
  used : ∀ t, (p.timer t).used = false
  depth : p.depth = 0

def atBoot (p : Memory) : Timers := ⟨⟨[], [], p.timer⟩, []⟩

theorem stands_booted {p : Memory} {made : TimerId → Prop} (hp : Booted p made) :
    Stands p made (atBoot p) := by
  refine ⟨⟨List.nodup_singleton _, fun r hr => ?_⟩, fun t ht _ => hp.loose t ht, rfl, hp.depth, rfl,
    fun t ht => absurd ht List.not_mem_nil⟩
  obtain rfl : r = (.tq, []) := List.mem_singleton.1 hr
  exact ring_singleton.2 hp.tq

theorem sound_booted {w : Arch} {p : Memory} {made : TimerId → Prop} (hp : Booted p made) :
    TimerCalls.Sound w (atBoot p) :=
  .start rfl rfl hp.used

/-- In every run of calls of the timer functions, also of timer_timeout from the
handlers that it calls, no null pointer is met, every loop ends, each call
gives the result that it gives on the lists, and the links stand for the lists. -/
theorem timer_queue_linked {w : Arch} {p : Memory} {made : TimerId → Prop} (hp : Booted p made)
    {as : List Action} (has : Permitted w (atBoot p) made as) : ∃ turns, ∀ n, turns ≤ n → ∃ p',
      run w n p as = some (p', (Lists.run w (atBoot p) as).2) ∧
        Stands p' (as.foldl Action.makes made) (Lists.run w (atBoot p) as).1 :=
  ⟨longest w (atBoot p) as + 1, fun _ hn => (stands_booted hp).run (sound_booted hp) has hn⟩

def boot : Memory :=
  { links := ⟨fun x => if x = .tq then some .tq else none,
      fun x => if x = .tq then some .tq else none⟩
    timer := fun _ => .zero
    depth := 0 }

theorem booted_boot (made : TimerId → Prop) : Booted boot made :=
  ⟨⟨rfl, rfl⟩, fun _ _ => ⟨rfl, rfl⟩, fun _ => rfl, rfl⟩

/-- Two timers run out, and the handler of the first one sets it again and calls timer_timeout. -/
def nested : List Action :=
  [.call (.init .rtLogTimer (some .printRtTable) .null),
    .call (.init .ownHelloTimer (some .helloSend) .null),
    .call (.setTimeout ⟨0, 999⟩ .rtLogTimer 0),
    .call (.setTimeout ⟨0, 0⟩ .ownHelloTimer 0), .takeDue ⟨0, 0⟩, .turn,
    .call (.setTimeout ⟨0, 0⟩ .rtLogTimer 10), .takeDue ⟨0, 0⟩, .turn, .turn,
    .call (.remove .rtLogTimer)]

theorem timer_queue_linked_nested : ∃ turns, ∀ n, turns ≤ n → ∃ p',
    run .long32 n boot nested = some (p', [.done, .done, .done, .done, .done,
      .calls (some .printRtTable) .null, .done, .done, .returns, .calls (some .helloSend) .null,
      .removed 1]) ∧
      Stands p' (fun t => t = .ownHelloTimer ∨ t = .rtLogTimer ∨ False)
        (Lists.run .long32 (atBoot boot) nested).1 := by
  have has : Permitted .long32 (atBoot boot) (fun _ => False) nested :=
    ⟨List.not_mem_nil, List.not_mem_nil, .inr (.inl rfl), .inl rfl, trivial, List.cons_ne_nil _ _,
      .inr (.inl rfl), trivial, List.cons_ne_nil _ _, List.cons_ne_nil _ _, .inr (.inl rfl),
        trivial⟩
  exact timer_queue_linked (booted_boot _) has

theorem run_append (w : Arch) (m : Timers) (as : List Action) (a : Action) :
    (Lists.run w m (as ++ [a])).1 = (Lists.act w (Lists.run w m as).1 a).1 := by
  induction as generalizing m with
  | nil => rfl
  | cons b as ih => exact ih _

theorem permitted_append {w : Arch} {m : Timers} {made : TimerId → Prop} {as : List Action} {a : Action}
    (has : Permitted w m made as) (ha : a.Allowed (Lists.run w m as).1 (as.foldl Action.makes made)) :
    Permitted w m made (as ++ [a]) := by
  induction as generalizing m made with
  | nil => exact ⟨ha, trivial⟩
  | cons b as ih => exact ⟨has.1, ih has.2 ha⟩

theorem makes_all {made : TimerId → Prop} (hmade : ∀ t, made t) (as : List Action) :
    ∀ t, as.foldl Action.makes made t := by
  induction as generalizing made with
  | nil => exact hmade
  | cons a as ih =>
      refine ih fun t => ?_
      cases a with
      | call c =>
          cases c with
          | init => exact .inr (hmade t)
          | setTimeout | add | remove | setHandler => exact hmade t
      | takeDue | turn => exact hmade t

theorem reached_run {w : Arch} {m : Timers} (h : Reached w m) : ∃ p as, Booted p (fun _ => True) ∧
    Permitted w (atBoot p) (fun _ => True) as ∧ (Lists.run w (atBoot p) as).1 = m := by
  have hall (as : List Action) : ∀ t, as.foldl Action.makes (fun _ => True) t :=
    makes_all (fun _ => trivial) as
  -- one more step of a run that has been found
  have hone {p : Memory} {as : List Action} {m m' : Timers} (a : Action)
      (hp : Booted p fun _ => True)
      (has : Permitted w (atBoot p) (fun _ => True) as) (hm : (Lists.run w (atBoot p) as).1 = m)
      (ha : a.Allowed m (as.foldl Action.makes fun _ => True)) (hact : (Lists.act w m a).1 = m') :
      ∃ p as, Booted p (fun _ => True) ∧ Permitted w (atBoot p) (fun _ => True) as ∧
        (Lists.run w (atBoot p) as).1 = m' := by
    refine ⟨p, as ++ [a], hp, permitted_append has (by rwa [hm]), ?_⟩
    rw [run_append, hm, hact]
  induction h with
  | start q htq hexptq hused =>
      obtain ⟨tq, exptq, timer⟩ := q
      obtain rfl : tq = [] := htq
      obtain rfl : exptq = [] := hexptq
      exact ⟨{ boot with timer := timer }, [], ⟨⟨rfl, rfl⟩, fun _ _ => ⟨rfl, rfl⟩, hused, rfl⟩,
        trivial, rfl⟩
  | call _ c hc ih =>
      obtain ⟨p, as, hp, has, hm⟩ := ih
      refine hone (.call c) hp has hm ?_ ?_
      · cases c with
        | init => exact hc
        | setTimeout | add | remove => exact hall as _
        | setHandler => trivial
      · cases c <;> rfl
  | takeDue _ now ih =>
      obtain ⟨p, as, hp, has, hm⟩ := ih
      exact hone (.takeDue now) hp has hm trivial rfl
  | @pop m _ t rest ht ih =>
      obtain ⟨p, as, hp, has, hm⟩ := ih
      obtain ⟨p', -, hstands⟩ := (stands_booted hp).run (sound_booted hp) has (Nat.lt_succ_self _)
      rw [hm] at hstands
      refine hone .turn hp has hm (fun houter => ?_) ?_
      · have hbottom := hstands.bottom
        rw [houter, ht] at hbottom
        cases hbottom
      · rw [Lists.act, Lists.turn, ht]
  | @leave m _ hdone ih =>
      obtain ⟨p, as, hp, has, hm⟩ := ih
      by_cases houter : m.outer = []
      · refine ⟨p, as, hp, has, ?_⟩
        simp only [hm, Timers.leave, houter]
      · refine hone .turn hp has hm houter ?_
        rw [Lists.act, Lists.turn, hdone]

/-- The timers in a run of the daemon are those of a run of the code on links. -/
theorem daemon_linked {e : Env} {s : Daemon} (h : Aodv.Reachable e s) : ∃ p as turns,
    Booted p (fun _ => True) ∧ Permitted e.arch (atBoot p) (fun _ => True) as ∧ ∀ n, turns ≤ n →
      ∃ p' answers, run e.arch n p as = some (p', answers) ∧
        Stands p' (as.foldl Action.makes fun _ => True) ⟨s.timers, []⟩ := by
  obtain ⟨p, as, hp, has, hm⟩ := reached_run (TimerSteps.timers_reached h)
  refine ⟨p, as, longest e.arch (atBoot p) as + 1, hp, has, fun n hn => ?_⟩
  obtain ⟨p', hdone, hstands⟩ := (stands_booted hp).run (sound_booted hp) has hn
  rw [hm] at hstands
  exact ⟨p', _, hdone, hstands⟩

end Aodv.TimerLinks
