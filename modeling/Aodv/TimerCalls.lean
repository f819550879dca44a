import Aodv.Lib.Sequences
import Aodv.TimerQueue

namespace Aodv.TimerCalls

open Lib.Sequences

/-- The timer queue, with the batches of the timer_timeout calls that wait for a
handler to return from one of its own, the innermost first. -/
structure Timers where
  q : TimerQueue
  outer : List (List TimerId)

/-- A call from anywhere, with what gettimeofday returns in it. -/
inductive Call
  | init (t : TimerId) (f : Option Handler) (data : Data)
  | setTimeout (now : Timeval) (t : TimerId) (msec : Int)
  | add (t : TimerId)
  | remove (t : TimerId)
  | setHandler (t : TimerId) (f : Handler)

namespace Timers

variable (m : Timers) (t : TimerId)

def lists : List TimerId := (m.q.tq :: m.q.exptq :: m.outer).flatten

def links : Nat := m.lists.count t

def remove : Timers := ⟨timerRemove m.q t, m.outer.map fun l => l.filter (· ≠ t)⟩

def call (a : Arch) (m : Timers) : Call → Timers
  | .init t (some f) data => { m with q := timerInit m.q t f data }
  | .init t none data => { m with q := set m.q t ⟨false, ⟨0, 0⟩, none, data⟩ }
  | .setTimeout now t msec =>
      ⟨timerSetTimeout a now m.q t msec,
        if (m.q.timer t).used then (m.remove t).outer else m.outer⟩
  | .add t => { m with q := timerAdd a m.q t }
  | .remove t => m.remove t
  | .setHandler t f => { m with q := setHandler m.q t f }

/-- The first loop of timer_timeout, with a batch of its own. -/
def takeDue (a : Arch) (m : Timers) (now : Timeval) : Timers :=
  let due := fun t => decide (timevalDiff a (m.q.timer t).timeout now ≤ 0)
  ⟨{ m.q with tq := m.q.tq.dropWhile due, exptq := m.q.tq.takeWhile due }, m.q.exptq :: m.outer⟩

def leave : Timers :=
  match m.outer with
  | [] => m
  | l :: outer => ⟨{ m.q with exptq := l }, outer⟩

end Timers

def Call.Allowed (m : Timers) : Call → Prop
  | .init t _ _ => t ∉ m.lists
  | _ => True

/-- The states between any two of these steps. The code of a handler is calls,
and a call of timer_timeout in it is the same steps again. -/
inductive Reached (a : Arch) : Timers → Prop
  | start (q : TimerQueue) (htq : q.tq = []) (hexptq : q.exptq = [])
      (hused : ∀ t, (q.timer t).used = false) : Reached a ⟨q, []⟩
  | call {m : Timers} (h : Reached a m) (c : Call) (hc : c.Allowed m) : Reached a (m.call a c)
  | takeDue {m : Timers} (h : Reached a m) (now : Timeval) : Reached a (m.takeDue a now)
  | pop {m : Timers} (h : Reached a m) {t : TimerId} {rest : List TimerId}
      (ht : m.q.exptq = t :: rest) : Reached a (m.remove t)
  | leave {m : Timers} (h : Reached a m) (hdone : m.q.exptq = []) : Reached a m.leave

/-- Less than a millisecond past the other deadline. -/
def Before (q : TimerQueue) (t u : TimerId) : Prop :=
  micros (deadline q t) < micros (deadline q u) + 1000

/-- The order of the main queue rests on exact time arithmetic. -/
structure Sound (a : Arch) (m : Timers) : Prop where
  nodup : m.lists.Nodup
  used : ∀ t, (m.q.timer t).used = true ↔ t ∈ m.lists
  handler : ∀ t ∈ m.lists, (m.q.timer t).handler ≠ none
  ordered : a = .long64 → m.q.tq.Pairwise (Before m.q)

def Sooner (a : Arch) (timeout : TimerId → Timeval) (t u : TimerId) : Prop :=
  timevalDiff a (timeout t) (timeout u) < 0

instance (a : Arch) (timeout : TimerId → Timeval) : DecidableRel (Sooner a timeout) := fun t u =>
  inferInstanceAs (Decidable (timevalDiff a (timeout t) (timeout u) < 0))

theorem insertSorted_eq (a : Arch) (timeout : TimerId → Timeval) (t : TimerId) (l : List TimerId) :
    insertSorted a timeout t l = l.orderedInsert (Sooner a timeout) t := by
  induction l with
  | nil => rfl
  | cons u l ih => rw [insertSorted, List.orderedInsert_cons, ih]; rfl

theorem sooner_iff {q : TimerQueue} {t u : TimerId} :
    Sooner .long64 (fun v => (q.timer v).timeout) t u ↔
      micros (deadline q t) + 1000 ≤ micros (deadline q u) := exact_neg

/-- Comparing whole milliseconds is no order, but it keeps this bound. -/
theorem ordered_insertSorted {q : TimerQueue} (t : TimerId) {l : List TimerId}
    (h : l.Pairwise (Before q)) :
    (insertSorted .long64 (fun u => (q.timer u).timeout) t l).Pairwise (Before q) := by
  rw [insertSorted_eq]
  apply pairwise_orderedInsert _ _ _ t h
  · intro a b hab
    rw [sooner_iff] at hab
    rw [Before]
    omega
  · intro a b hab
    rw [sooner_iff] at hab
    rw [Before]
    omega
  · intro a b c hab hbc
    rw [sooner_iff] at hab
    rw [Before] at hbc ⊢
    omega

theorem ordered_congr {q q' : TimerQueue} {l : List TimerId} (h : l.Pairwise (Before q))
    (heq : ∀ t ∈ l, deadline q' t = deadline q t) : l.Pairwise (Before q') := by
  apply h.imp_of_mem
  intro t u ht hu hb
  rwa [Before, heq t ht, heq u hu]

namespace Sound

variable {a : Arch} {m : Timers} {t : TimerId}

theorem unused (h : Sound a m) (ht : t ∉ m.lists) : (m.q.timer t).used = false := by
  have hu := mt (h.used t).1 ht
  simpa using hu

theorem write (h : Sound a m) (ht : t ∉ m.lists) {v : Timer} (hv : v.used = false) :
    Sound a { m with q := set m.q t v } := by
  have hne {u : TimerId} (hu : u ∈ m.lists) : u ≠ t := by
    rintro rfl
    exact ht hu
  refine ⟨h.nodup, fun u => ?_, fun u hu => ?_, ?_⟩
  · by_cases hu : u = t
    · subst u
      dsimp only
      rw [set_timer_self, hv]
      exact iff_of_false (by simp) ht
    · dsimp only
      rw [set_timer_ne m.q hu]
      exact h.used u
  · dsimp only
    rw [set_timer_ne m.q (hne hu)]
    exact h.handler u hu
  · intro ha
    apply ordered_congr (h.ordered ha)
    intro u hu
    have hmem : u ∈ m.lists := List.mem_append.2 (.inl hu)
    rw [deadline_set, if_neg (hne hmem)]

theorem lists_remove (m : Timers) (t : TimerId) :
    (m.remove t).lists = m.lists.filter (· ≠ t) := by
  rw [Timers.lists, Timers.lists, List.filter_flatten]
  rfl

theorem remove (h : Sound a m) (t : TimerId) : Sound a (m.remove t) := by
  have hmem (u : TimerId) : u ∈ (m.remove t).lists ↔ u ∈ m.lists ∧ u ≠ t := by
    rw [lists_remove, List.mem_filter]
    simp
  have htimer {u : TimerId} (hu : u ≠ t) : (m.remove t).q.timer u = m.q.timer u :=
    set_timer_ne (unlink m.q t) hu _
  refine ⟨?_, fun u => ?_, fun u hu => ?_, ?_⟩
  · rw [lists_remove]
    exact h.nodup.filter _
  · rw [hmem]
    by_cases hu : u = t
    · subst u
      simp [Timers.remove, timerRemove]
    · rw [htimer hu, h.used u]
      simp [hu]
  · obtain ⟨hu, hne⟩ := (hmem u).1 hu
    rw [htimer hne]
    exact h.handler u hu
  · intro ha
    apply ordered_congr ((h.ordered ha).sublist List.filter_sublist)
    intro u hu
    exact deadline_timerRemove m.q t u

theorem add (h : Sound a m) (t : TimerId) : Sound a { m with q := timerAdd a m.q t } := by
  unfold timerAdd
  split
  · exact h
  next hh =>
    split
    · exact h
    next hu =>
      have ht : t ∉ m.lists := fun ht => hu ((h.used t).2 ht)
      have hperm : (insertSorted a (fun u => (m.q.timer u).timeout) t m.q.tq).Perm (t :: m.q.tq) := by
        rw [insertSorted_eq]
        exact List.perm_orderedInsert _ t m.q.tq
      have hlists : Timers.lists { m with q := { Aodv.set m.q t { m.q.timer t with used := true } with
          tq := insertSorted a (fun u => (m.q.timer u).timeout) t m.q.tq } } |>.Perm
          (t :: m.lists) := hperm.append_right _
      have hother {u : TimerId} (hne : u ≠ t) :
          (Aodv.set m.q t { m.q.timer t with used := true }).timer u = m.q.timer u :=
        set_timer_ne m.q hne _
      refine ⟨hlists.nodup_iff.2 (List.nodup_cons.2 ⟨ht, h.nodup⟩), fun u => ?_, fun u hu => ?_, ?_⟩
      · rw [hlists.mem_iff, List.mem_cons]
        by_cases hne : u = t
        · subst u
          exact iff_of_true (by simp [Aodv.set]) (.inl rfl)
        · dsimp only
          rw [hother hne, h.used u]
          simp [hne]
      · by_cases hne : u = t
        · subst u
          simpa [Aodv.set] using hh
        · dsimp only
          rw [hother hne]
          rw [hlists.mem_iff, List.mem_cons] at hu
          exact h.handler u (hu.resolve_left hne)
      · rintro rfl
        apply ordered_congr (ordered_insertSorted t (h.ordered rfl))
        intro u _
        exact deadline_set_same m.q t u rfl

theorem setTimeout (h : Sound a m) (now : Timeval) (t : TimerId) (msec : Int) :
    Sound a (m.call a (.setTimeout now t msec)) := by
  -- the timer comes off its list before its deadline is written
  obtain ⟨m', hm', ht, hcall⟩ : ∃ m', Sound a m' ∧ t ∉ m'.lists ∧
      m.call a (.setTimeout now t msec) = { m' with q := timerSetTimeout a now m'.q t msec } := by
    by_cases hu : (m.q.timer t).used = true
    · refine ⟨m.remove t, h.remove t, ?_, ?_⟩
      · rw [lists_remove]
        simp
      · simp only [Timers.call, if_pos hu]
        congr 1
        exact (timerSetTimeout_timerRemove now m.q t msec hu).symm
    · refine ⟨m, h, fun ht => hu ((h.used t).2 ht), ?_⟩
      simp only [Timers.call, if_neg hu]
  have hidle := hm'.unused ht
  rw [hcall]
  have hnone : (if (m'.q.timer t).used then timerRemove m'.q t else m'.q) = m'.q :=
    if_neg (by simp [hidle])
  simp only [timerSetTimeout, hnone]
  have hnow := hm'.write (v := { m'.q.timer t with timeout := now }) ht hidle
  split
  · exact hnow
  · refine Sound.add (hnow.write (t := t) ht ?_) t
    rw [← hidle, set_timer_self]

theorem setHandler (h : Sound a m) (t : TimerId) (f : Handler) :
    Sound a { m with q := setHandler m.q t f } := by
  have hused (u : TimerId) : ((Aodv.setHandler m.q t f).timer u).used = (m.q.timer u).used := by
    rw [Aodv.setHandler]
    by_cases hu : u = t
    · rw [hu, set_timer_self]
    · rw [set_timer_ne m.q hu]
  refine ⟨h.nodup, fun u => ?_, fun u hu => ?_, ?_⟩
  · dsimp only
    rw [hused u]
    exact h.used u
  · dsimp only
    rw [Aodv.setHandler]
    by_cases hne : u = t
    · rw [hne, set_timer_self]
      simp
    · rw [set_timer_ne m.q hne]
      exact h.handler u hu
  · intro ha
    apply ordered_congr (h.ordered ha)
    intro u _
    exact deadline_setHandler m.q t u f

theorem call (h : Sound a m) (c : Call) (hc : c.Allowed m) : Sound a (m.call a c) := by
  cases c with
  | init t f data =>
      cases f with
      | none => exact h.write hc rfl
      | some f => exact h.write hc rfl
  | setTimeout now t msec => exact h.setTimeout now t msec
  | add t => exact h.add t
  | remove t => exact h.remove t
  | setHandler t f => exact h.setHandler t f

theorem lists_takeDue (a : Arch) (m : Timers) (now : Timeval) :
    (m.takeDue a now).lists.Perm m.lists := by
  have hsplit := List.takeWhile_append_dropWhile
    (p := fun t => decide (timevalDiff a (m.q.timer t).timeout now ≤ 0)) (l := m.q.tq)
  have hperm : (m.takeDue a now).lists.Perm (((m.takeDue a now).q.exptq ++ (m.takeDue a now).q.tq) ++
      (m.q.exptq ++ m.outer.flatten)) := by
    rw [Timers.lists, List.flatten_cons, List.flatten_cons, ← List.append_assoc]
    exact List.perm_append_comm.append_right _
  refine hperm.trans ?_
  change List.Perm (_ ++ (m.q.exptq ++ m.outer.flatten)) (m.q.tq ++ (m.q.exptq ++ m.outer.flatten))
  rw [Timers.takeDue, hsplit]

theorem takeDue (h : Sound a m) (now : Timeval) : Sound a (m.takeDue a now) := by
  have hperm := lists_takeDue a m now
  refine ⟨hperm.nodup_iff.2 h.nodup, fun t => ?_, fun t ht => ?_, ?_⟩
  · rw [hperm.mem_iff]
    exact h.used t
  · exact h.handler t (hperm.mem_iff.1 ht)
  · exact fun ha => (h.ordered ha).sublist (List.dropWhile_sublist _)

theorem leave (h : Sound a m) (hdone : m.q.exptq = []) : Sound a m.leave := by
  rw [Timers.leave]
  split
  · exact h
  next l outer houter =>
    have hlists : Timers.lists ⟨{ m.q with exptq := l }, outer⟩ = m.lists := by
      simp [Timers.lists, hdone, houter]
    refine ⟨?_, fun t => ?_, fun t ht => ?_, h.ordered⟩
    · rw [hlists]
      exact h.nodup
    · rw [hlists]
      exact h.used t
    · rw [hlists] at ht
      exact h.handler t ht

theorem start {q : TimerQueue} (htq : q.tq = []) (hexptq : q.exptq = [])
    (hused : ∀ t, (q.timer t).used = false) : Sound a ⟨q, []⟩ := by
  have hlists : Timers.lists ⟨q, []⟩ = [] := by simp [Timers.lists, htq, hexptq]
  refine ⟨?_, fun t => ?_, fun t ht => ?_, ?_⟩
  · rw [hlists]
    exact List.nodup_nil
  · rw [hlists, hused t]
    simp
  · rw [hlists] at ht
    exact absurd ht List.not_mem_nil
  · intro _
    rw [htq]
    exact .nil

end Sound

theorem Reached.sound {a : Arch} {m : Timers} (h : Reached a m) : Sound a m := by
  induction h with
  | start q htq hexptq hused => exact .start htq hexptq hused
  | call _ c hc ih => exact ih.call c hc
  | takeDue _ now ih => exact ih.takeDue now
  | pop _ ht ih => exact ih.remove _
  | leave _ hdone ih => exact ih.leave hdone

/-- A used timer is linked once, in the main queue or in a batch of a call that
is not over, any other timer nowhere, and the main queue is out of order by less
than a millisecond. -/
theorem timer_queue_invariant {a : Arch} {m : Timers} (h : Reached a m) :
    (∀ t, (m.q.timer t).used = true ↔ m.links t = 1) ∧ (∀ t, m.links t ≤ 1) ∧
      (a = .long64 →
        m.q.tq.Pairwise fun t u => micros (deadline m.q t) < micros (deadline m.q u) + 1000) := by
  have hsound := h.sound
  have honce (t : TimerId) : m.links t ≤ 1 := List.nodup_iff_count_le_one.1 hsound.nodup t
  refine ⟨fun t => ?_, honce, hsound.ordered⟩
  rw [hsound.used t, ← List.count_pos_iff]
  constructor
  · exact fun hpos => Nat.le_antisymm (honce t) hpos
  · intro hone
    rw [Timers.links] at hone
    omega

def armed : Timers :=
  [.init .rtLogTimer (some .printRtTable) .null, .init .ownHelloTimer (some .helloSend) .null,
    .setTimeout ⟨0, 999⟩ .rtLogTimer 0, .setTimeout ⟨0, 0⟩ .ownHelloTimer 0].foldl (Timers.call .long64)
    ⟨⟨[], [], fun _ => .zero⟩, []⟩

theorem reached_armed : Reached .long64 armed := by
  have hstart : Reached .long64 ⟨⟨[], [], fun _ => .zero⟩, []⟩ := .start _ rfl rfl fun _ => rfl
  have hlog := hstart.call (.init .rtLogTimer (some .printRtTable) .null) List.not_mem_nil
  have hhello := hlog.call (.init .ownHelloTimer (some .helloSend) .null) List.not_mem_nil
  have hfirst := hhello.call (.setTimeout ⟨0, 999⟩ .rtLogTimer 0) trivial
  exact hfirst.call (.setTimeout ⟨0, 0⟩ .ownHelloTimer 0) trivial

/-- The handler of the first one calls timer_timeout. -/
theorem timer_queue_invariant_interrupted :
    let m := ((armed.takeDue .long64 ⟨0, 0⟩).remove .rtLogTimer).takeDue .long64 ⟨0, 0⟩
    (∀ t, (m.q.timer t).used = true ↔ m.links t = 1) ∧ (∀ t, m.links t ≤ 1) ∧
      (Arch.long64 = .long64 →
        m.q.tq.Pairwise fun t u => micros (deadline m.q t) < micros (deadline m.q u) + 1000) :=
  timer_queue_invariant (((reached_armed.takeDue ⟨0, 0⟩).pop
    (show _ = .rtLogTimer :: [.ownHelloTimer] by decide)).takeDue ⟨0, 0⟩)

end Aodv.TimerCalls
