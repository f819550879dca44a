import Aodv.Handlers

namespace Aodv.RouteTimeouts

variable {e : Env} {s s' s'' : Daemon} {now : Timeval} {a b : Option Ptr} {p q : Ptr}

def due (s : Daemon) (p : Ptr) : Timeval := deadline s.timers (.rtTimer p)

def Still (e : Env) (s : Daemon) (now : Timeval) : Prop := ∀ n, s.tick ≤ n → e.clock n = now

/-- The deadline that a refresh sets. -/
def later (e : Env) (now : Timeval) : Timeval := timeoutAfter e.arch now activeRouteTimeout

/-- In the words of the target, at least a millisecond before ACTIVE_ROUTE_TIMEOUT
from now. -/
def Sooner (e : Env) (now t : Timeval) : Prop :=
  timevalDiff e.arch t (timevalAddMsec e.arch now activeRouteTimeout) < 0

instance (e : Env) (now t : Timeval) : Decidable (Sooner e now t) :=
  inferInstanceAs (Decidable (_ < _))

def Late (e : Env) (now t : Timeval) : Prop := Sooner e now t ∧ t ≠ later e now

def refreshed (e : Env) (now t : Timeval) : Timeval := if Sooner e now t then later e now else t

theorem refreshed_twice (e : Env) (now t : Timeval) :
    refreshed e now (refreshed e now t) = refreshed e now t := by
  by_cases h : Sooner e now t
  · rw [refreshed, refreshed, if_pos h, ite_self]
  · rw [refreshed, refreshed, if_neg h, if_neg h]

theorem refreshed_eq (e : Env) (now t : Timeval) : refreshed e now t = t ↔ ¬ Late e now t := by
  rw [refreshed, Late]
  by_cases h : Sooner e now t
  · simp [h, eq_comm]
  · simp [h]

/-- The entries of S are refreshed and nothing else that a refresh looks at changes. -/
structure Refreshes (e : Env) (now : Timeval) (S : Ptr → Prop) (s s' : Daemon) : Prop where
  rtTbl : s'.rtTbl = s.rtTbl
  hello : ∀ q, (s'.timer (.helloTimer q)).used = (s.timer (.helloTimer q)).used
  tick : s.tick ≤ s'.tick
  hit : ∀ q, S q → due s' q = refreshed e now (due s q)
  miss : ∀ q, ¬ S q → due s' q = due s q

namespace Refreshes

variable {S T : Ptr → Prop}

theorem none (s : Daemon) : Refreshes e now (fun _ => False) s s :=
  ⟨rfl, fun _ => rfl, Nat.le_refl _, fun _ h => h.elim, fun _ _ => rfl⟩

theorem trans (h : Refreshes e now S s s') (h' : Refreshes e now T s' s'') :
    Refreshes e now (fun q => S q ∨ T q) s s'' := by
  refine ⟨h'.rtTbl.trans h.rtTbl, fun q => (h'.hello q).trans (h.hello q),
    Nat.le_trans h.tick h'.tick, fun q hq => ?_, fun q hq => ?_⟩
  · by_cases hT : T q
    · rw [h'.hit q hT]
      by_cases hS : S q
      · rw [h.hit q hS, refreshed_twice]
      · rw [h.miss q hS]
    · rw [h'.miss q hT, h.hit q (hq.resolve_right hT)]
  · rw [h'.miss q fun hT => hq (.inr hT), h.miss q fun hS => hq (.inl hS)]

theorem congr (h : Refreshes e now S s s') (hST : ∀ q, S q ↔ T q) : Refreshes e now T s s' :=
  ⟨h.rtTbl, h.hello, h.tick, fun q hq => h.hit q ((hST q).2 hq),
    fun q hq => h.miss q fun hS => hq ((hST q).1 hS)⟩

theorem still (h : Refreshes e now S s s') (hc : Still e s now) : Still e s' now :=
  fun n hn => hc n (Nat.le_trans h.tick hn)

theorem rt (h : Refreshes e now S s s') (q : Ptr) : s'.rt q = s.rt q := by
  rw [Daemon.rt, h.rtTbl]
  rfl

end Refreshes

theorem refreshes_updateTimeout (hc : Still e s now) (p : Ptr) :
    Refreshes e now (fun q => q = p ∧ (s.rt p).state = .valid) s
      (rtTableUpdateTimeout e s p (u32 activeRouteTimeout)) := by
  have hlong : e.arch.long (u32 activeRouteTimeout) = activeRouteTimeout := by
    cases e.arch <;> rfl
  have hnow : e.clock s.tick = now := hc _ (Nat.le_refl _)
  have hnext : e.clock (s.tick + 1) = now := hc _ (Nat.le_succ _)
  rw [rtTableUpdateTimeout]
  by_cases hv : (s.rt p).state = .valid
  · rw [if_pos hv]
    dsimp only
    rw [hnow, hlong]
    have hiff : timevalDiff e.arch (s.tock.timer (.rtTimer p)).timeout
        (timevalAddMsec e.arch now (u32 activeRouteTimeout).toNat) < 0 ↔ Sooner e now (due s p) :=
      Iff.rfl
    by_cases hlate : Sooner e now (due s p)
    · have hset (q : Ptr) :
          deadline (timerSetTimeout e.arch (e.clock (s.tick + 1)) s.timers (.rtTimer p)
            activeRouteTimeout)
            (.rtTimer q) = if q = p then later e now else due s q := by
        rw [deadline_timerSetTimeout, hnext]
        by_cases hq : q = p
        · rw [if_pos hq, if_pos (congrArg _ hq)]
          rfl
        · rw [if_neg hq, if_neg fun h => hq (TimerId.rtTimer.inj h)]
          rfl
      rw [if_pos (hiff.2 hlate)]
      refine ⟨rfl, fun q => ?_, by simp [Daemon.tock]; omega, fun q hq => ?_, fun q hq => ?_⟩
      · have hother : TimerId.helloTimer q ≠ .rtTimer p := by simp
        exact congrArg Timer.used (timer_timerSetTimeout_ne _ _ hother _)
      · obtain ⟨rfl, -⟩ := hq
        exact (hset q).trans (by rw [if_pos rfl, refreshed, if_pos hlate])
      · exact (hset q).trans (if_neg fun h => hq ⟨h, hv⟩)
    · rw [if_neg fun h => hlate (hiff.1 h)]
      refine ⟨rfl, fun q => rfl, Nat.le_succ _, fun q hq => ?_, fun q _ => rfl⟩
      obtain ⟨rfl, -⟩ := hq
      rw [refreshed, if_neg hlate]
      rfl
  · rw [if_neg hv]
    exact (Refreshes.none s).congr fun q => iff_of_false id fun h => hv h.2

def ByHopcnt (s : Daemon) (p : Ptr) : Prop :=
  (s.rt p).flags.inetDest ∨ (s.rt p).hopcnt ≠ 1 ∨ (s.timer (.helloTimer p)).used

def ByHelloCnt (s : Daemon) (p : Ptr) : Prop :=
  (s.rt p).helloCnt ≠ 1 ∨ (s.timer (.helloTimer p)).used

def Via (s : Daemon) (p q : Ptr) : Prop :=
  rtTableCheck s.rtTbl (s.rt p).nextHop = some q ∧ (s.rt q).state = .valid ∧
    (s.rt q).destAddr ≠ (s.rt p).destAddr ∧ (s.timer (.helloTimer p)).used

def Reaches (direct : Daemon → Ptr → Prop) (s : Daemon) (a : Option Ptr) (q : Ptr) : Prop :=
  ∃ p, a = some p ∧ (s.rt p).state = .valid ∧ (q = p ∧ direct s p ∨ Via s p q)

theorem Refreshes.via {S : Ptr → Prop} (h : Refreshes e now S s s') (p q : Ptr) :
    Via s' p q ↔ Via s p q := by
  rw [Via, Via, h.rtTbl, h.hello, h.rt, h.rt]

theorem Refreshes.reaches {S : Ptr → Prop} (h : Refreshes e now S s s')
    {direct : Daemon → Ptr → Prop} (hd : ∀ p, direct s' p ↔ direct s p) (a : Option Ptr) (q : Ptr) :
    Reaches direct s' a q ↔ Reaches direct s a q := by
  simp only [Reaches, h.rt, hd, h.via]

theorem refreshes_nextHop (hc : Still e s now) (p : Ptr) :
    Refreshes e now (Via s p) s (refreshNextHop e s p) := by
  rw [refreshNextHop]
  cases hn : rtTableCheck s.rtTbl (s.rt p).nextHop with
  | none =>
      refine (Refreshes.none s).congr fun q => iff_of_false id ?_
      rintro ⟨hq, -⟩
      rw [hn] at hq
      cases hq
  | some n =>
      dsimp only
      split
      next hv =>
        refine (refreshes_updateTimeout hc n).congr fun q => ?_
        constructor
        · rintro ⟨rfl, hvq⟩
          exact ⟨hn, hv⟩
        · rintro ⟨hq, hv', -⟩
          rw [hn] at hq
          cases hq
          exact ⟨rfl, hv'⟩
      next hv =>
        refine (Refreshes.none s).congr fun q => iff_of_false id ?_
        rintro ⟨hq, hv'⟩
        rw [hn] at hq
        cases hq
        exact hv hv'

theorem refreshes_branch (hc : Still e s now) (p : Ptr) (direct : Prop) [Decidable direct]
    (hv : (s.rt p).state = .valid) :
    Refreshes e now (fun q => q = p ∧ direct ∨ Via s p q) s (refreshNextHop e
      (if direct then rtTableUpdateTimeout e s p (u32 activeRouteTimeout) else s) p) := by
  by_cases hd : direct
  · rw [if_pos hd]
    have hself := refreshes_updateTimeout hc p
    refine (hself.trans (refreshes_nextHop (hself.still hc) p)).congr fun q => ?_
    rw [hself.via, and_iff_left hv, and_iff_left hd]
  · rw [if_neg hd]
    refine (refreshes_nextHop hc p).congr fun q => ?_
    rw [or_iff_right fun h => hd h.2]

theorem refreshes_reached (hc : Still e s now) (direct : Daemon → Ptr → Prop) (p : Ptr) (test : Prop)
    [Decidable test] (htest : test ↔ direct s p) :
    Refreshes e now (Reaches direct s (some p)) s
      (if (s.rt p).state = .valid then refreshNextHop e
        (if test then rtTableUpdateTimeout e s p (u32 activeRouteTimeout) else s) p else s) := by
  split
  next hv =>
    refine (refreshes_branch hc p test hv).congr fun q => ?_
    constructor
    · rintro (⟨hq, h⟩ | h)
      · exact ⟨p, rfl, hv, .inl ⟨hq, htest.1 h⟩⟩
      · exact ⟨p, rfl, hv, .inr h⟩
    · rintro ⟨_, hp, -, h⟩
      cases hp
      rcases h with ⟨hq, h⟩ | h
      · exact .inl ⟨hq, htest.2 h⟩
      · exact .inr h
  next hv =>
    refine (Refreshes.none s).congr fun q => iff_of_false id ?_
    rintro ⟨_, hp, hv', -⟩
    cases hp
    exact hv hv'

theorem reaches_none (direct : Daemon → Ptr → Prop) (q : Ptr) : ¬ Reaches direct s none q := by
  rintro ⟨_, hp, -⟩
  cases hp

theorem refreshes_forward (hc : Still e s now) (a : Option Ptr) :
    Refreshes e now (Reaches ByHopcnt s a) s (refreshForward e s a) := by
  cases a with
  | none => exact (Refreshes.none s).congr fun q => iff_of_false id (reaches_none _ q)
  | some p => exact refreshes_reached hc ByHopcnt p _ Iff.rfl

theorem refreshes_reverse (hc : Still e s now) (b : Option Ptr) :
    Refreshes e now (Reaches ByHelloCnt s b) s (refreshReverse e s b) := by
  cases b with
  | none => exact (Refreshes.none s).congr fun q => iff_of_false id (reaches_none _ q)
  | some p => exact refreshes_reached hc ByHelloCnt p _ Iff.rfl

theorem refreshes_both (hc : Still e s now) (a b : Option Ptr) :
    Refreshes e now (fun q => Reaches ByHopcnt s a q ∨ Reaches ByHelloCnt s b q) s
      (rtTableUpdateRouteTimeouts e s a b) := by
  have hforward := refreshes_forward hc a
  refine (hforward.trans (refreshes_reverse (hforward.still hc) b)).congr fun q => ?_
  rw [hforward.reaches fun p => by rw [ByHelloCnt, ByHelloCnt, hforward.rt, hforward.hello]]

def Helped (s : Daemon) (b : Option Ptr) (p : Ptr) : Prop :=
  ∃ r, b = some r ∧ (s.rt r).state = .valid ∧ Via s r p

/-- Only one of the two tests finds p, it is late, and the other route does not
make up for that. -/
structure ExposedAt (e : Env) (now : Timeval) (s : Daemon) (b : Option Ptr) (p : Ptr) : Prop where
  other : b ≠ some p
  valid : (s.rt p).state = .valid
  late : Late e now (due s p)
  hello : (s.timer (.helloTimer p)).used = false
  tests : ¬ ((s.rt p).hopcnt = 1 ↔ (s.rt p).helloCnt = 1)
  alone : ¬ Helped s b p

def Exposed (e : Env) (now : Timeval) (s : Daemon) (a b : Option Ptr) : Prop :=
  ∃ p, a = some p ∧ ExposedAt e now s b p

theorem reaches_self (direct : Daemon → Ptr → Prop) (s : Daemon) (q : Ptr) :
    Reaches direct s (some q) q ↔ (s.rt q).state = .valid ∧ direct s q := by
  constructor
  · rintro ⟨_, hp, hv, h | h⟩
    · cases hp
      exact ⟨hv, h.2⟩
    · cases hp
      exact absurd rfl h.2.2.1
  · rintro ⟨hv, h⟩
    exact ⟨q, rfl, hv, .inl ⟨rfl, h⟩⟩

theorem reaches_other (direct : Daemon → Ptr → Prop) (hb : b ≠ some q) :
    Reaches direct s b q ↔ Helped s b q := by
  constructor
  · rintro ⟨r, hr, hv, h | h⟩
    · exact absurd (h.1 ▸ hr) hb
    · exact ⟨r, hr, hv, h⟩
  · rintro ⟨r, hr, hv, h⟩
    exact ⟨r, hr, hv, .inr h⟩

theorem alike_at (hi : (s.rt q).flags.inetDest = false) (hb : b ≠ some q) :
    (Reaches ByHopcnt s (some q) q ∨ Reaches ByHelloCnt s b q ↔
        Reaches ByHopcnt s b q ∨ Reaches ByHelloCnt s (some q) q) ∨ ¬ Late e now (due s q) ↔
      ¬ ExposedAt e now s b q := by
  rw [reaches_self, reaches_self, reaches_other _ hb, reaches_other _ hb, ByHopcnt, ByHelloCnt, hi]
  have hexposed : ExposedAt e now s b q ↔ (s.rt q).state = .valid ∧ Late e now (due s q) ∧
      (s.timer (.helloTimer q)).used = false ∧
        ¬ ((s.rt q).hopcnt = 1 ↔ (s.rt q).helloCnt = 1) ∧ ¬ Helped s b q :=
    ⟨fun h => ⟨h.valid, h.late, h.hello, h.tests, h.alone⟩,
      fun ⟨h₁, h₂, h₃, h₄, h₅⟩ => ⟨hb, h₁, h₂, h₃, h₄, h₅⟩⟩
  rw [hexposed]
  cases (s.timer (.helloTimer q)).used
  · simp only [Bool.false_eq_true, or_false, false_or, true_and]
    grind
  · simp only [or_true, and_true]
    grind

theorem due_both (hc : Still e s now) (a b : Option Ptr) (q : Ptr) :
    due (rtTableUpdateRouteTimeouts e s a b) q = due (rtTableUpdateRouteTimeouts e s b a) q ↔
      (Reaches ByHopcnt s a q ∨ Reaches ByHelloCnt s b q ↔
        Reaches ByHopcnt s b q ∨ Reaches ByHelloCnt s a q) ∨ ¬ Late e now (due s q) := by
  have hab := refreshes_both hc a b
  have hba := refreshes_both hc b a
  rw [← refreshed_eq]
  by_cases h : Reaches ByHopcnt s a q ∨ Reaches ByHelloCnt s b q
  · rw [hab.hit q h]
    by_cases h' : Reaches ByHopcnt s b q ∨ Reaches ByHelloCnt s a q
    · rw [hba.hit q h']
      exact iff_of_true rfl (.inl (iff_of_true h h'))
    · rw [hba.miss q h', or_iff_right fun hiff => h' (hiff.1 h)]
  · rw [hab.miss q h]
    by_cases h' : Reaches ByHopcnt s b q ∨ Reaches ByHelloCnt s a q
    · rw [hba.hit q h', or_iff_right fun hiff => h (hiff.2 h'), eq_comm]
    · rw [hba.miss q h']
      exact iff_of_true rfl (.inl (iff_of_false h h'))

/-- The two orders lead to the same deadlines exactly when neither route is exposed. -/
theorem alike_iff (hc : Still e s now)
    (ha : ∀ p, a = some p → Linked s.rtTbl p ∧ (s.rt p).flags.inetDest = false)
    (hb : ∀ p, b = some p → Linked s.rtTbl p ∧ (s.rt p).flags.inetDest = false) :
    (∀ q, Linked s.rtTbl q → due (rtTableUpdateRouteTimeouts e s a b) q =
        due (rtTableUpdateRouteTimeouts e s b a) q) ↔
      ¬ Exposed e now s a b ∧ ¬ Exposed e now s b a := by
  constructor
  · intro h
    constructor
    · rintro ⟨p, rfl, hp⟩
      obtain ⟨hl, hi⟩ := ha p rfl
      exact (alike_at hi hp.other).1 ((due_both hc (some p) b p).1 (h p hl)) hp
    · rintro ⟨p, rfl, hp⟩
      obtain ⟨hl, hi⟩ := hb p rfl
      exact (alike_at hi hp.other).1 ((due_both hc (some p) a p).1 (h p hl).symm) hp
  · rintro ⟨hna, hnb⟩ q -
    by_cases haq : a = some q
    · by_cases hbq : b = some q
      · rw [haq, hbq]
      · rw [haq]
        exact (due_both hc (some q) b q).2 ((alike_at (ha q haq).2 hbq).2 fun hq => hna ⟨q, haq, hq⟩)
    · by_cases hbq : b = some q
      · rw [hbq]
        symm
        exact (due_both hc (some q) a q).2 ((alike_at (hb q hbq).2 haq).2 fun hq => hnb ⟨q, hbq, hq⟩)
      · apply (due_both hc a b q).2
        left
        rw [reaches_other _ haq, reaches_other _ haq, reaches_other _ hbq, reaches_other _ hbq]
        exact or_comm

def second : Env := { plain with clock := fun n => if n < 6 then ⟨0, 0⟩ else ⟨1, 0⟩ }

def met : Daemon := neighborAdd second (init second 0x0100000a 0xff00000a 2) 0x0200000a

theorem still_met : Still second met ⟨1, 0⟩ := fun _ hn => if_neg (Nat.not_lt.2 hn)

theorem linked_met : Linked met.rtTbl 0 := ⟨hashing 0x0200000a, by decide⟩

theorem alike_iff_met :
    (∀ q, Linked met.rtTbl q → due (rtTableUpdateRouteTimeouts second met (some 0) none) q =
        due (rtTableUpdateRouteTimeouts second met none (some 0)) q) ↔
      ¬ Exposed second ⟨1, 0⟩ met (some 0) none ∧ ¬ Exposed second ⟨1, 0⟩ met none (some 0) :=
  alike_iff still_met (fun p hp => Option.some.inj hp ▸ ⟨linked_met, by decide⟩)
    fun p hp => by cases hp

/-- As the forward route the neighbour is not refreshed, as the reverse route it is. -/
theorem neighbor_refreshed_once : Linked met.rtTbl 0 ∧ (met.rt 0).flags.inetDest = false ∧
    due (rtTableUpdateRouteTimeouts second met (some 0) none) 0 = ⟨3, 0⟩ ∧
      due (rtTableUpdateRouteTimeouts second met none (some 0)) 0 = ⟨4, 0⟩ :=
  ⟨linked_met, by decide, by decide, by decide⟩

end Aodv.RouteTimeouts
