import Aodv.TimerQueue

namespace Aodv.TargetTime

open Lib.Bytes
open Arch (long32)

/-- The difference is exact as long as the times are less than 2^31 microseconds
apart. -/
theorem timevalDiff_exact {t u : Timeval} :
    timevalDiff .long32 t u = timevalDiff .long64 t u ↔ FitsLong (micros t - micros u) := by
  rw [timevalDiff_eq, timevalDiff_eq]
  generalize micros t - micros u = x
  change _ = x.tdiv 1000 ↔ _
  constructor
  · intro h
    obtain ⟨hlow, hhigh⟩ := fits_signed x
    obtain ⟨k, hk⟩ := signed_turns x
    have hleft := tdiv_thousand (long32.signed x)
    have hright := tdiv_thousand x
    rw [FitsLong]
    omega
  · intro h
    rw [signed_of_fits fun _ => h]

def Represented (t : Timeval) : Prop := FitsLong t.tvSec ∧ 0 ≤ t.tvUsec ∧ t.tvUsec < 1000000

instance (t : Timeval) : Decidable (Represented t) := inferInstanceAs (Decidable (_ ∧ _))

def lifetimeArg (lifetime : U32) : Int := long32.long lifetime

theorem lifetimeArg_cases (lifetime : U32) :
    (lifetime.toNat < 2 ^ 31 ∧ lifetimeArg lifetime = lifetime.toNat) ∨
      (2 ^ 31 ≤ lifetime.toNat ∧ lifetimeArg lifetime < 0) := by
  have hlt := lifetime.isLt
  change (_ ∧ lifetime.toInt = _) ∨ (_ ∧ lifetime.toInt < 0)
  rw [BitVec.toInt_eq_toNat_cond]
  split
  · exact .inl ⟨by omega, rfl⟩
  · exact .inr ⟨by omega, by omega⟩

theorem deadline_lifetime (now : Timeval) (q : TimerQueue) (t : TimerId) (msec : Int) :
    deadline (timerSetTimeout .long32 now q t msec) t =
      if msec < 0 then now else timeoutAfter .long32 now msec := by
  rw [deadline_timerSetTimeout, if_pos rfl]

section Deadline

variable {now : Timeval} {lifetime : U32}

/-- The microseconds of the deadline before they are split. -/
def sum (now : Timeval) (lifetime : U32) : Int := now.tvUsec + lifetime.toNat * 1000

theorem split_exact {sec x : Int} (hx : 0 ≤ x) (hlt : x < 2 ^ 43) :
    (⟨long32.signed (sec + (long32.signed x).tdiv 1000000), (long32.signed x).tmod 1000000⟩ :
        Timeval) =
        ⟨sec + x.tdiv 1000000, x.tmod 1000000⟩ ↔
      x < 2 ^ 31 ∧ long32.signed (sec + x.tdiv 1000000) = sec + x.tdiv 1000000 := by
  constructor
  · intro h
    obtain ⟨hsec, husec⟩ := Timeval.mk.inj h
    obtain ⟨hlow, hhigh⟩ := fits_signed x
    have hquot := Int.mul_tdiv_add_tmod x 1000000
    have hquot' := Int.mul_tdiv_add_tmod (long32.signed x) 1000000
    have hrest := Int.tmod_lt_of_pos x (b := 1000000) (by decide)
    have hrest' := Int.lt_tmod_of_pos x (b := 1000000) (by decide)
    obtain ⟨k, hk⟩ := signed_turns (sec + (long32.signed x).tdiv 1000000)
    -- both quotients are far smaller than a turn
    have hsame : (long32.signed x).tdiv 1000000 = x.tdiv 1000000 := by omega
    rw [hsame] at hsec
    exact ⟨by omega, hsec⟩
  · rintro ⟨hfits, hsec⟩
    rw [signed_of_fits (x := x) fun _ => ⟨by omega, hfits⟩, hsec]

theorem sum_bounds (hnow : Represented now) : 0 ≤ sum now lifetime ∧ sum now lifetime < 2 ^ 43 := by
  have hlt := lifetime.isLt
  obtain ⟨-, hlow, hhigh⟩ := hnow
  rw [sum]
  omega

theorem deadline_exact (q : TimerQueue) (t : TimerId) (hnow : Represented now)
    (htrue : Represented (timevalAddMsec .long64 now lifetime.toNat)) :
    deadline (timerSetTimeout .long32 now q t (lifetimeArg lifetime)) t =
        timevalAddMsec .long64 now lifetime.toNat ↔ sum now lifetime < 2 ^ 31 := by
  obtain ⟨hlow, hhigh⟩ := sum_bounds hnow
  have hsec : long32.signed (now.tvSec + (sum now lifetime).tdiv 1000000) =
      now.tvSec + (sum now lifetime).tdiv 1000000 := signed_of_fits fun _ => htrue.1
  change _ = (⟨now.tvSec + (sum now lifetime).tdiv 1000000,
    (sum now lifetime).tmod 1000000⟩ : Timeval) ↔ _
  rw [deadline_lifetime]
  rcases lifetimeArg_cases lifetime with ⟨hsmall, harg⟩ | ⟨hlarge, hneg⟩
  · have hsum : long32.signed (now.tvUsec + long32.signed (lifetime.toNat * 1000)) =
        long32.signed (sum now lifetime) := by
      simp only [sum, Arch.signed, Int.add_bmod_bmod]
    rw [harg, if_neg (Int.not_lt.2 (Int.natCast_nonneg _)), timeoutAfter, hsum, split_exact hlow hhigh]
    exact and_iff_left hsec
  · -- a lifetime of 2^31 and more is a negative interval
    have hwide : 2 ^ 31 ≤ sum now lifetime := by
      have husec := hnow.2.1
      rw [sum]
      omega
    rw [if_pos hneg]
    constructor
    · intro h
      have hquot := Int.mul_tdiv_add_tmod (sum now lifetime) 1000000
      have hrest := Int.tmod_lt_of_pos (sum now lifetime) (b := 1000000) (by decide)
      have hsame : now.tvSec = now.tvSec + (sum now lifetime).tdiv 1000000 := congrArg Timeval.tvSec h
      omega
    · intro h
      omega

theorem addMsec_exact (hnow : Represented now)
    (htrue : Represented (timevalAddMsec .long64 now lifetime.toNat)) :
    timevalAddMsec .long32 now lifetime.toNat = timevalAddMsec .long64 now lifetime.toNat ↔
      sum now lifetime < 2 ^ 32 := by
  obtain ⟨hlow, hhigh⟩ := sum_bounds hnow
  have hsec : long32.signed (now.tvSec + (sum now lifetime).tdiv 1000000) =
      now.tvSec + (sum now lifetime).tdiv 1000000 := signed_of_fits fun _ => htrue.1
  have hadd : long32.unsigned (long32.unsigned now.tvUsec +
      long32.unsigned (lifetime.toNat * 1000)) = sum now lifetime % 2 ^ 32 := by
    simp only [Arch.unsigned, sum]
    omega
  have hmod : 0 ≤ sum now lifetime % 2 ^ 32 := Int.emod_nonneg _ (by decide)
  rw [show timevalAddMsec .long32 now lifetime.toNat =
      ⟨long32.signed (now.tvSec + (sum now lifetime % 2 ^ 32) / 1000000),
        (sum now lifetime % 2 ^ 32) % 1000000⟩ by
    rw [timevalAddMsec, hadd, Int.tdiv_eq_ediv_of_nonneg hmod, Int.tmod_eq_emod_of_nonneg hmod]]
  change _ = (⟨now.tvSec + (sum now lifetime).tdiv 1000000,
    (sum now lifetime).tmod 1000000⟩ : Timeval) ↔ _
  rw [Int.tdiv_eq_ediv_of_nonneg hlow] at hsec ⊢
  rw [Int.tmod_eq_emod_of_nonneg hlow]
  constructor
  · intro h
    obtain ⟨hsec', husec⟩ := Timeval.mk.inj h
    obtain ⟨k, hk⟩ := signed_turns (now.tvSec + sum now lifetime % 2 ^ 32 / 1000000)
    omega
  · intro h
    rw [Int.emod_eq_of_lt hlow h, hsec]

end Deadline

/-- What the callers of the time functions expect of them. -/
structure Exact (now : Timeval) (lifetime : U32) (q : TimerQueue) (t : TimerId)
    (t1 t2 : Timeval) : Prop where
  armed : Pending (timerSetTimeout .long32 now q t (lifetimeArg lifetime)) t
  deadline : deadline (timerSetTimeout .long32 now q t (lifetimeArg lifetime)) t =
    timevalAddMsec .long64 now lifetime.toNat
  sum : timevalAddMsec .long32 now lifetime.toNat = timevalAddMsec .long64 now lifetime.toNat
  diff : timevalDiff .long32 t1 t2 = timevalDiff .long64 t1 t2

/-- The timer can be armed, and no intermediate result leaves its type. -/
def Narrow (now : Timeval) (lifetime : U32) (q : TimerQueue) (t : TimerId) (t1 t2 : Timeval) : Prop :=
  (q.timer t).handler ≠ none ∧ now.tvUsec + lifetime.toNat * 1000 < 2 ^ 31 ∧
    FitsLong (micros t1 - micros t2)

theorem pending_armed {q : TimerQueue} (hq : Coherent q) (now : Timeval) (t : TimerId) {msec : Int}
    (hm : 0 ≤ msec) :
    Pending (timerSetTimeout .long32 now q t msec) t ↔ (q.timer t).handler ≠ none := by
  rw [pending_timerSetTimeout hq]
  constructor
  · rintro (⟨hne, _⟩ | ⟨_, _, hh⟩)
    · exact absurd rfl hne
    · exact hh
  · exact fun hh => .inr ⟨rfl, hm, hh⟩

/-- On the target the time functions are exact in these cases only. -/
theorem timer_arithmetic {now t1 t2 : Timeval} {lifetime : U32} {q : TimerQueue} (t : TimerId)
    (hq : Coherent q) (hnow : Represented now)
    (htrue : Represented (timevalAddMsec .long64 now lifetime.toNat)) :
    Exact now lifetime q t t1 t2 ↔ Narrow now lifetime q t t1 t2 := by
  constructor
  · intro h
    have hsum := (deadline_exact q t hnow htrue).1 h.deadline
    have hsmall : 0 ≤ lifetimeArg lifetime := by
      obtain ⟨-, husec, -⟩ := hnow
      rw [sum] at hsum
      rcases lifetimeArg_cases lifetime with ⟨-, harg⟩ | ⟨hlarge, -⟩ <;> omega
    exact ⟨(pending_armed hq now t hsmall).1 h.armed, hsum, timevalDiff_exact.1 h.diff⟩
  · rintro ⟨hhandler, hsum, hdiff⟩
    have hsmall : 0 ≤ lifetimeArg lifetime := by
      obtain ⟨-, husec, -⟩ := hnow
      rcases lifetimeArg_cases lifetime with ⟨-, harg⟩ | ⟨hlarge, -⟩ <;> omega
    have hwide : sum now lifetime < 2 ^ 32 := Int.lt_trans hsum (by decide)
    exact ⟨(pending_armed hq now t hsmall).2 hhandler,
      (deadline_exact q t hnow htrue).2 hsum, (addMsec_exact hnow htrue).2 hwide,
      timevalDiff_exact.2 hdiff⟩

theorem insertSorted_exact {timeout : TimerId → Timeval} {t : TimerId} {l : List TimerId}
    (h : ∀ u ∈ l, FitsLong (micros (timeout t) - micros (timeout u))) :
    insertSorted .long32 timeout t l = insertSorted .long64 timeout t l := by
  induction l with
  | nil => rfl
  | cons c l ih =>
      rw [insertSorted, insertSorted, timevalDiff_exact.2 (h c List.mem_cons_self),
        ih fun u hu => h u (List.mem_cons_of_mem _ hu)]

theorem timerSetTimeout_exact {now : Timeval} {lifetime : U32} {q : TimerQueue} {t : TimerId}
    (hnow : Represented now)
    (htrue : Represented (timevalAddMsec .long64 now lifetime.toNat))
    (hsum : sum now lifetime < 2 ^ 31)
    (hnear : ∀ u ∈ q.tq, FitsLong (micros (timevalAddMsec .long64 now lifetime.toNat) -
      micros (deadline q u))) :
    timerSetTimeout .long32 now q t (lifetimeArg lifetime) =
      timerSetTimeout .long64 now q t lifetime.toNat := by
  have hdeadline := (deadline_exact q t hnow htrue).2 hsum
  have harg : lifetimeArg lifetime = lifetime.toNat := by
    obtain ⟨-, husec, -⟩ := hnow
    rw [sum] at hsum
    rcases lifetimeArg_cases lifetime with ⟨-, harg⟩ | ⟨hlarge, -⟩ <;> omega
  have hpos : ¬ (lifetime.toNat : Int) < 0 := Int.not_lt.2 (Int.natCast_nonneg _)
  rw [deadline_lifetime, harg, if_neg hpos] at hdeadline
  rw [harg]
  have hremove : ∀ u ∈ (if (q.timer t).used then timerRemove q t else q).tq,
      u ∈ q.tq ∧ deadline (if (q.timer t).used then timerRemove q t else q) u = deadline q u := by
    intro u hu
    split at hu
    next hused => exact ⟨List.mem_of_mem_filter hu, by rw [if_pos hused, deadline_timerRemove]⟩
    next hused => exact ⟨hu, by rw [if_neg hused]⟩
  simp only [timerSetTimeout, if_neg hpos]
  generalize (if (q.timer t).used then timerRemove q t else q) = q' at hremove
  have hexact : timevalAddMsec .long64 now lifetime.toNat =
      timeoutAfter .long64 now lifetime.toNat := rfl
  rw [hdeadline, ← hexact, timerAdd, timerAdd, insertSorted_exact]
  intro u hu
  obtain ⟨hmem, hold⟩ := hremove u hu
  change FitsLong (micros (deadline _ t) - micros (deadline _ u))
  simp only [deadline_set, if_true, hold]
  split
  · rw [Int.sub_self]
    decide
  · exact hnear u hmem

def fresh : TimerQueue :=
  timerInit ⟨[], [], fun _ => .zero⟩ (.rtTimer 0) .routeExpireTimeout (.obj 0)

theorem coherent_fresh : Coherent fresh := by
  have hnone (t : TimerId) : ¬ Pending ⟨[], [], fun _ => .zero⟩ t := by simp [Pending]
  apply Coherent.timerInit _ _ _ _ (hnone _)
  exact fun t => iff_of_false Bool.false_ne_true (hnone t)

theorem timer_arithmetic_second :
    Exact ⟨1700000000, 500000⟩ 3000 fresh (.rtTimer 0) ⟨12, 0⟩ ⟨10, 500000⟩ :=
  (timer_arithmetic (.rtTimer 0) coherent_fresh (by decide) (by decide)).2
    ⟨by decide, by decide, by decide⟩

/-- A lifetime of 36 minutes gives a deadline in the past. -/
theorem lifetime_wraps : ¬ ∀ (now t1 t2 : Timeval) (lifetime : U32) (q : TimerQueue) (t : TimerId),
    Coherent q → (q.timer t).handler ≠ none → Represented now →
    Represented (timevalAddMsec .long64 now lifetime.toNat) → 0 < lifetime →
    Represented t1 → 0 ≤ t1.tvSec → Represented t2 → 0 ≤ t2.tvSec →
    FitsLong (timevalDiff .long64 t1 t2) → Exact now lifetime q t t1 t2 := by
  intro hall
  have hexact := hall ⟨1700000000, 0⟩ ⟨1, 0⟩ ⟨0, 0⟩ 2147484 fresh (.rtTimer 0) coherent_fresh
    (by decide) (by decide) (by decide) (by decide) (by decide) (by decide) (by decide) (by decide)
    (by decide)
  have hsee : deadline (timerSetTimeout .long32 ⟨1700000000, 0⟩ fresh (.rtTimer 0)
      (lifetimeArg 2147484)) (.rtTimer 0) = ⟨1699997853, -483296⟩ := by decide
  have hwrong := hsee.symm.trans hexact.deadline
  exact absurd hwrong (by decide)

end Aodv.TargetTime
