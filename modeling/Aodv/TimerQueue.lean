import Aodv.State

namespace Aodv

/-- The operands are long, and so is the dividend; only the quotient is widened. -/
def timevalDiff (a : Arch) (t1 t2 : Timeval) : Int :=
  let usec := a.signed (a.signed (a.signed (t1.tvSec - t2.tvSec) * 1000000) + t1.tvUsec)
  a.signed ((a.signed (usec - t2.tvUsec)).tdiv 1000)

/-- The sum is an unsigned long before it is widened. -/
def timevalAddMsec (a : Arch) (t : Timeval) (msec : Int) : Timeval :=
  let add := a.unsigned (a.unsigned t.tvUsec + a.unsigned (msec * 1000))
  ⟨a.signed (t.tvSec + add.tdiv 1000000), add.tmod 1000000⟩

def set (q : TimerQueue) (t : TimerId) (v : Timer) : TimerQueue :=
  { q with timer := Function.update q.timer t v }

def unlink (q : TimerQueue) (t : TimerId) : TimerQueue :=
  { q with tq := q.tq.filter (· ≠ t), exptq := q.exptq.filter (· ≠ t) }

def timerInit (q : TimerQueue) (t : TimerId) (f : Handler) (data : Data) : TimerQueue :=
  set q t ⟨false, ⟨0, 0⟩, some f, data⟩

/-- Removing an unattached timer only clears its used mark. -/
def timerRemove (q : TimerQueue) (t : TimerId) : TimerQueue :=
  set (unlink q t) t { q.timer t with used := false }

/-- Insert before the first timer that is at least one millisecond later. -/
def insertSorted (a : Arch) (timeout : TimerId → Timeval) (t : TimerId) :
    List TimerId → List TimerId
  | [] => [t]
  | curr :: rest =>
      if timevalDiff a (timeout t) (timeout curr) < 0 then t :: curr :: rest
      else curr :: insertSorted a timeout t rest

def timerAdd (a : Arch) (q : TimerQueue) (t : TimerId) : TimerQueue :=
  if (q.timer t).handler = none then q
  else if (q.timer t).used then q
  else
    { set q t { q.timer t with used := true } with
      tq := insertSorted a (fun u => (q.timer u).timeout) t q.tq }

def timeoutAfter (a : Arch) (now : Timeval) (msec : Int) : Timeval :=
  let usec := a.signed (now.tvUsec + a.signed (msec * 1000))
  ⟨a.signed (now.tvSec + usec.tdiv 1000000), usec.tmod 1000000⟩

/-- The argument now is what gettimeofday returns inside the call. -/
def timerSetTimeout (a : Arch) (now : Timeval) (q : TimerQueue) (t : TimerId) (msec : Int) :
    TimerQueue :=
  let q := if (q.timer t).used then timerRemove q t else q
  let q := set q t { q.timer t with timeout := now }
  if msec < 0 then q
  else timerAdd a (set q t { q.timer t with timeout := timeoutAfter a now msec }) t

def setHandler (q : TimerQueue) (t : TimerId) (f : Handler) : TimerQueue :=
  set q t { q.timer t with handler := some f }

/-- A timer is pending when it is linked in the main queue or in the batch. -/
def Pending (q : TimerQueue) (t : TimerId) : Prop := t ∈ q.tq ∨ t ∈ q.exptq

instance (q : TimerQueue) (t : TimerId) : Decidable (Pending q t) :=
  inferInstanceAs (Decidable (_ ∨ _))

variable {a : Arch}

theorem mem_insertSorted (timeout : TimerId → Timeval) (t u : TimerId) (l : List TimerId) :
    u ∈ insertSorted a timeout t l ↔ u = t ∨ u ∈ l := by
  induction l with
  | nil => simp [insertSorted]
  | cons c l ih =>
      rw [insertSorted]
      split
      · simp
      · simp only [List.mem_cons, ih]
        tauto

@[simp] theorem set_timer_self (q : TimerQueue) (t : TimerId) (v : Timer) :
    (set q t v).timer t = v := by simp [set]

theorem set_timer_ne (q : TimerQueue) {t u : TimerId} (h : u ≠ t) (v : Timer) :
    (set q t v).timer u = q.timer u := by simp [set, h]

theorem timer_timerRemove_ne (q : TimerQueue) {t u : TimerId} (h : u ≠ t) :
    (timerRemove q t).timer u = q.timer u := set_timer_ne (unlink q t) h _

theorem timer_timerAdd_ne (q : TimerQueue) {t u : TimerId} (h : u ≠ t) :
    (timerAdd a q t).timer u = q.timer u := by
  unfold timerAdd
  split
  · rfl
  · split
    · rfl
    · exact set_timer_ne q h _

theorem timer_timerSetTimeout_ne (now : Timeval) (q : TimerQueue) {t u : TimerId} (h : u ≠ t)
    (msec : Int) : (timerSetTimeout a now q t msec).timer u = q.timer u := by
  have hremove : (if (q.timer t).used then timerRemove q t else q).timer u = q.timer u := by
    split
    · exact timer_timerRemove_ne q h
    · rfl
  simp only [timerSetTimeout]
  generalize (if (q.timer t).used then timerRemove q t else q) = q' at hremove ⊢
  split
  · rw [set_timer_ne _ h, hremove]
  · rw [timer_timerAdd_ne _ h, set_timer_ne _ h, set_timer_ne _ h, hremove]

@[simp] theorem pending_set (q : TimerQueue) (t u : TimerId) (v : Timer) :
    Pending (set q t v) u ↔ Pending q u := Iff.rfl

theorem pending_unlink (q : TimerQueue) (t u : TimerId) :
    Pending (unlink q t) u ↔ Pending q u ∧ u ≠ t := by
  simp only [Pending, unlink, List.mem_filter, decide_eq_true_eq]
  tauto

@[simp] theorem pending_setHandler (q : TimerQueue) (t u : TimerId) (f : Handler) :
    Pending (setHandler q t f) u ↔ Pending q u := Iff.rfl

@[simp] theorem pending_timerRemove (q : TimerQueue) (t u : TimerId) :
    Pending (timerRemove q t) u ↔ Pending q u ∧ u ≠ t := by
  rw [timerRemove, pending_set, pending_unlink]

theorem pending_timerAdd (q : TimerQueue) (t u : TimerId) :
    Pending (timerAdd a q t) u ↔
      Pending q u ∨ (u = t ∧ (q.timer t).handler ≠ none ∧ (q.timer t).used = false) := by
  unfold timerAdd
  split
  next hh => simp [hh]
  next hh =>
    split
    next hu => simp [hu]
    next hu =>
      simp only [Pending, set, mem_insertSorted, hh, hu, ne_eq]
      tauto

def callee (q : TimerQueue) (t : TimerId) : Option Handler × Data :=
  ((q.timer t).handler, (q.timer t).data)

theorem callee_set (q : TimerQueue) (t u : TimerId) (v : Timer) :
    callee (set q t v) u = if u = t then (v.handler, v.data) else callee q u := by
  by_cases h : u = t
  · subst u; simp [callee]
  · simp [callee, set_timer_ne q h, h]

theorem callee_timerInit (q : TimerQueue) (t u : TimerId) (f : Handler) (data : Data) :
    callee (timerInit q t f data) u = if u = t then (some f, data) else callee q u :=
  callee_set q t u _

theorem callee_setHandler (q : TimerQueue) (t u : TimerId) (f : Handler) :
    callee (setHandler q t f) u = if u = t then (some f, (q.timer t).data) else callee q u :=
  callee_set q t u _

@[simp] theorem callee_timerRemove (q : TimerQueue) (t u : TimerId) :
    callee (timerRemove q t) u = callee q u := by
  rw [timerRemove, callee_set]
  split
  · subst u; rfl
  · rfl

@[simp] theorem callee_timerAdd (q : TimerQueue) (t u : TimerId) :
    callee (timerAdd a q t) u = callee q u := by
  unfold timerAdd
  split
  · rfl
  · split
    · rfl
    · change callee (set q t { q.timer t with used := true }) u = callee q u
      rw [callee_set]
      split
      · subst u; rfl
      · rfl

@[simp] theorem callee_timerSetTimeout (now : Timeval) (q : TimerQueue) (t u : TimerId)
    (msec : Int) : callee (timerSetTimeout a now q t msec) u = callee q u := by
  have hset (q : TimerQueue) (v : Timeval) :
      callee (set q t { q.timer t with timeout := v }) u = callee q u := by
    rw [callee_set]
    split
    · subst u; rfl
    · rfl
  unfold timerSetTimeout
  split <;> split <;> simp only [callee_timerAdd, hset, callee_timerRemove]

/-- A time as a number of microseconds. -/
def micros (t : Timeval) : Int := t.tvSec * 1000000 + t.tvUsec

def FitsLong (x : Int) : Prop := -2 ^ 31 ≤ x ∧ x < 2 ^ 31

instance (x : Int) : Decidable (FitsLong x) := inferInstanceAs (Decidable (_ ∧ _))

theorem signed_of_fits {x : Int} (h : a = .long32 → FitsLong x) : a.signed x = x := by
  cases a with
  | long32 =>
      obtain ⟨hlow, hhigh⟩ := h rfl
      exact Int.bmod_eq_of_le (by norm_num; omega) (by norm_num; omega)
  | long64 => rfl

theorem fits_signed (x : Int) : FitsLong (Arch.long32.signed x) := by
  have hlow := Int.le_bmod (x := x) (m := 2 ^ 32) (by decide)
  have hhigh := Int.bmod_lt (x := x) (m := 2 ^ 32) (by decide)
  have hturn : ((2 ^ 32 : Nat) : Int) = 4294967296 := rfl
  rw [hturn] at hlow hhigh
  rw [FitsLong, Arch.signed]
  omega

theorem signed_turns (x : Int) : ∃ k, Arch.long32.signed x = x - k * 2 ^ 32 :=
  ⟨_, Int.bmod_eq_self_sub_bdiv_mul x (2 ^ 32)⟩

theorem tdiv_thousand (x : Int) :
    (0 ≤ x ∧ x.tdiv 1000 = x / 1000) ∨ (x < 0 ∧ x.tdiv 1000 = -((-x) / 1000)) := by
  rcases Int.lt_or_le x 0 with hx | hx
  · refine .inr ⟨hx, ?_⟩
    rw [← Int.tdiv_eq_ediv_of_nonneg (by omega), Int.neg_tdiv, Int.neg_neg]
  · exact .inl ⟨hx, Int.tdiv_eq_ediv_of_nonneg hx⟩

theorem timevalDiff_eq (a : Arch) (t u : Timeval) :
    timevalDiff a t u = (a.signed (micros t - micros u)).tdiv 1000 := by
  cases a with
  | long64 =>
      rw [timevalDiff, micros, micros]
      simp only [Arch.signed]
      congr 1
      omega
  | long32 =>
      have hdividend : Arch.long32.signed (Arch.long32.signed (Arch.long32.signed
          (Arch.long32.signed (t.tvSec - u.tvSec) * 1000000) + t.tvUsec) - u.tvUsec) =
          Arch.long32.signed (micros t - micros u) := by
        simp only [Arch.signed, Int.bmod_add_bmod, Int.bmod_sub_bmod]
        rw [Int.sub_bmod, Int.add_bmod, Int.bmod_mul_bmod, ← Int.add_bmod, ← Int.sub_bmod, micros,
          micros]
        congr 1
        omega
      rw [timevalDiff, hdividend]
      obtain ⟨hlow, hhigh⟩ := fits_signed (micros t - micros u)
      have hdiv := tdiv_thousand (Arch.long32.signed (micros t - micros u))
      exact signed_of_fits fun _ => ⟨by omega, by omega⟩

theorem timevalDiff_neg {t u : Timeval} :
    timevalDiff a t u < 0 ↔ a.signed (micros t - micros u) ≤ -1000 := by
  have hdiv := tdiv_thousand (a.signed (micros t - micros u))
  rw [timevalDiff_eq]
  omega

theorem timevalDiff_nonpos {t u : Timeval} :
    timevalDiff a t u ≤ 0 ↔ a.signed (micros t - micros u) < 1000 := by
  have hdiv := tdiv_thousand (a.signed (micros t - micros u))
  rw [timevalDiff_eq]
  omega

theorem exact_neg {t u : Timeval} : timevalDiff .long64 t u < 0 ↔ micros t + 1000 ≤ micros u := by
  rw [timevalDiff_neg, Arch.signed]
  omega

theorem exact_nonpos {t u : Timeval} :
    timevalDiff .long64 t u ≤ 0 ↔ micros t < micros u + 1000 := by
  rw [timevalDiff_nonpos, Arch.signed]
  omega

theorem micros_addMsec (t : Timeval) (msec : Int) :
    micros (timevalAddMsec .long64 t msec) = micros t + msec * 1000 := by
  have hsplit := Int.mul_tdiv_add_tmod (t.tvUsec + msec * 1000) 1000000
  simp only [micros, timevalAddMsec, Arch.signed, Arch.unsigned]
  omega

def deadline (q : TimerQueue) (t : TimerId) : Timeval := (q.timer t).timeout

theorem deadline_set (q : TimerQueue) (t u : TimerId) (v : Timer) :
    deadline (set q t v) u = if u = t then v.timeout else deadline q u := by
  by_cases h : u = t
  · subst u; simp [deadline]
  · simp [deadline, set_timer_ne q h, h]

theorem deadline_set_same (q : TimerQueue) (t u : TimerId) {v : Timer}
    (hv : v.timeout = deadline q t) : deadline (set q t v) u = deadline q u := by
  rw [deadline_set]
  split
  next h => rw [hv, h]
  · rfl

@[simp] theorem deadline_setHandler (q : TimerQueue) (t u : TimerId) (f : Handler) :
    deadline (setHandler q t f) u = deadline q u := deadline_set_same q t u rfl

@[simp] theorem deadline_timerRemove (q : TimerQueue) (t u : TimerId) :
    deadline (timerRemove q t) u = deadline q u := deadline_set_same (unlink q t) t u rfl

theorem deadline_timerInit (q : TimerQueue) (t u : TimerId) (f : Handler) (data : Data) :
    deadline (timerInit q t f data) u = if u = t then ⟨0, 0⟩ else deadline q u :=
  deadline_set q t u _

@[simp] theorem deadline_timerAdd (q : TimerQueue) (t u : TimerId) :
    deadline (timerAdd a q t) u = deadline q u := by
  unfold timerAdd
  split
  · rfl
  · split
    · rfl
    · exact deadline_set_same q t u rfl

theorem deadline_timerSetTimeout (now : Timeval) (q : TimerQueue) (t u : TimerId) (msec : Int) :
    deadline (timerSetTimeout a now q t msec) u =
      if u = t then (if msec < 0 then now else timeoutAfter a now msec) else deadline q u := by
  have hremove : deadline (if (q.timer t).used then timerRemove q t else q) u = deadline q u := by
    split
    · exact deadline_timerRemove q t u
    · rfl
  simp only [timerSetTimeout]
  generalize (if (q.timer t).used then timerRemove q t else q) = q' at hremove ⊢
  split
  · rw [deadline_set, hremove]
  · rw [deadline_timerAdd, deadline_set, deadline_set, hremove]
    split
    · rfl
    · rfl

/-- The used mark of every timer says whether the timer is pending. -/
def Coherent (q : TimerQueue) : Prop := ∀ t, (q.timer t).used = true ↔ Pending q t

theorem Coherent.set {q : TimerQueue} (h : Coherent q) (t : TimerId) (v : Timer)
    (hv : v.used = (q.timer t).used) : Coherent (set q t v) := by
  intro u
  by_cases hu : u = t
  · subst u
    rw [set_timer_self, hv, pending_set]
    exact h t
  · rw [set_timer_ne q hu, pending_set]
    exact h u

theorem Coherent.setHandler {q : TimerQueue} (h : Coherent q) (t : TimerId) (f : Handler) :
    Coherent (setHandler q t f) := h.set t _ rfl

theorem Coherent.timerInit {q : TimerQueue} (h : Coherent q) (t : TimerId) (f : Handler)
    (data : Data) (ht : ¬ Pending q t) : Coherent (timerInit q t f data) := by
  refine h.set t _ ?_
  cases hu : (q.timer t).used with
  | false => rfl
  | true => exact absurd ((h t).1 hu) ht

theorem Coherent.timerRemove {q : TimerQueue} (h : Coherent q) (t : TimerId) :
    Coherent (timerRemove q t) := by
  intro u
  rw [pending_timerRemove]
  by_cases hu : u = t
  · subst u
    simp [Aodv.timerRemove]
  · rw [Aodv.timerRemove, set_timer_ne _ hu]
    simpa [hu, unlink] using h u

theorem Coherent.timerAdd {q : TimerQueue} (h : Coherent q) (t : TimerId) :
    Coherent (timerAdd a q t) := by
  intro u
  rw [pending_timerAdd]
  unfold Aodv.timerAdd
  split
  next hh => simpa [hh] using h u
  next hh =>
    split
    next hu => simpa [hu] using h u
    next hu =>
      by_cases ht : u = t
      · subst u
        simp [hh, hu, Aodv.set]
      · have hne : (Aodv.set q t { q.timer t with used := true }).timer u = q.timer u :=
          set_timer_ne q ht _
        simpa [ht, hne] using h u

/-- A timer that is set anew is pending exactly when the interval is not
negative and it has a handler. -/
theorem pending_timerSetTimeout {q : TimerQueue} (h : Coherent q) (now : Timeval) (t u : TimerId)
    (msec : Int) : Pending (timerSetTimeout a now q t msec) u ↔
      (u ≠ t ∧ Pending q u) ∨ (u = t ∧ 0 ≤ msec ∧ (q.timer t).handler ≠ none) := by
  have hidle : (q.timer t).used = false → ¬ Pending q t := by
    intro hu hp
    rw [(h t).2 hp] at hu
    cases hu
  unfold timerSetTimeout
  split
  next hu =>
    split
    next hm =>
      simp only [pending_set, pending_timerRemove]
      constructor
      · rintro ⟨hp, hne⟩
        exact .inl ⟨hne, hp⟩
      · rintro (⟨hne, hp⟩ | ⟨_, h0, _⟩)
        · exact ⟨hp, hne⟩
        · omega
    next hm =>
      simp only [pending_timerAdd, pending_set, pending_timerRemove, set_timer_self]
      simp only [timerRemove, set_timer_self]
      constructor
      · rintro (⟨hp, hne⟩ | ⟨rfl, hh, _⟩)
        · exact .inl ⟨hne, hp⟩
        · exact .inr ⟨rfl, by omega, hh⟩
      · rintro (⟨hne, hp⟩ | ⟨rfl, _, hh⟩)
        · exact .inl ⟨hp, hne⟩
        · exact .inr ⟨rfl, hh, trivial⟩
  next hu =>
    have hf : (q.timer t).used = false := by simpa using hu
    split
    next hm =>
      simp only [pending_set]
      constructor
      · intro hp
        refine .inl ⟨?_, hp⟩
        rintro rfl
        exact hidle hf hp
      · rintro (⟨_, hp⟩ | ⟨_, h0, _⟩)
        · exact hp
        · omega
    next hm =>
      simp only [pending_timerAdd, pending_set, set_timer_self]
      constructor
      · rintro (hp | ⟨rfl, hh, _⟩)
        · by_cases ht : u = t
          · subst u; exact absurd hp (hidle hf)
          · exact .inl ⟨ht, hp⟩
        · exact .inr ⟨rfl, by omega, hh⟩
      · rintro (⟨_, hp⟩ | ⟨rfl, _, hh⟩)
        · exact .inl hp
        · exact .inr ⟨rfl, hh, hf⟩

theorem Coherent.timerSetTimeout {q : TimerQueue} (h : Coherent q) (now : Timeval) (t : TimerId)
    (msec : Int) : Coherent (timerSetTimeout a now q t msec) := by
  have hcoh : Coherent (if (q.timer t).used then Aodv.timerRemove q t else q) := by
    split
    · exact h.timerRemove t
    · exact h
  simp only [Aodv.timerSetTimeout]
  generalize (if (q.timer t).used then Aodv.timerRemove q t else q) = q' at hcoh ⊢
  have hset := hcoh.set t { q'.timer t with timeout := now } rfl
  split
  · exact hset
  · refine Coherent.timerAdd (hset.set t _ ?_) t
    rfl

@[simp] theorem exptq_timerSetTimeout_sublist (now : Timeval) (q : TimerQueue) (t : TimerId)
    (msec : Int) : (timerSetTimeout a now q t msec).exptq.Sublist q.exptq := by
  have hadd (q : TimerQueue) : (timerAdd a q t).exptq = q.exptq := by
    unfold timerAdd
    split
    · rfl
    · split <;> rfl
  unfold timerSetTimeout
  split <;> split <;> simp only [hadd]
  all_goals first
    | exact List.filter_sublist
    | exact List.Sublist.refl _

@[simp] theorem exptq_timerRemove_sublist (q : TimerQueue) (t : TimerId) :
    (timerRemove q t).exptq.Sublist q.exptq := List.filter_sublist

theorem timerRemove_timerRemove (q : TimerQueue) (t : TimerId) :
    timerRemove (timerRemove q t) t = timerRemove q t := by
  simp [timerRemove, unlink, set, List.filter_filter]

theorem timerSetTimeout_timerRemove (now : Timeval) (q : TimerQueue) (t : TimerId) (msec : Int)
    (h : (q.timer t).used = true) :
    timerSetTimeout a now (timerRemove q t) t msec = timerSetTimeout a now q t msec := by
  have hidle : ((timerRemove q t).timer t).used = false := by simp [timerRemove]
  simp only [timerSetTimeout, hidle, h, if_true, Bool.false_eq_true, if_false]

theorem setHandler_timerRemove (q : TimerQueue) (t : TimerId) (f : Handler) :
    setHandler (timerRemove q t) t f = timerRemove (setHandler q t f) t := by
  simp [setHandler, timerRemove, unlink, set]

end Aodv
