import Aodv.Circular
import Aodv.Frames
import Mathlib.Data.Int.ConditionallyCompleteOrder
import Mathlib.Data.List.TakeWhile

namespace Aodv.Duplicates

open Lib.Bytes Frames
open Requests (received step_dropped)
open Requests (Accepts recorded process_accepted)

def keyOf (r : RreqRecord) : Addr × U32 := (r.origAddr, r.rreqId)

def keyIn (buf : Buf) : Addr × U32 := ((rreqOf buf).origAddr, (rreqOf buf).rreqId)

/-- The record r outlasts what happens, and its timer is left alone. -/
structure Stays (r : RreqRecord) (s s' : Daemon) : Prop where
  tick : s.tick ≤ s'.tick
  record : r ∈ s.rreqRecords → r ∈ s'.rreqRecords
  timer : Leaves (.recTimer r.ptr) s.timers s'.timers

section Records

variable {e : Env} {s s' s'' : Daemon} {r : RreqRecord} {pkt : Packet}

theorem Stays.refl : Stays r s s := ⟨Nat.le_refl _, id, .refl⟩

theorem Stays.trans (h : Stays r s s') (h' : Stays r s' s'') : Stays r s s'' :=
  ⟨Nat.le_trans h.tick h'.tick, fun hr => h'.record (h.record hr), h.timer.trans h'.timer⟩

theorem Stays.books (h : Books s s') : Stays r s s' := by
  refine ⟨h.tick, fun hr => ?_, h.timers r.ptr⟩
  rw [h.records]
  exact hr

theorem record_isSome {orig : Addr} {id : U32} :
    (rreqRecordCheck s orig id).isSome ↔ (orig, id) ∈ s.rreqRecords.map keyOf := by
  simp [rreqRecordCheck, keyOf]

theorem recorded_eq (h : Accepts s pkt) : recorded e s pkt = { s with
    trace := .rreqAccepted (rreqOf pkt.buf) pkt.src :: s.trace
    brk := s.brk + 1
    rreqRecords := ⟨s.brk, (rreqOf pkt.buf).origAddr, (rreqOf pkt.buf).rreqId⟩ :: s.rreqRecords
    timers := timerSetTimeout e.arch (e.clock s.tick)
      (timerInit s.timers (.recTimer s.brk) .rreqRecordTimeout (.obj s.brk)) (.recTimer s.brk)
      pathDiscoveryTime
    tick := s.tick + 1 } := by
  have hnew : rreqRecordCheck (s.observe (.rreqAccepted (rreqOf pkt.buf) pkt.src))
      (rreqOf pkt.buf).origAddr (rreqOf pkt.buf).rreqId = none := h.new
  rw [recorded, rreqRecordInsert, hnew]
  rfl

theorem stays_recorded (h : Accepts s pkt) (hne : r.ptr ≠ s.brk) :
    Stays r s (recorded e s pkt) := by
  have hother : TimerId.recTimer r.ptr ≠ .recTimer s.brk := by simpa using hne
  rw [recorded_eq h]
  refine ⟨Nat.le_succ _, List.mem_cons_of_mem _, ?_⟩
  exact (Leaves.timerInit s.timers hother .rreqRecordTimeout (.obj s.brk)).trans
    (.timerSetTimeout _ hother (e.clock s.tick) pathDiscoveryTime)

theorem recorded_new (hs : WellFormed s) (h : Accepts s pkt) :
    Pending (recorded e s pkt).timers (.recTimer s.brk) ∧
      micros (deadline (recorded e s pkt).timers (.recTimer s.brk)) =
        micros (timeoutAfter e.arch (e.clock s.tick) pathDiscoveryTime) := by
  have hidle : ¬ Pending s.timers (.recTimer s.brk) := by
    intro hp
    obtain ⟨r, hr, hb⟩ := hs.owned _ hp
    exact Nat.lt_irrefl _ (hb ▸ hs.recordBelow r hr)
  have hcoh := hs.coherent.timerInit (.recTimer s.brk) .rreqRecordTimeout (.obj s.brk) hidle
  rw [recorded_eq h]
  constructor
  · exact (pending_timerSetTimeout hcoh _ _ _ _).2 (.inr ⟨rfl, by decide, by simp [timerInit]⟩)
  · rw [deadline_timerSetTimeout, if_pos rfl, if_neg (by decide)]

theorem process_duplicate {buf : Buf} (h : keyIn buf ∈ s.rreqRecords.map keyOf) (len : Nat) (src : Addr)
    (ttl : Int) : rreqProcess e s buf len src ttl = s := by
  have hfound := record_isSome.2 h
  rw [rreqProcess]
  dsimp only
  rw [if_pos hfound]
  split
  · rfl
  · split
    · rfl
    · split <;> rfl

/-- An RREQ that is accepted leaves its record, and touches the books in no other way. -/
theorem books_accepted (h : Accepts s pkt) (ttl : Int) :
    Books (recorded e s pkt) (rreqProcess e s pkt.buf pkt.len pkt.src ttl) := by
  rw [process_accepted h]
  have hrev := Books.rreqReverse e (recorded e s pkt) (rreqOf pkt.buf) pkt.src
  obtain ⟨s₁, o, heq⟩ : ∃ s₁ o, rreqReverse e (recorded e s pkt) (rreqOf pkt.buf) pkt.src = (s₁, o) :=
    ⟨_, _, rfl⟩
  rw [heq] at hrev ⊢
  cases o with
  | none => exact hrev.trans (.rreqUnrouted e s₁ _ _ _ ttl)
  | some rev =>
      refine hrev.trans ?_
      dsimp only
      rw [Requests.rest]
      split
      · exact .rreqForUs e s₁ _ rev
      · exact .rreqRoute e s₁ _ _ _ rev ttl

theorem process_refused (ht : pkt.buf 0 = aodvRreq) (h : ¬ Accepts s pkt) (ttl : Int) :
    rreqProcess e s pkt.buf pkt.len pkt.src ttl = s := by
  rw [rreqProcess]
  dsimp only
  split
  · rfl
  next horig =>
    split
    · rfl
    next hlen =>
      split
      · rfl
      next hbl =>
        split
        · rfl
        next hrec =>
          refine absurd ⟨ht, horig, Nat.le_of_not_lt hlen, ?_, ?_⟩ h
          · simpa using hbl
          · simpa using hrec

end Records

/-- The datagram is an RREQ that rreq_process accepts. -/
def Accepted (e : Env) (s : Daemon) (pkt : Packet) : Prop :=
  received s.host.ipaddr pkt = true ∧ Accepts (neighborAdd e s pkt.src) pkt

section Datagrams

variable {e : Env} {s : Daemon} {r : RreqRecord} {pkt : Packet}

theorem read_received (h : received s.host.ipaddr pkt = true) : ∃ ttl : U8,
    step e s (.recv pkt) =
      aodvSocketPackageProcess e s pkt.buf pkt.len pkt.src pkt.dest ttl.toNat := by
  obtain ⟨httl, hsrc⟩ : pkt.ttl.isSome = true ∧ pkt.src ≠ s.host.ipaddr := by
    simpa [received] using h
  obtain ⟨ttl, httl⟩ := Option.isSome_iff_exists.1 httl
  refine ⟨ttl, ?_⟩
  change aodvSocketRead e s pkt = _
  rw [aodvSocketRead, httl]
  exact if_neg fun h => hsrc h.2

theorem package_rreq (ht : pkt.buf 0 = aodvRreq) (ttl : Int) :
    aodvSocketPackageProcess e s pkt.buf pkt.len pkt.src pkt.dest ttl =
      rreqProcess e (neighborAdd e s pkt.src) pkt.buf pkt.len pkt.src ttl := by
  have hlabel : ¬ (pkt.buf 0 = aodvRrep ∧ ttl = 1 ∧ pkt.dest = aodvBroadcast) := by
    rintro ⟨h, _⟩
    rw [ht] at h
    exact absurd h (by decide)
  have hhello : ¬ pkt.buf 0 = aodvHello := by
    rw [ht]
    decide
  rw [aodvSocketPackageProcess, if_neg hlabel, if_neg hhello, if_pos ht]

theorem package_other (ht : pkt.buf 0 ≠ aodvRreq) (ttl : Int) :
    Books s (aodvSocketPackageProcess e s pkt.buf pkt.len pkt.src pkt.dest ttl) := by
  have hadd := Books.neighborAdd e s pkt.src
  refine hadd.trans ?_
  have hlabel : (if pkt.buf 0 = aodvRrep ∧ ttl = 1 ∧ pkt.dest = aodvBroadcast then
      store pkt.buf 0 aodvHello else pkt.buf) 0 ≠ aodvRreq := by
    split
    · rw [store_apply_self]
      decide
    · exact ht
  rw [aodvSocketPackageProcess]
  generalize (if pkt.buf 0 = aodvRrep ∧ ttl = 1 ∧ pkt.dest = aodvBroadcast then
    store pkt.buf 0 aodvHello else pkt.buf) = buf at hlabel ⊢
  split
  · exact .helloProcess e _ buf
  · split
    · exact .rrepProcess e _ buf pkt.len pkt.src ttl
    · split
      · exact .rerrProcess e _ buf pkt.len pkt.src
      · split
        · exact .rrepAckProcess _ pkt.src
        · exact .refl

theorem read_accepted (h : Accepted e s pkt) :
    Books (recorded e (neighborAdd e s pkt.src) pkt) (step e s (.recv pkt)) := by
  obtain ⟨ttl, heq⟩ := read_received (e := e) h.1
  rw [heq, package_rreq h.2.type]
  exact books_accepted h.2 _

theorem read_refused (hs : WellFormed s) (h : ¬ Accepted e s pkt) :
    Books s (step e s (.recv pkt)) := by
  cases hrec : received s.host.ipaddr pkt with
  | false =>
      rw [step_dropped e hs hrec]
      exact .refl
  | true =>
      obtain ⟨ttl, heq⟩ := read_received (e := e) hrec
      rw [heq]
      by_cases ht : pkt.buf 0 = aodvRreq
      · rw [package_rreq ht, process_refused ht fun hacc => h ⟨hrec, hacc⟩]
        exact .neighborAdd e s pkt.src
      · exact package_other ht _

theorem wellFormed_heard (hs : WellFormed s) (h : received s.host.ipaddr pkt = true) :
    WellFormed (neighborAdd e s pkt.src) := by
  have hne : pkt.ttl.isSome = true ∧ pkt.src ≠ s.host.ipaddr := by simpa [received] using h
  exact (coarses_sound (coarses_neighborAdd (e := e) rfl hne.2) hs).wellFormed

theorem stays_read (hs : WellFormed s) (hr : r ∈ s.rreqRecords) (pkt : Packet) :
    Stays r s (step e s (.recv pkt)) := by
  by_cases h : Accepted e s pkt
  · have hadd := Books.neighborAdd e s pkt.src
    have hold : r ∈ (neighborAdd e s pkt.src).rreqRecords := by
      rw [hadd.records]
      exact hr
    have hbelow := (wellFormed_heard (e := e) hs h.1).recordBelow r hold
    exact ((Stays.books hadd).trans (stays_recorded h.2 (Nat.ne_of_lt hbelow))).trans
      (.books (read_accepted h))
  · exact .books (read_refused hs h)

end Datagrams

section Timers

variable {e : Env} {s s' : Daemon} {r : RreqRecord} {t : TimerId}

theorem blacklistInsert_records (e : Env) (s : Daemon) (dest : Addr) :
    s.tick ≤ (rreqBlacklistInsert e s dest).tick ∧
      (rreqBlacklistInsert e s dest).rreqRecords = s.rreqRecords ∧
      ∀ c, Leaves (.recTimer c) s.timers (rreqBlacklistInsert e s dest).timers := by
  rw [rreqBlacklistInsert]
  split
  · exact ⟨Nat.le_refl _, rfl, fun _ => .refl⟩
  · refine ⟨Nat.le_succ _, rfl, fun c => ?_⟩
    have hne : TimerId.recTimer c ≠ .blTimer s.brk := by simp
    exact (Leaves.timerInit s.timers hne .rreqBlacklistTimeout (.obj s.brk)).trans
      (.timerSetTimeout _ hne (e.clock s.tick) blacklistTimeout)

/-- The timers that run out leave the records alone, except a record's own one. -/
theorem fire_cases (hs : WellFormed s) (ht : Pending s.timers t) :
    (s.tick ≤ (fire e s t).tick ∧ (fire e s t).rreqRecords = s.rreqRecords ∧
      ∀ c, Leaves (.recTimer c) s.timers (fire e s t).timers) ∨
    ∃ c, t = .recTimer c ∧ fire e s t = rreqRecordTimeout (pop s t) c := by
  by_cases hother : (∀ c, t ≠ .recTimer c) ∧ (∀ c, t ≠ .blTimer c) ∧ ∀ p, t ≠ .ackTimer p
  · have hbooks := Books.fire (e := e) hs ht hother.1 hother.2.1 hother.2.2
    exact .inl ⟨hbooks.tick, hbooks.records, hbooks.timers⟩
  have hdone := fire_handled e hs ht
  generalize fire e s t = s' at hdone
  cases hdone with
  | record c => exact .inr ⟨c, rfl, rfl⟩
  | blacklist c => exact .inl ⟨Nat.le_refl _, rfl, fun c => .timerRemove s.timers (by simp)⟩
  | @ack p =>
      left
      obtain ⟨htick, hrec, htimers⟩ := blacklistInsert_records e (pop s (.ackTimer p))
        ((pop s (.ackTimer p)).rt p).destAddr
      exact ⟨htick, hrec, fun c => (Leaves.timerRemove s.timers (by simp)).trans (htimers c)⟩
  | expire | repair | delete | hello | seek | log => exact absurd ⟨by simp, by simp, by simp⟩ hother

theorem tick_fire (hs : WellFormed s) (ht : Pending s.timers t) : s.tick ≤ (fire e s t).tick := by
  rcases fire_cases (e := e) hs ht with h | ⟨c, rfl, heq⟩
  · exact h.1
  · rw [heq]
    exact Nat.le_refl _

theorem stays_fire (hs : WellFormed s) (ht : Pending s.timers t) (hne : t ≠ .recTimer r.ptr) :
    Stays r s (fire e s t) := by
  rcases fire_cases (e := e) hs ht with ⟨htick, hrec, htimers⟩ | ⟨c, rfl, heq⟩
  · refine ⟨htick, fun hr => ?_, htimers r.ptr⟩
    rw [hrec]
    exact hr
  · rw [heq]
    have hptr : r.ptr ≠ c := fun h => hne (by rw [h])
    refine ⟨Nat.le_refl _, fun hr => List.mem_filter.2 ⟨hr, by simpa using hptr⟩, ?_⟩
    exact .timerRemove s.timers hne.symm

theorem stays_drain (n : Nat) (hs : WellFormed s) (hn : .recTimer r.ptr ∉ s.timers.exptq) :
    Stays r s (drain e n s) := by
  have hfire {s₁ : Daemon} {t : TimerId} (hs₁ : WellFormed s₁) (ht : t ∈ s₁.timers.exptq)
      (h : Stays r s s₁ ∧ .recTimer r.ptr ∉ s₁.timers.exptq) :
      Stays r s (fire e s₁ t) ∧ .recTimer r.ptr ∉ (fire e s₁ t).timers.exptq := by
    have hne : t ≠ .recTimer r.ptr := fun heq => h.2 (heq ▸ ht)
    have hbatch := (batch_fire (e := e) hs₁ (.inr ht)).trans (exptq_timerRemove_sublist _ t)
    exact ⟨h.1.trans (stays_fire hs₁ (.inr ht) hne), fun hmem => h.2 (hbatch.subset hmem)⟩
  exact (drain_keeps hfire n hs ⟨.refl, hn⟩).2.1

theorem tick_drain (n : Nat) (hs : WellFormed s) : s.tick ≤ (drain e n s).tick := by
  have hfire {s₁ : Daemon} {t : TimerId} (hs₁ : WellFormed s₁) (ht : t ∈ s₁.timers.exptq)
      (hle : s.tick ≤ s₁.tick) : s.tick ≤ (fire e s₁ t).tick :=
    Nat.le_trans hle (tick_fire hs₁ (.inr ht))
  exact (drain_keeps hfire n hs (Nat.le_refl _)).2

theorem stays_age (h64 : e.arch = .long64) (hs : Resting s)
    (hlate : micros (e.clock s.tick) + 1000 ≤ micros (deadline s.timers (.recTimer r.ptr))) :
    Stays r s (step e s .age) := by
  have htock : Stays r s s.tock := .books (.tock s)
  change Stays r s (timerAgeQueue e s)
  rw [timerAgeQueue]
  split
  · exact htock
  · have htake : Stays r s.tock (takeDue e.arch (e.clock s.tick) s.tock) :=
      ⟨Nat.le_refl _, id, rfl, pending_takeDue _ _ hs.batch _⟩
    have hbatch : .recTimer r.ptr ∉ (takeDue e.arch (e.clock s.tick) s.tock).timers.exptq := by
      intro hmem
      have hmem' := List.mem_takeWhile_imp hmem
      have hdue := of_decide_eq_true hmem'
      rw [h64, exact_nonpos] at hdue
      change micros (deadline s.timers (.recTimer r.ptr)) < _ at hdue
      omega
    have hws := hs.wellFormed_due e.arch (e.clock s.tick)
    exact (htock.trans htake).trans (stays_drain _ hws hbatch)

end Timers

section Runs

variable {e : Env} {s : Daemon} {r : RreqRecord}

theorem tick_step (hs : Resting s) (ev : Event) : s.tick ≤ (step e s ev).tick := by
  cases ev with
  | recv pkt =>
      by_cases h : Accepted e s pkt
      · have hnew : (neighborAdd e s pkt.src).tick ≤
            (recorded e (neighborAdd e s pkt.src) pkt).tick := by
          rw [recorded_eq h.2]
          exact Nat.le_succ _
        exact Nat.le_trans (Books.neighborAdd e s pkt.src).tick
          (Nat.le_trans hnew (read_accepted h).tick)
      · exact (read_refused hs.wellFormed h).tick
  | kernel m => exact (Books.kernel e s m).tick
  | age =>
      change s.tick ≤ (timerAgeQueue e s).tick
      rw [timerAgeQueue]
      split
      · exact Nat.le_succ _
      · have hws := hs.wellFormed_due e.arch (e.clock s.tick)
        exact Nat.le_trans (Nat.le_succ _) (tick_drain _ hws)
  | fire t =>
      rw [step]
      split
      next ht => exact tick_fire hs.wellFormed (.inl ht)
      · exact Nat.le_refl _

theorem resting_run (hs : Resting s) (es : List Event) : Resting (run e s es) := by
  induction es generalizing s with
  | nil => exact hs
  | cons ev es ih => exact ih (step_moves hs ev).2

theorem stays_run (h64 : e.arch = .long64) (hclock : Monotone fun n => micros (e.clock n))
    (hs : Resting s) (hr : r ∈ s.rreqRecords) (es : List Event) (htimed : ∀ t, .fire t ∉ es)
    (hlate : micros (e.clock (run e s es).tick) + 1000 ≤
      micros (deadline s.timers (.recTimer r.ptr))) :
    Stays r s (run e s es) := by
  induction es using List.reverseRecOn with
  | nil => exact .refl
  | append_singleton es ev ih =>
      have hlast : run e s (es ++ [ev]) = step e (run e s es) ev := List.foldl_append
      have hbound (hrest : Resting (run e s es)) : micros (e.clock (run e s es).tick) + 1000 ≤
          micros (deadline s.timers (.recTimer r.ptr)) := by
        have hle := hclock (tick_step (e := e) hrest ev)
        rw [hlast] at hlate
        exact Int.le_trans (Int.add_le_add_right hle 1000) hlate
      have hrest : Resting (run e s es) := resting_run hs es
      have hbefore := ih (fun t ht => htimed t (List.mem_append_left _ ht)) (hbound hrest)
      rw [hlast]
      refine hbefore.trans ?_
      cases ev with
      | recv pkt => exact stays_read hrest.wellFormed (hbefore.record hr) pkt
      | kernel m => exact .books (.kernel e _ m)
      | age =>
          apply stays_age h64 hrest
          rw [deadline, hbefore.timer.timer]
          exact hbound hrest
      | fire t => exact absurd (List.mem_append_right _ List.mem_cons_self) (htimed t)

/-- Every record has its timer pending, and no two records stand for one RREQ. -/
structure Kempt (s : Daemon) : Prop where
  pending : ∀ r ∈ s.rreqRecords, Pending s.timers (.recTimer r.ptr)
  keys : (s.rreqRecords.map keyOf).Nodup

namespace Kempt

variable {s' : Daemon} {t : TimerId}

theorem same (h : Kempt s) (hr : s'.rreqRecords = s.rreqRecords)
    (ht : ∀ c, Leaves (.recTimer c) s.timers s'.timers) : Kempt s' := by
  constructor
  · rw [hr]
    exact fun r hmem => (ht r.ptr).pending.2 (h.pending r hmem)
  · rw [hr]
    exact h.keys

theorem books (h : Kempt s) (hb : Books s s') : Kempt s' := h.same hb.records hb.timers

theorem recorded (h : Kempt s) (hs : WellFormed s) {pkt : Packet} (hacc : Accepts s pkt) :
    Kempt (recorded e s pkt) := by
  obtain ⟨hnew, _⟩ := recorded_new (e := e) hs hacc
  have hrecords : (Requests.recorded e s pkt).rreqRecords =
      ⟨s.brk, (rreqOf pkt.buf).origAddr, (rreqOf pkt.buf).rreqId⟩ :: s.rreqRecords := by
    rw [recorded_eq hacc]
  constructor
  · rw [hrecords]
    intro r hr
    rcases List.mem_cons.1 hr with rfl | hr
    · exact hnew
    · have hne := Nat.ne_of_lt (hs.recordBelow r hr)
      exact (stays_recorded hacc hne).timer.pending.2 (h.pending r hr)
  · rw [hrecords, List.map_cons]
    refine List.nodup_cons.2 ⟨fun hmem => ?_, h.keys⟩
    have hfound := record_isSome.2 hmem
    rw [hacc.new] at hfound
    cases hfound

theorem fire (h : Kempt s) (hs : WellFormed s) (ht : Pending s.timers t) :
    Kempt (fire e s t) := by
  rcases fire_cases (e := e) hs ht with ⟨_, hrec, htimers⟩ | ⟨c, rfl, heq⟩
  · exact h.same hrec htimers
  · rw [heq]
    have hsub : (rreqRecordTimeout (pop s (.recTimer c)) c).rreqRecords.Sublist s.rreqRecords :=
      List.filter_sublist
    constructor
    · intro r hr
      obtain ⟨hr, hne⟩ := List.mem_filter.1 hr
      refine (pending_timerRemove _ _ _).2 ⟨h.pending r hr, ?_⟩
      simpa using hne
    · exact (hsub.map keyOf).nodup h.keys

theorem drain (h : Kempt s) (hs : WellFormed s) (n : Nat) : Kempt (drain e n s) :=
  (drain_keeps (fun hs₁ ht h₁ => h₁.fire hs₁ (.inr ht)) n hs h).2

theorem step (h : Kempt s) (hs : Resting s) (ev : Event) : Kempt (step e s ev) := by
  cases ev with
  | recv pkt =>
      by_cases hacc : Accepted e s pkt
      · have hadd := h.books (.neighborAdd e s pkt.src)
        exact (hadd.recorded (wellFormed_heard hs.wellFormed hacc.1) hacc.2).books
          (read_accepted hacc)
      · exact h.books (read_refused hs.wellFormed hacc)
  | kernel m => exact h.books (.kernel e s m)
  | age =>
      change Kempt (timerAgeQueue e s)
      rw [timerAgeQueue]
      split
      · exact h.books (.tock s)
      · have hws := hs.wellFormed_due e.arch (e.clock s.tick)
        have htake : Kempt (takeDue e.arch (e.clock s.tick) s.tock) :=
          ⟨fun r hr => (pending_takeDue _ _ hs.batch _).2 (h.pending r hr), h.keys⟩
        exact htake.drain hws _
  | fire t =>
      rw [Aodv.step]
      split
      next ht => exact h.fire hs.wellFormed (.inl ht)
      · exact h

end Kempt

theorem Reachable.kempt (h : Reachable e s) : Kempt s := by
  refine Reachable.events (I := Kempt) (fun ipaddr broadcast ifindex => ⟨?_, ?_⟩)
    (fun s ev hs hk => hk.step hs ev) h
  · exact fun r hr => absurd hr List.not_mem_nil
  · exact List.nodup_nil

/-- What the records are for: after an RREQ has been accepted, no call of
rreq_process for the same originator and rreq_id does anything until its record
is a millisecond from running out. -/
def Once (e : Env) (s : Daemon) (pkt : Packet) : Prop :=
  ∀ (es : List Event) (buf : Buf) (len : Nat) (src : Addr) (ttl : Int),
    (∀ t, .fire t ∉ es) → keyIn buf = keyIn pkt.buf →
      let called := neighborAdd e (run e s (.recv pkt :: es)) src
      micros (e.clock called.tick) < micros (e.clock (neighborAdd e s pkt.src).tick) +
          (pathDiscoveryTime - 1) * 1000 →
        rreqProcess e called buf len src ttl = called

theorem accepted_once (h64 : e.arch = .long64) (hclock : Monotone fun n => micros (e.clock n))
    (hs : Resting s) {pkt : Packet} (hacc : Accepted e s pkt) : Once e s pkt := by
  intro es buf len src ttl htimed hkey called htime
  let r : RreqRecord :=
    ⟨(neighborAdd e s pkt.src).brk, (rreqOf pkt.buf).origAddr, (rreqOf pkt.buf).rreqId⟩
  have hbooks := read_accepted hacc
  obtain ⟨_, hdeadline⟩ := recorded_new (e := e) (wellFormed_heard (e := e) hs.wellFormed hacc.1) hacc.2
  have hr : r ∈ (step e s (.recv pkt)).rreqRecords := by
    rw [hbooks.records, recorded_eq hacc.2]
    exact List.mem_cons_self
  have hlast : micros (deadline (step e s (.recv pkt)).timers (.recTimer r.ptr)) =
      micros (e.clock (neighborAdd e s pkt.src).tick) + pathDiscoveryTime * 1000 := by
    have hset : timeoutAfter e.arch (e.clock (neighborAdd e s pkt.src).tick) pathDiscoveryTime =
        timevalAddMsec .long64 (e.clock (neighborAdd e s pkt.src).tick) pathDiscoveryTime := by
      rw [h64]
      rfl
    rw [deadline, (hbooks.timers _).timer]
    rw [hset, micros_addMsec] at hdeadline
    exact hdeadline
  have hadd : Books (run e s (.recv pkt :: es)) called := .neighborAdd e _ src
  have hlate : micros (e.clock (run e s (.recv pkt :: es)).tick) + 1000 ≤
      micros (deadline (step e s (.recv pkt)).timers (.recTimer r.ptr)) := by
    have hle : micros (e.clock (run e s (.recv pkt :: es)).tick) ≤ micros (e.clock called.tick) :=
      hclock hadd.tick
    rw [hlast]
    omega
  have hstays := stays_run h64 hclock (step_moves (e := e) hs (.recv pkt)).2 hr es htimed hlate
  apply process_duplicate
  rw [hkey, hadd.records]
  exact List.mem_map.2 ⟨r, hstays.record hr, rfl⟩

theorem rreq_handled_once (hclock : Monotone fun n => micros (e.clock n)) (h : Reachable e s) :
    (e.arch = .long64 → ∀ pkt, Accepted e s pkt → Once e s pkt) ∧ Kempt s :=
  ⟨fun h64 _ => accepted_once h64 hclock (Reachable.resting h), Reachable.kempt h⟩

end Runs

def milli : Env := { wide with clock := fun n => ⟨0, n * 1000⟩ }

theorem monotone_milli : Monotone fun n => micros (milli.clock n) := by
  intro k n hkn
  change (0 : Int) * 1000000 + (k : Int) * 1000 ≤ 0 * 1000000 + (n : Int) * 1000
  omega

/-- An RREQ of 10.0.0.3 for 10.0.0.9, as 10.0.0.2 and then 10.0.0.4 pass it on. -/
def asked (src : Addr) : Packet :=
  .of (.rreq ⟨false, false, false, false, false, 1, 7, 0x0900000a, 0, 0x0300000a, 5⟩)
    src aodvBroadcast 3 (fits_rreq _)

theorem rreq_handled_once_copy :
    let s := init milli 0x0100000a 0xff00000a 2
    let called := neighborAdd milli (run milli s [.recv (asked 0x0200000a), .age]) 0x0400000a
    rreqProcess milli called (asked 0x0400000a).buf 24 0x0400000a 3 = called :=
  (rreq_handled_once monotone_milli ⟨0x0100000a, 0xff00000a, 2, [], rfl⟩).1 rfl (asked 0x0200000a)
    ⟨by decide +kernel, by decide +kernel, by decide +kernel, by decide +kernel, by decide +kernel,
      by decide +kernel⟩ [.age] (asked 0x0400000a).buf 24 0x0400000a 3 (by simp) (by decide +kernel)
    (by decide +kernel)

end Aodv.Duplicates
