import Aodv.Moves

namespace Aodv

open Lib.Bytes Relation

structure Near (p : Ptr) (q q' : TimerQueue) : Prop where
  callee : ∀ r, r ≠ p → callee q' (.rtTimer r) = callee q (.rtTimer r)
  route : ∀ r, r ≠ p → (Pending q' (.rtTimer r) ↔ Pending q (.rtTimer r))
  hello : ∀ r, r ≠ p → Pending q' (.helloTimer r) → Pending q (.helloTimer r)

namespace Near

variable {p : Ptr} {q q' q'' : TimerQueue}

theorem refl (p : Ptr) (q : TimerQueue) : Near p q q :=
  ⟨fun _ _ => rfl, fun _ _ => Iff.rfl, fun _ _ => id⟩

theorem trans (h : Near p q q') (h' : Near p q' q'') : Near p q q'' :=
  ⟨fun r hr => (h'.callee r hr).trans (h.callee r hr),
    fun r hr => (h'.route r hr).trans (h.route r hr),
    fun r hr hp => h.hello r hr (h'.hello r hr hp)⟩

theorem timerRemove (q : TimerQueue) {t : TimerId} (ht : ∀ r, r ≠ p → t ≠ .rtTimer r) :
    Near p q (timerRemove q t) := by
  refine ⟨fun r _ => callee_timerRemove q t _, fun r hr => ?_, fun r _ hp => ?_⟩
  · rw [pending_timerRemove]
    exact and_iff_left fun h => ht r hr h.symm
  · exact ((pending_timerRemove q t _).1 hp).1

theorem setHandler (q : TimerQueue) (p : Ptr) (f : Handler) :
    Near p q (setHandler q (.rtTimer p) f) := by
  refine ⟨fun r hr => ?_, fun _ _ => Iff.rfl, fun _ _ => id⟩
  rw [callee_setHandler, if_neg (by simpa using hr)]

theorem timerInit (q : TimerQueue) {t : TimerId} (f : Handler) (data : Data)
    (ht : ∀ r, r ≠ p → t ≠ .rtTimer r) : Near p q (timerInit q t f data) := by
  refine ⟨fun r hr => ?_, fun _ _ => Iff.rfl, fun _ _ => id⟩
  rw [callee_timerInit, if_neg fun h => ht r hr h.symm]

theorem timerSetTimeout {a : Arch} (hq : Coherent q) (now : Timeval) {t : TimerId} (msec : Int)
    (ht : ∀ r, r ≠ p → t ≠ .rtTimer r ∧ t ≠ .helloTimer r) :
    Near p q (timerSetTimeout a now q t msec) := by
  have hother {u : TimerId} (hu : u ≠ t) :
      Pending (Aodv.timerSetTimeout a now q t msec) u ↔ Pending q u := by
    rw [pending_timerSetTimeout hq]
    simp [hu]
  exact ⟨fun r _ => callee_timerSetTimeout now q t _ msec,
    fun r hr => hother fun h => (ht r hr).1 h.symm,
    fun r hr => (hother fun h => (ht r hr).2 h.symm).1⟩

end Near

structure Apart (p : Ptr) (s s' : Daemon) : Prop where
  rt : ∀ q, q ≠ p → s'.rt q = s.rt q
  timers : Near p s.timers s'.timers

namespace Apart

variable {p : Ptr} {s s' s'' : Daemon}

theorem trans (h : Apart p s s') (h' : Apart p s' s'') : Apart p s s'' :=
  ⟨fun q hq => (h'.rt q hq).trans (h.rt q hq), h.timers.trans h'.timers⟩

theorem frame (hrt : s'.rt = s.rt) (ht : Near p s.timers s'.timers) : Apart p s s' :=
  ⟨fun q _ => congrFun hrt q, ht⟩

theorem observed {o : Obs} (h : Apart p (s.observe o) s') : Apart p s s' := ⟨h.rt, h.timers⟩

theorem setRt (s : Daemon) (p : Ptr) (r : RtEntry) : Apart p s (s.setRt p r) :=
  ⟨fun _ hq => rt_setRt_ne s r hq, .refl p _⟩

theorem routeFound (s : Daemon) (p k : Ptr) : Apart p s (routeFound s k) := by
  refine .frame (funext fun q => rt_routeFound s k q) ?_
  rw [Aodv.routeFound]
  split
  · cases seekListCheck s (s.rt k).destAddr with
    | none => exact .refl p _
    | some q => exact .timerRemove _ (by simp)
  · exact .refl p _

end Apart

theorem apart_pop (s : Daemon) (p : Ptr) : Apart p s (pop s (.rtTimer p)) :=
  .frame rfl (.timerRemove _ (by simpa using fun r hr => Ne.symm hr))

theorem callee_routeFound (s : Daemon) (p : Ptr) (t : TimerId) :
    callee (routeFound s p).timers t = callee s.timers t := by
  rw [routeFound]
  split
  · cases seekListCheck s (s.rt p).destAddr with
    | none => rfl
    | some q => exact callee_timerRemove _ _ _
  · rfl

theorem pending_routeFound (s : Daemon) (p : Ptr) {t : TimerId} (ht : ∀ k, t ≠ .seekTimer k) :
    Pending (routeFound s p).timers t ↔ Pending s.timers t := by
  rw [routeFound]
  split
  · cases seekListCheck s (s.rt p).destAddr with
    | none => exact Iff.rfl
    | some q =>
        rw [seekListRemove, pending_timerRemove]
        exact and_iff_left (ht q)
  · exact Iff.rfl

theorem pending_rearm {a : Arch} {q : TimerQueue} (hq : Coherent q) (now : Timeval) (p : Ptr)
    (f : Handler)
    {msec : Int} (hm : 0 ≤ msec) (t : TimerId) :
    Pending (timerSetTimeout a now (setHandler q (.rtTimer p) f) (.rtTimer p) msec) t ↔
      t = .rtTimer p ∨ Pending q t := by
  have hhandler : ((setHandler q (.rtTimer p) f).timer (.rtTimer p)).handler ≠ none := by
    simp [setHandler]
  rw [pending_timerSetTimeout (hq.setHandler _ f), pending_setHandler]
  by_cases ht : t = .rtTimer p
  · simp only [ht]
    tauto
  · tauto

def waitHandler (repair : Bool) : Handler :=
  if repair then .localRepairTimeout else .routeDeleteTimeout

def fitting (r : RtEntry) : Handler :=
  match r.state with
  | .valid => .routeExpireTimeout
  | .invalid => waitHandler r.flags.repair

theorem timers_invalidate (e : Env) {s : Daemon} {p : Ptr} (hv : (s.rt p).state = .valid) :
    ∃ now, (rtTableInvalidate e s p).timers =
      timerSetTimeout e.arch now
        (setHandler (timerRemove (timerRemove (timerRemove s.timers (.rtTimer p)) (.helloTimer p))
          (.ackTimer p)) (.rtTimer p) (waitHandler (s.rt p).flags.repair))
        (.rtTimer p) (if (s.rt p).flags.repair then activeRouteTimeout else deletePeriod) := by
  have hv' : (s.tock.rt p).state = .valid := hv
  simp only [rtTableInvalidate, hv']
  exact ⟨_, rfl⟩

theorem pending_invalidate (e : Env) {s : Daemon} (hs : WellFormed s) {p : Ptr}
    (hv : (s.rt p).state = .valid) (t : TimerId) :
    Pending (rtTableInvalidate e s p).timers t ↔
      t = .rtTimer p ∨ (Pending s.timers t ∧ t ≠ .helloTimer p ∧ t ≠ .ackTimer p) := by
  obtain ⟨now, ht⟩ := timers_invalidate e hv
  have hcoh := ((hs.coherent.timerRemove (.rtTimer p)).timerRemove (.helloTimer p)).timerRemove
    (.ackTimer p)
  have hmsec : 0 ≤ (if (s.rt p).flags.repair then activeRouteTimeout else deletePeriod) := by
    split <;> decide
  rw [ht, pending_rearm hcoh now p _ hmsec, pending_timerRemove, pending_timerRemove,
    pending_timerRemove]
  tauto

theorem callee_invalidate (e : Env) {s : Daemon} {p : Ptr} (hv : (s.rt p).state = .valid)
    (t : TimerId) : (callee (rtTableInvalidate e s p).timers t).1 =
      if t = .rtTimer p then some (waitHandler (s.rt p).flags.repair) else (callee s.timers t).1 := by
  obtain ⟨now, ht⟩ := timers_invalidate e hv
  rw [ht, callee_timerSetTimeout, callee_setHandler]
  split
  · rfl
  · rw [callee_timerRemove, callee_timerRemove, callee_timerRemove]

theorem apart_invalidate (e : Env) {s : Daemon} (hs : WellFormed s) (p : Ptr) :
    Apart p s (rtTableInvalidate e s p) := by
  cases hv : (s.rt p).state with
  | invalid =>
      rw [invalidate_invalid e s hv]
      exact .frame rfl (.refl p _)
  | valid =>
      refine ⟨fun q hq => rt_invalidate_ne e s hq, ?_⟩
      obtain ⟨now, ht⟩ := timers_invalidate e hv
      rw [ht]
      have hcoh := ((hs.coherent.timerRemove (.rtTimer p)).timerRemove (.helloTimer p)).timerRemove
        (.ackTimer p)
      refine (Near.timerRemove s.timers (p := p) ?_).trans ((Near.timerRemove _ ?_).trans
        ((Near.timerRemove _ ?_).trans ((Near.setHandler _ p _).trans
          (.timerSetTimeout (hcoh.setHandler _ _) now _ ?_))))
      · simpa using fun r hr => Ne.symm hr
      · simp
      · simp
      · simpa using fun r hr => Ne.symm hr

theorem timers_updateTimeout (e : Env) (s : Daemon) (p : Ptr) (lifetime : U32) :
    (rtTableUpdateTimeout e s p lifetime).timers = s.timers ∨
      ∃ now, (rtTableUpdateTimeout e s p lifetime).timers =
        timerSetTimeout e.arch now s.timers (.rtTimer p) (e.arch.long lifetime) := by
  rw [rtTableUpdateTimeout]
  split
  · dsimp only
    split
    · exact .inr ⟨_, rfl⟩
    · exact .inl rfl
  · exact .inl rfl

theorem updateTimeout_invalid (e : Env) {s : Daemon} {p : Ptr} (lifetime : U32)
    (h : (s.rt p).state = .invalid) : rtTableUpdateTimeout e s p lifetime = s := by
  rw [rtTableUpdateTimeout, if_neg (by simp [h])]

theorem rt_updateTimeout (e : Env) (s : Daemon) (p : Ptr) (lifetime : U32) :
    (rtTableUpdateTimeout e s p lifetime).rt = s.rt := by
  obtain ⟨_, _, h⟩ := updateTimeout_eq e s p lifetime
  rw [h]
  rfl

theorem callee_updateTimeout (e : Env) (s : Daemon) (p : Ptr) (lifetime : U32) (t : TimerId) :
    callee (rtTableUpdateTimeout e s p lifetime).timers t = callee s.timers t := by
  obtain h | ⟨now, h⟩ := timers_updateTimeout e s p lifetime
  · rw [h]
  · rw [h, callee_timerSetTimeout]

theorem pending_updateTimeout_ne (e : Env) {s : Daemon} (hs : WellFormed s) (p : Ptr)
    (lifetime : U32) {t : TimerId} (ht : t ≠ .rtTimer p) :
    Pending (rtTableUpdateTimeout e s p lifetime).timers t ↔ Pending s.timers t := by
  obtain h | ⟨now, h⟩ := timers_updateTimeout e s p lifetime
  · rw [h]
  · rw [h, pending_timerSetTimeout hs.coherent]
    simp [ht]

theorem pending_updateTimeout (e : Env) {s : Daemon} (hs : WellFormed s) {p : Ptr}
    {lifetime : U32} (hl : 0 ≤ e.arch.long lifetime) (hp : Pending s.timers (.rtTimer p)) :
    Pending (rtTableUpdateTimeout e s p lifetime).timers (.rtTimer p) := by
  obtain h | ⟨now, h⟩ := timers_updateTimeout e s p lifetime
  · rwa [h]
  · rw [h, pending_timerSetTimeout hs.coherent]
    exact .inr ⟨rfl, hl, hs.armed _ hp⟩

theorem short_lifetime {lifetime : U32} (hl : lifetime.toNat ≤ deletePeriod) :
    lifetime.toNat < 2 ^ 31 := by
  have hvalue : deletePeriod = 15000 := rfl
  omega

theorem apart_updateTimeout (e : Env) {s : Daemon} (hs : WellFormed s) (p : Ptr) (lifetime : U32) :
    Apart p s (rtTableUpdateTimeout e s p lifetime) :=
  .frame (rt_updateTimeout e s p lifetime)
    ⟨fun r _ => callee_updateTimeout e s p lifetime _,
      fun r hr => pending_updateTimeout_ne e hs p lifetime (by simpa using hr),
      fun r _ => (pending_updateTimeout_ne e hs p lifetime (by simp)).1⟩

theorem long_nonneg (e : Env) {lifetime : U32} (hl : lifetime.toNat < 2 ^ 31) :
    0 ≤ e.arch.long lifetime := by
  cases e.arch with
  | long32 =>
      change 0 ≤ lifetime.toInt
      rw [BitVec.toInt_eq_toNat_of_lt (by omega)]
      exact Int.natCast_nonneg _
  | long64 => exact Int.natCast_nonneg _

theorem rt_repairTimeout (e : Env) (s : Daemon) (p q : Ptr) :
    (localRepairTimeout e s p).rt q = if q = p then { s.rt p with
        flags := { (s.rt p).flags with repair := false }
        precursors := []
        nprecursor := (s.rt p).nprecursor - BitVec.ofNat 32 (s.rt p).precursors.length }
      else s.rt q := by
  have hreport (s : Daemon) : (repairReport e s p).rt = s.rt := by
    rw [repairReport]
    dsimp only
    split <;> rfl
  have hself : (repairOver e s p).rt p = { s.rt p with
      flags := { (s.rt p).flags with repair := false } } := rt_setRt_self s p _
  change (precursorListDestroy (repairReport e (repairOver e s p) p) p).rt q = _
  rw [precursorListDestroy]
  by_cases hq : q = p
  · subst q
    rw [rt_setRt_self, hreport, hself, if_pos rfl]
  · rw [rt_setRt_ne _ _ hq, hreport, if_neg hq]
    exact rt_setRt_ne s _ hq

theorem timers_repairTimeout (e : Env) (s : Daemon) (p : Ptr) :
    ∃ now, (localRepairTimeout e s p).timers =
      timerSetTimeout e.arch now (setHandler s.timers (.rtTimer p) .routeDeleteTimeout) (.rtTimer p)
        deletePeriod := by
  have hreport : (repairReport e (repairOver e s p) p).timers = s.timers := by
    rw [repairReport]
    dsimp only
    split <;> rfl
  have harm (s : Daemon) : ∃ now, (armDelete e s p).timers =
      timerSetTimeout e.arch now (setHandler s.timers (.rtTimer p) .routeDeleteTimeout) (.rtTimer p)
        deletePeriod := ⟨_, rfl⟩
  obtain ⟨now, ht⟩ := harm (precursorListDestroy (repairReport e (repairOver e s p) p) p)
  refine ⟨now, ht.trans ?_⟩
  change timerSetTimeout e.arch now (setHandler (repairReport e (repairOver e s p) p).timers _ _) _
    _ = _
  rw [hreport]

theorem pending_repairTimeout (e : Env) {s : Daemon} (hs : WellFormed s) (p : Ptr) (t : TimerId) :
    Pending (localRepairTimeout e s p).timers t ↔ t = .rtTimer p ∨ Pending s.timers t := by
  obtain ⟨now, ht⟩ := timers_repairTimeout e s p
  rw [ht, pending_rearm hs.coherent now p _ (by decide)]

theorem callee_repairTimeout (e : Env) (s : Daemon) (p : Ptr) (t : TimerId) :
    (callee (localRepairTimeout e s p).timers t).1 =
      if t = .rtTimer p then some .routeDeleteTimeout else (callee s.timers t).1 := by
  obtain ⟨now, ht⟩ := timers_repairTimeout e s p
  rw [ht, callee_timerSetTimeout, callee_setHandler]
  split <;> rfl

theorem apart_repairTimeout (e : Env) {s : Daemon} (hs : WellFormed s) (p : Ptr) :
    Apart p s (localRepairTimeout e s p) := by
  refine ⟨fun q hq => by rw [rt_repairTimeout, if_neg hq], ?_⟩
  obtain ⟨now, ht⟩ := timers_repairTimeout e s p
  rw [ht]
  exact (Near.setHandler _ p _).trans (.timerSetTimeout (hs.coherent.setHandler _ _) now _
    (by simpa using fun r hr => Ne.symm hr))

theorem apart_delete (e : Env) (s : Daemon) (p : Ptr) : Apart p s (rtTableDelete e s p) := by
  refine ⟨fun q hq => rt_delete e s hq, ?_⟩
  rw [timers_delete]
  refine (Near.timerRemove s.timers (p := p) ?_).trans ((Near.timerRemove _ ?_).trans
    (Near.timerRemove _ ?_))
  · simpa using fun r hr => Ne.symm hr
  · simp
  · simp

section Insert

variable (e : Env) {s : Daemon} {r : RtEntry} (hs : WellFormed s) (hr : r.hash = r.destAddr)
  (hnew : ∀ q ∈ s.rtTbl.tbl (hashing r.destAddr), (s.rt q).destAddr ≠ r.destAddr)
include hs hr hnew

theorem wellFormed_openEntry (hops lifetime : U32) :
    WellFormed (openEntry e (linkEntry s r) s.brk hops lifetime).1 :=
  (kept_openEntry e _ _ _ _).wellFormed (wellFormed_linkEntry hs hr hnew)

omit hs hr hnew in
theorem timers_openEntry (s : Daemon) (p : Ptr) (hops lifetime : U32) :
    (openEntry e s p hops lifetime).1.timers = match (s.rt p).state with
      | .valid => s.timers
      | .invalid => setHandler s.timers (.rtTimer p) (waitHandler (s.rt p).flags.repair) := by
  rw [openEntry]
  cases (s.rt p).state with
  | valid => rfl
  | invalid =>
      dsimp only
      split
      next h => rw [waitHandler, if_pos h]
      next h => rw [waitHandler, if_neg h]

theorem apart_insertEntry (hops lifetime : U32) :
    Apart s.brk s (insertEntry e s r hops lifetime) := by
  have hlink : Apart s.brk s (linkEntry s r) := by
    refine ⟨fun q hq => rt_linkEntry_ne s r hq, ?_⟩
    refine (Near.timerInit s.timers _ _ ?_).trans ((Near.timerInit _ _ _ ?_).trans
      (Near.timerInit _ _ _ ?_))
    · simpa using fun r hr => Ne.symm hr
    · simp
    · simp
  have hopen : Apart s.brk (linkEntry s r) (openEntry e (linkEntry s r) s.brk hops lifetime).1 := by
    refine .frame (funext fun q => rt_openEntry e _ _ q hops lifetime) ?_
    rw [timers_openEntry]
    cases ((linkEntry s r).rt s.brk).state with
    | valid => exact .refl _ _
    | invalid => exact .setHandler _ _ _
  have harm (l : U32) : Apart s.brk (openEntry e (linkEntry s r) s.brk hops lifetime).1
      (armEntry e (openEntry e (linkEntry s r) s.brk hops lifetime).1 s.brk l) := by
    have hcoh := (wellFormed_openEntry e hs hr hnew hops lifetime).coherent
    rw [armEntry]
    split
    · exact .frame rfl (.timerSetTimeout hcoh _ _ (by simpa using fun r hr => Ne.symm hr))
    · exact .frame rfl (.refl _ _)
  exact ((hlink.trans hopen).trans (harm _)).trans (Apart.routeFound _ _ _)

omit hs hr hnew in
theorem callee_insertEntry (hops lifetime : U32) :
    (callee (insertEntry e s r hops lifetime).timers (.rtTimer s.brk)).1 = some (fitting r) := by
  have harm (s : Daemon) (p : Ptr) (l : U32) (t : TimerId) :
      callee (armEntry e s p l).timers t = callee s.timers t := by
    rw [armEntry]
    split
    · exact callee_timerSetTimeout _ _ _ _ _
    · rfl
  have hlink : (callee (linkEntry s r).timers (.rtTimer s.brk)).1 = some .routeExpireTimeout := by
    simp [callee_linkEntry]
  rw [insertEntry, callee_routeFound, harm, timers_openEntry, rt_linkEntry_self, fitting]
  cases r.state with
  | valid => exact hlink
  | invalid => rw [callee_setHandler, if_pos rfl]

theorem pending_insertEntry {hops lifetime : U32}
    (hl : r.state = .valid → lifetime ≠ 0 ∧ 0 ≤ e.arch.long lifetime) :
    Pending (insertEntry e s r hops lifetime).timers (.rtTimer s.brk) := by
  have hcoh := (wellFormed_openEntry e hs hr hnew hops lifetime).coherent
  have hinterval : (openEntry e (linkEntry s r) s.brk hops lifetime).2 ≠ 0 ∧
      0 ≤ e.arch.long (openEntry e (linkEntry s r) s.brk hops lifetime).2 := by
    rw [openEntry, rt_linkEntry_self]
    cases hv : r.state with
    | valid => exact hl hv
    | invalid =>
        dsimp only
        split
        · have hlong : 0 ≤ e.arch.long (u32 activeRouteTimeout) := long_nonneg e (by decide)
          exact ⟨show u32 activeRouteTimeout ≠ 0 by decide, hlong⟩
        · have hlong : 0 ≤ e.arch.long (u32 deletePeriod) := long_nonneg e (by decide)
          exact ⟨show u32 deletePeriod ≠ 0 by decide, hlong⟩
  have hhandler : ((openEntry e (linkEntry s r) s.brk hops lifetime).1.timers.timer
      (.rtTimer s.brk)).handler ≠ none := by
    rw [timers_openEntry, rt_linkEntry_self]
    cases r.state with
    | valid => simp [linkEntry, timerInit, Aodv.set]
    | invalid => simp [setHandler]
  rw [insertEntry, pending_routeFound _ _ (by simp), armEntry, if_pos hinterval.1]
  exact (pending_timerSetTimeout hcoh _ _ _ _).2 (.inr ⟨rfl, hinterval.2, hhandler⟩)

theorem hello_insertEntry (hops lifetime : U32) :
    ¬ Pending (insertEntry e s r hops lifetime).timers (.helloTimer s.brk) := by
  intro hp
  have hcoh := (wellFormed_openEntry e hs hr hnew hops lifetime).coherent
  have hopen : Pending (openEntry e (linkEntry s r) s.brk hops lifetime).1.timers
      (.helloTimer s.brk) := by
    rw [insertEntry, pending_routeFound _ _ (by simp), armEntry] at hp
    split at hp
    · rw [pending_timerSetTimeout hcoh] at hp
      simpa using hp
    · exact hp
  have hlink : Pending (linkEntry s r).timers (.helloTimer s.brk) := by
    rw [timers_openEntry] at hopen
    cases hv : ((linkEntry s r).rt s.brk).state with
    | valid => rwa [hv] at hopen
    | invalid => rwa [hv] at hopen
  exact hs.brk_not_linked (hs.owned (.helloTimer s.brk) hlink)

end Insert

theorem updateBegin_frame (e : Env) (s : Daemon) (p : Ptr) (next : Addr) (hops lifetime : U32)
    (state : RtState) (flags : RtFlags) :
    (updateBegin e s p next hops lifetime state flags).1.rt = s.rt ∧
      (updateBegin e s p next hops lifetime state flags).1.timers = s.timers := by
  rw [updateBegin]
  dsimp only
  split
  · exact ⟨rfl, rfl⟩
  · split <;> exact ⟨rfl, rfl⟩

theorem updateBegin_flags (e : Env) (s : Daemon) (p : Ptr) (next : Addr) (hops lifetime : U32)
    (h : (s.rt p).state = .valid → (s.rt p).flags.repair = false) :
    (updateBegin e s p next hops lifetime .valid (s.rt p).flags).2 =
      { (s.rt p).flags with repair := false } := by
  rw [updateBegin]
  dsimp only
  cases hv : (s.rt p).state with
  | invalid =>
      rw [if_pos ⟨rfl, rfl⟩]
      dsimp only
      split
      · rfl
      next hrep =>
        have hfalse : (s.rt p).flags.repair = false := by simpa using hrep
        rw [← hfalse]
  | valid =>
      have hrep := h hv
      rw [if_neg (by simp)]
      split <;> rw [← hrep]

theorem updateBreak_same (e : Env) {s : Daemon} {p : Ptr} {hops : U32}
    (h : ¬ (1 < hops ∧ (s.rt p).hopcnt = 1)) : updateBreak e s p hops = s := by
  rw [updateBreak]
  exact if_neg h

/-- A neighbour that becomes a farther node loses its hello timer and is taken
down before anything else happens. -/
theorem updateBreak_demoted (e : Env) {s : Daemon} (hs : WellFormed s) {p : Ptr} {hops : U32}
    (hp : Linked s.rtTbl p) (h : 1 < hops ∧ (s.rt p).hopcnt = 1) :
    ∃ s₁, Idle s s₁ ∧ ¬ Pending s₁.timers (.helloTimer p) ∧
      ReflTransGen (Slide e) (rtTableInvalidate e s₁ p) (updateBreak e s p hops) := by
  have hclear : Idle s (s.setRt p { s.rt p with lastHelloTime := ⟨0, 0⟩, helloCnt := 0 }) :=
    .setRt hs ⟨rfl, rfl, rfl, rfl, rfl, rfl, id, rfl⟩ rfl
  have hpop := hclear.trans (idle_pop (t := .helloTimer p) hclear.wellFormed (by simp) (by simp))
  refine ⟨_, hpop, ?_, ?_⟩
  · intro hh
    exact ((pending_timerRemove _ _ _).1 hh).2 rfl
  · have hhop := (hpop.rt p).hopcnt.trans h.2
    rw [updateBreak, if_pos h]
    refine lbs_slides (lb_linkBreak_rest e ((hpop.linked p).2 hp) hhop) ?_
    exact (kept_invalidate e ((hpop.linked p).2 hp)).wellFormed hpop.wellFormed

section Finish

variable (e : Env) {s : Daemon} {p : Ptr}

theorem updateFinish_eq (next : Addr) (hops seqno lifetime : U32) (state : RtState)
    (flags : RtFlags) : ∃ s₁, (s₁ = writeUpdate s p next hops seqno flags ∨
        s₁ = rtTableUpdateTimeout e (writeUpdate s p next hops seqno flags) p lifetime) ∧
      updateFinish e s p next hops seqno lifetime state flags =
        routeFound (setState s₁ p state) p := by
  rw [updateFinish]
  split
  · exact ⟨_, .inl rfl, rfl⟩
  · exact ⟨_, .inr rfl, rfl⟩

theorem kept_finish (hp : Linked s.rtTbl p) (next : Addr) (hops seqno lifetime : U32)
    (state : RtState) (flags : RtFlags) :
    (updateFinish e s p next hops seqno lifetime state flags).brk = s.brk ∧
      (updateFinish e s p next hops seqno lifetime state flags).rtTbl.tbl = s.rtTbl.tbl := by
  have hwrite := kept_writeUpdate s p next hops seqno flags
  obtain ⟨s₁, hs₁, heq⟩ := updateFinish_eq e (s := s) (p := p) next hops seqno lifetime state flags
  have hmid : Kept s s₁ := by
    rcases hs₁ with rfl | rfl
    · exact hwrite
    · exact hwrite.trans (kept_updateTimeout e lifetime ((hwrite.keys.linked p).2 hp))
  have hset := hmid.trans (kept_setState s₁ p state)
  rw [heq, tbl_routeFound]
  refine ⟨?_, hset.keys.tbl⟩
  rw [routeFound]
  split
  · cases seekListCheck (setState s₁ p state) ((setState s₁ p state).rt p).destAddr <;>
      exact hset.brk
  · exact hset.brk

theorem apart_updateFinish (hs : WellFormed s) (next : Addr) (hops seqno lifetime : U32)
    (state : RtState) (flags : RtFlags) :
    Apart p s (updateFinish e s p next hops seqno lifetime state flags) := by
  have hwrite : Apart p s (writeUpdate s p next hops seqno flags) :=
    (Apart.setRt s p _).trans (.frame rfl (.setHandler _ p _))
  have hw := (kept_writeUpdate s p next hops seqno flags).wellFormed hs
  obtain ⟨s₁, hs₁, heq⟩ := updateFinish_eq e (s := s) (p := p) next hops seqno lifetime state flags
  rw [heq]
  have hmid : Apart p s s₁ := by
    rcases hs₁ with rfl | rfl
    · exact hwrite
    · exact hwrite.trans (apart_updateTimeout e hw p lifetime)
  exact (hmid.trans (Apart.setRt s₁ p _)).trans (Apart.routeFound _ p p)

theorem callee_updateFinish (next : Addr) (hops seqno lifetime : U32) (state : RtState)
    (flags : RtFlags) :
    (callee (updateFinish e s p next hops seqno lifetime state flags).timers (.rtTimer p)).1 =
      some .routeExpireTimeout := by
  have hwrite : (callee (writeUpdate s p next hops seqno flags).timers (.rtTimer p)).1 =
      some .routeExpireTimeout := by
    change (callee (setHandler s.timers (.rtTimer p) .routeExpireTimeout) (.rtTimer p)).1 = _
    rw [callee_setHandler, if_pos rfl]
  obtain ⟨s₁, hs₁, heq⟩ := updateFinish_eq e (s := s) (p := p) next hops seqno lifetime state flags
  rw [heq, callee_routeFound]
  change (callee s₁.timers (.rtTimer p)).1 = _
  rcases hs₁ with rfl | rfl
  · exact hwrite
  · rw [callee_updateTimeout]
    exact hwrite

theorem hello_updateFinish (hs : WellFormed s) (next : Addr) (hops seqno lifetime : U32)
    (state : RtState) (flags : RtFlags)
    (h : Pending (updateFinish e s p next hops seqno lifetime state flags).timers (.helloTimer p)) :
    Pending s.timers (.helloTimer p) := by
  have hw := (kept_writeUpdate s p next hops seqno flags).wellFormed hs
  obtain ⟨s₁, hs₁, heq⟩ := updateFinish_eq e (s := s) (p := p) next hops seqno lifetime state flags
  rw [heq, pending_routeFound _ _ (by simp)] at h
  change Pending s₁.timers (.helloTimer p) at h
  rcases hs₁ with rfl | rfl
  · exact h
  · exact (pending_updateTimeout_ne e hw p lifetime (by simp)).1 h

theorem pending_updateFinish (hs : WellFormed s) {next : Addr} {hops seqno lifetime : U32}
    {state : RtState} {flags : RtFlags}
    (hl : (s.rt p).state = .valid → 0 ≤ e.arch.long lifetime)
    (hp : Pending s.timers (.rtTimer p)) :
    Pending (updateFinish e s p next hops seqno lifetime state flags).timers (.rtTimer p) := by
  have hw := (kept_writeUpdate s p next hops seqno flags).wellFormed hs
  have hstate : ((writeUpdate s p next hops seqno flags).rt p).state = (s.rt p).state := by
    change ((s.setRt p _).rt p).state = _
    rw [rt_setRt_self]
  obtain ⟨s₁, hs₁, heq⟩ := updateFinish_eq e (s := s) (p := p) next hops seqno lifetime state flags
  rw [heq, pending_routeFound _ _ (by simp)]
  change Pending s₁.timers (.rtTimer p)
  rcases hs₁ with rfl | rfl
  · exact hp
  · cases hv : (s.rt p).state with
    | invalid =>
        rw [updateTimeout_invalid e lifetime (hstate.trans hv)]
        exact hp
    | valid => exact pending_updateTimeout e hw (hl hv) hp

end Finish

theorem slide_route {e : Env} {s s' : Daemon} (h : Slide e s s') (p : Ptr) :
    (s'.rt p).destAddr = (s.rt p).destAddr ∧ (s'.rt p).nextHop = (s.rt p).nextHop ∧
      (s'.rt p).hopcnt = (s.rt p).hopcnt ∧
      ((s.rt p).state = .invalid → (s'.rt p).state = .invalid) := by
  have hdown (s : Daemon) (q : Ptr) :
      ((rtTableInvalidate e s q).rt p).destAddr = (s.rt p).destAddr ∧
        ((rtTableInvalidate e s q).rt p).nextHop = (s.rt p).nextHop ∧
        ((rtTableInvalidate e s q).rt p).hopcnt = (s.rt p).hopcnt ∧
        ((s.rt p).state = .invalid → ((rtTableInvalidate e s q).rt p).state = .invalid) := by
    by_cases hq : p = q
    · subst q
      refine ⟨(rt_invalidate_self e s p).2.2, ?_, ?_, fun _ => state_invalidate e s p⟩
      all_goals
        cases hv : (s.rt p).state with
        | invalid => rw [invalidate_invalid e s hv]; rfl
        | valid => simp only [Daemon.rt, rt_invalidate_valid e hv, Function.update_self]
    · rw [rt_invalidate_ne e s hq]
      exact ⟨rfl, rfl, rfl, id⟩
  cases h with
  | idle h =>
      have hp := h.rt p
      exact ⟨hp.destAddr, hp.nextHop, hp.hopcnt, fun hi => hp.state.trans hi⟩
  | down hp hv => exact hdown s _
  | @repair q hp hv =>
      have hmark : ((markRepair s q).rt p).destAddr = (s.rt p).destAddr ∧
          ((markRepair s q).rt p).nextHop = (s.rt p).nextHop ∧
          ((markRepair s q).rt p).hopcnt = (s.rt p).hopcnt ∧
          ((markRepair s q).rt p).state = (s.rt p).state := by
        rw [markRepair]
        by_cases hq : p = q
        · subst q
          rw [rt_setRt_self]
          exact ⟨rfl, rfl, rfl, rfl⟩
        · rw [rt_setRt_ne s _ hq]
          exact ⟨rfl, rfl, rfl, rfl⟩
      obtain ⟨hd, hn, hh, hi⟩ := hdown (markRepair s q) q
      obtain ⟨md, mn, mh, ms⟩ := hmark
      exact ⟨hd.trans md, hn.trans mn, hh.trans mh, fun h => hi (ms.trans h)⟩

theorem slides_route {e : Env} {s s' : Daemon} (h : ReflTransGen (Slide e) s s') (p : Ptr) :
    (s'.rt p).destAddr = (s.rt p).destAddr ∧ (s'.rt p).nextHop = (s.rt p).nextHop ∧
      (s'.rt p).hopcnt = (s.rt p).hopcnt ∧
      ((s.rt p).state = .invalid → (s'.rt p).state = .invalid) := by
  induction h with
  | refl => exact ⟨rfl, rfl, rfl, id⟩
  | tail _ h ih =>
      obtain ⟨hd, hn, hh, hi⟩ := slide_route h p
      exact ⟨hd.trans ih.1, hn.trans ih.2.1, hh.trans ih.2.2.1, fun hv => hi (ih.2.2.2 hv)⟩

theorem slide_linked {e : Env} {s s' : Daemon} (h : Slide e s s') (p : Ptr) :
    Linked s'.rtTbl p ↔ Linked s.rtTbl p := by
  cases h with
  | idle h => exact h.linked p
  | down hp hv => exact (kept_invalidate e hp).keys.linked p
  | @repair q hp hv =>
      have hmark := kept_markRepair s q
      exact (hmark.trans (kept_invalidate e ((hmark.keys.linked q).2 hp))).keys.linked p

theorem slides_linked {e : Env} {s s' : Daemon} (h : ReflTransGen (Slide e) s s') (p : Ptr) :
    Linked s'.rtTbl p ↔ Linked s.rtTbl p := by
  induction h with
  | refl => exact Iff.rfl
  | tail _ h ih => exact (slide_linked h p).trans ih

theorem slide_hello {e : Env} {s s' : Daemon} (h : Slide e s s') (hs : WellFormed s) (p : Ptr)
    (hp : Pending s'.timers (.helloTimer p)) : Pending s.timers (.helloTimer p) := by
  have hdown {s : Daemon} (hs : WellFormed s) (q : Ptr) (hv : (s.rt q).state = .valid)
      (h : Pending (rtTableInvalidate e s q).timers (.helloTimer p)) :
      Pending s.timers (.helloTimer p) := by
    have hp := (pending_invalidate e hs hv (.helloTimer p)).1 h
    simp only [reduceCtorEq, false_or] at hp
    exact hp.1
  cases h with
  | idle h => exact h.timers.hello p hp
  | down _ hv => exact hdown hs _ hv hp
  | @repair q _ hv =>
      have hmark : ((markRepair s q).rt q).state = .valid := by
        rw [markRepair, rt_setRt_self]
        exact hv
      exact hdown (s := markRepair s q) ((kept_markRepair s q).wellFormed hs) q hmark hp

theorem slides_hello {e : Env} {s s' : Daemon} (h : ReflTransGen (Slide e) s s')
    (hs : WellFormed s) (p : Ptr) (hp : Pending s'.timers (.helloTimer p)) :
    Pending s.timers (.helloTimer p) := by
  induction h with
  | refl => exact hp
  | tail hrun h ih => exact ih (slide_hello h (slides_wellFormed hrun hs) p hp)

end Aodv
