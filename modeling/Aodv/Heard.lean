import Aodv.Duplicates
import Aodv.ReceivedBytes

namespace Aodv.Heard

open Lib.Bytes HashTable Requests Relation
open Frames (Books Leaves aside_ack)

structure Touches (d : Addr) (s s' : Daemon) : Prop where
  sound : Sound s s'
  books : Books s s'
  limiter : s'.rreqRatelimit = s.rreqRatelimit
  others : ∀ q, Linked s'.rtTbl q → (s'.rt q).destAddr ≠ d → Linked s.rtTbl q ∧ s'.rt q = s.rt q

namespace Touches

variable {d : Addr} {s s' s'' : Daemon}

theorem trans (h : Touches d s s') (h' : Touches d s' s'') : Touches d s s'' := by
  refine ⟨h.sound.trans h'.sound, h.books.trans h'.books, h'.limiter.trans h.limiter, ?_⟩
  intro q hq hd
  obtain ⟨hl, hr⟩ := h'.others q hq hd
  rw [hr] at hd ⊢
  exact h.others q hl hd

theorem kept (hs : WellFormed s) (h : Kept s s') (hb : Books s s')
    (hlim : s'.rreqRatelimit = s.rreqRatelimit)
    (hr : ∀ q, (s'.rt q).destAddr ≠ d → s'.rt q = s.rt q) :
    Touches d s s' :=
  ⟨h.sound hs, hb, hlim, fun q hq hd => ⟨(h.keys.linked q).1 hq, hr q hd⟩⟩

theorem size (h : Touches d s s') :
    (entries s'.rtTbl).length ≤ (entries s.rtTbl).length + 1 := by
  have hw := h.sound.wellFormed.table
  have hsub (p : Ptr) (hp : ∀ q, Linked s'.rtTbl q → (s'.rt q).destAddr = d → q = p) :
      entries s'.rtTbl ⊆ p :: entries s.rtTbl := by
    intro q hq
    rw [mem_entries] at hq
    by_cases hd : (s'.rt q).destAddr = d
    · rw [hp q hq hd]
      exact List.mem_cons_self
    · exact List.mem_cons_of_mem _ ((mem_entries _ q).2 (h.others q hq hd).1)
  by_cases hd : ∃ p, Linked s'.rtTbl p ∧ (s'.rt p).destAddr = d
  · obtain ⟨p, hp, rfl⟩ := hd
    exact (hw.entries_nodup.subperm (hsub p fun q hq hd => hw.dests q p hq hp hd)).length_le
  · refine (hw.entries_nodup.subperm (hsub 0 fun q hq hq' => ?_)).length_le
    exact absurd ⟨q, hq, hq'⟩ hd

end Touches

section Calls

variable {d : Addr} {e : Env} {s s' : Daemon} {p : Ptr}

theorem limiter_routeFound (s : Daemon) (p : Ptr) :
    (routeFound s p).rreqRatelimit = s.rreqRatelimit := by
  rw [routeFound]
  split
  · cases seekListCheck s (s.rt p).destAddr <;> rfl
  · rfl

theorem limiter_insertEntry (e : Env) (s : Daemon) (r : RtEntry) (hops lifetime : U32) :
    (insertEntry e s r hops lifetime).rreqRatelimit = s.rreqRatelimit := by
  have hopen (s : Daemon) (p : Ptr) :
      (openEntry e s p hops lifetime).1.rreqRatelimit = s.rreqRatelimit := by
    rw [openEntry]
    cases (s.rt p).state with
    | invalid =>
        dsimp only
        split <;> rfl
    | valid => rfl
  rw [insertEntry, limiter_routeFound, armEntry]
  split
  · exact hopen (linkEntry s r) s.brk
  · exact hopen (linkEntry s r) s.brk

theorem limiter_updateFinish (e : Env) (s : Daemon) (p : Ptr) (next : Addr)
    (hops seqno lifetime : U32) (state : RtState) (flags : RtFlags) :
    (updateFinish e s p next hops seqno lifetime state flags).rreqRatelimit = s.rreqRatelimit := by
  obtain ⟨s₁, hs₁, heq⟩ := updateFinish_eq e (s := s) (p := p) next hops seqno lifetime state flags
  rw [heq, limiter_routeFound]
  rcases hs₁ with rfl | rfl
  · rfl
  · obtain ⟨q, n, h⟩ := updateTimeout_eq e (writeUpdate s p next hops seqno flags) p lifetime
    rw [h]
    rfl

theorem limiter_updateBegin (e : Env) (s : Daemon) (p : Ptr) (next : Addr) (hops lifetime : U32)
    (state : RtState) (flags : RtFlags) :
    (updateBegin e s p next hops lifetime state flags).1.rreqRatelimit = s.rreqRatelimit := by
  rw [updateBegin]
  dsimp only
  split
  · rfl
  · split <;> rfl

structure IsRoute (r : RtEntry) (d next : Addr) (hops : U8) (seqno : U32) : Prop where
  state : r.state = .valid
  dest : r.destAddr = d
  next : r.nextHop = next
  hops : r.hopcnt = hops
  seqno : r.destSeqno = seqno

theorem touches_insert (hs : WellFormed s) (hd : Absent d s) (next : Addr)
    (hops seqno lifetime : U32) (flags : RtFlags) :
    ∃ s', rtTableInsert e s d next hops seqno lifetime .valid flags = (s', some s.brk) ∧
      Touches d s s' ∧ Linked s'.rtTbl s.brk ∧
      s'.rt s.brk = newEntry d next hops seqno .valid flags ∧
      ∀ q, Linked s.rtTbl q → Linked s'.rtTbl q ∧ s'.rt q = s.rt q := by
  obtain ⟨s', heq⟩ := insert_absent (e := e) hd next hops seqno lifetime .valid flags
  have hsound := insert_sound e hs d next hops seqno lifetime .valid flags
  have hbooks := Books.insert e s d next hops seqno lifetime .valid flags
  obtain hno | ⟨-, hins⟩ := rtTableInsert_cases e s d next hops seqno lifetime .valid flags
  · rw [heq] at hno
    cases hno
  rw [heq] at hsound hbooks hins
  obtain ⟨rfl, -⟩ := Prod.mk.inj hins
  let s₁ := s.observe (.rtInsert d next hops seqno lifetime .valid flags)
  let r := newEntry d next hops seqno .valid flags
  have hself : (insertEntry e s₁ r hops lifetime).rt s.brk = r :=
    rt_insertEntry_self (s := s₁) r hops lifetime
  refine ⟨_, heq, ⟨hsound, hbooks, limiter_insertEntry e s₁ r hops lifetime, ?_⟩, ?_, hself, ?_⟩
  · intro q hq hne
    have hqp : q ≠ s₁.brk := by
      rintro rfl
      exact hne (congrArg RtEntry.destAddr hself)
    refine ⟨((linked_insertEntry e s₁ r hops lifetime q).1 hq).resolve_left hqp, ?_⟩
    exact rt_insertEntry_ne (s := s₁) r hops lifetime hqp
  · exact (linked_insertEntry e s₁ r hops lifetime s.brk).2 (.inl rfl)
  · intro q hq
    have hne : q ≠ s₁.brk := by
      rintro rfl
      exact hs.brk_not_linked hq
    exact ⟨(linked_insertEntry e s₁ r hops lifetime q).2 (.inr hq),
      rt_insertEntry_ne (s := s₁) r hops lifetime hne⟩

theorem touches_update (hs : WellFormed s) (hp : Linked s.rtTbl p) (next : Addr)
    (hops seqno lifetime : U32) (flags : RtFlags) (hbreak : ¬ (1 < hops ∧ (s.rt p).hopcnt = 1)) :
    Touches (s.rt p).destAddr s (rtTableUpdate e s p next hops seqno lifetime .valid flags) ∧
      Linked (rtTableUpdate e s p next hops seqno lifetime .valid flags).rtTbl p ∧
      IsRoute ((rtTableUpdate e s p next hops seqno lifetime .valid flags).rt p) (s.rt p).destAddr
        next (hops.setWidth 8) seqno := by
  obtain ⟨hhops, hnext, hseqno, hstate⟩ :=
    rt_update_self e s p next hops seqno lifetime .valid flags
  have hkeys := keys_update (e := e) hp next hops seqno lifetime .valid flags
  have hlinked := (hkeys.linked p).2 hp
  obtain ⟨s₁, f, hs₁, -, hrt, -, -, -, -, heq⟩ :=
    Aodv.update_parts e hs hp next hops seqno lifetime .valid flags
  have hsame : updateBreak e s₁ p hops = s₁ := updateBreak_same e (by rwa [hrt])
  rw [hsame] at heq
  have hother (q : Ptr) (hq : q ≠ p) :
      (rtTableUpdate e s p next hops seqno lifetime .valid flags).rt q = s.rt q := by
    rw [heq, rt_updateFinish, if_neg hq, hrt]
  refine ⟨⟨update_sound e hs hp next hops seqno lifetime .valid flags,
    .update hp next hops seqno lifetime .valid flags, ?_, fun q hq hd => ?_⟩, hlinked,
    ⟨hstate, hkeys.destAddr p, hnext, hhops, hseqno⟩⟩
  · rw [heq, limiter_updateFinish, hs₁, limiter_updateBegin]
    rfl
  · have hqp : q ≠ p := by
      rintro rfl
      exact hd (hkeys.destAddr q)
    exact ⟨(hkeys.linked q).1 hq, hother q hqp⟩

theorem flags_update (e : Env) (s : Daemon) (p : Ptr) (next : Addr) (hops seqno lifetime : U32)
    (state : RtState) (flags : RtFlags) :
    ((rtTableUpdate e s p next hops seqno lifetime state flags).rt p).flags.unidir =
      flags.unidir := by
  rw [rtTableUpdate, rt_updateFinish, if_pos rfl, updateBegin]
  dsimp only
  split
  · dsimp only
    split <;> rfl
  · split <;> rfl

theorem helloCnt_update (e : Env) (hs : WellFormed s) (hp : Linked s.rtTbl p) (next : Addr)
    (hops seqno lifetime : U32) (state : RtState) (flags : RtFlags)
    (hbreak : ¬ (1 < hops ∧ (s.rt p).hopcnt = 1)) :
    ((rtTableUpdate e s p next hops seqno lifetime state flags).rt p).helloCnt =
      (s.rt p).helloCnt := by
  obtain ⟨s₁, f, -, -, hrt, -, -, -, -, heq⟩ :=
    Aodv.update_parts e hs hp next hops seqno lifetime state flags
  rw [heq, updateBreak_same e (by rwa [hrt]), rt_updateFinish, if_pos rfl, hrt]

theorem touches_refresh (hs : WellFormed s) (hp : Linked s.rtTbl p) (now : Timeval) :
    Touches (s.rt p).destAddr s (neighborRefresh e s p now) ∧
      ∀ q, (Linked (neighborRefresh e s p now).rtTbl q ↔ Linked s.rtTbl q) ∧
        ∃ heard, (neighborRefresh e s p now).rt q = { s.rt q with lastHelloTime := heard } := by
  rw [neighborRefresh]
  split
  · have hkept := ReceivedBytes.kept_helloUpdateTimeout e hp now (allowedHelloLoss * helloInterval)
    have hself : (helloUpdateTimeout e s p now (allowedHelloLoss * helloInterval)).rt p =
        { s.rt p with lastHelloTime := now } := by
      rw [helloUpdateTimeout, rt_setRt_self]
      rfl
    have hother (q : Ptr) (hq : q ≠ p) :
        (helloUpdateTimeout e s p now (allowedHelloLoss * helloInterval)).rt q = s.rt q :=
      rt_setRt_ne _ _ hq
    refine ⟨.kept hs hkept (.helloUpdate e s p now _) rfl fun q hq => hother q ?_, fun q => ?_⟩
    · rintro rfl
      apply hq
      rw [hself]
    · refine ⟨hkept.keys.linked q, ?_⟩
      by_cases hqp : q = p
      · subst q
        exact ⟨now, hself⟩
      · exact ⟨(s.rt q).lastHelloTime, hother q hqp⟩
  · exact ⟨⟨.refl hs, .refl, rfl, fun _ hq _ => ⟨hq, rfl⟩⟩, fun _ => ⟨Iff.rfl, _, rfl⟩⟩

/-- What the entry for d says about its number and its link was said by the entry
before, or nothing is known yet. -/
def Inherits (d : Addr) (s s' : Daemon) : Prop :=
  ∀ q, Linked s'.rtTbl q → (s'.rt q).destAddr = d →
    ((s'.rt q).destSeqno = 0 ∧ (s'.rt q).flags.unidir = false) ∨
      ∃ p, Linked s.rtTbl p ∧ (s.rt p).destAddr = d ∧ (s'.rt q).destSeqno = (s.rt p).destSeqno ∧
        (s'.rt q).flags.unidir = (s.rt p).flags.unidir

theorem refresh_inherits (ht : Touches d s s') (hi : Inherits d s s') (hp : Linked s'.rtTbl p)
    (hd : (s'.rt p).destAddr = d) (now : Timeval) :
    Touches d s (neighborRefresh e s' p now) ∧ Inherits d s (neighborRefresh e s' p now) := by
  subst hd
  obtain ⟨htouch, hsame⟩ := touches_refresh (e := e) ht.sound.wellFormed hp now
  refine ⟨ht.trans htouch, fun q hq hd => ?_⟩
  obtain ⟨hl, heard, hrt⟩ := hsame q
  rw [hrt] at hd ⊢
  exact hi q (hl.1 hq) hd

theorem touches_neighborAdd (e : Env) (hs : WellFormed s) (hfull : ¬ Full s.rtTbl) (src : Addr) :
    Touches src s (neighborAdd e s src) ∧ Inherits src s (neighborAdd e s src) := by
  have htock : Touches src s s.tock := .kept hs (.tock s) (.tock s) rfl fun _ _ => rfl
  have hs' := htock.sound.wellFormed
  rw [neighborAdd]
  dsimp only
  cases hc : rtTableCheck s.tock.rtTbl src with
  | none =>
      have habsent : Absent src s.tock := by
        intro q hq hd
        rw [(rtTableCheck_eq_some hs'.table hfull).2 ⟨hq, hd⟩] at hc
        cases hc
      obtain ⟨s₁, heq, hins, hl, hnew, -⟩ := touches_insert (e := e) hs' habsent src 1 0
        (u32 activeRouteTimeout) .zero
      have hdest : (s₁.rt s.tock.brk).destAddr = src := congrArg RtEntry.destAddr hnew
      rw [heq]
      refine refresh_inherits (htock.trans hins) (fun q hq hd => .inl ?_) hl hdest _
      rw [hins.sound.wellFormed.table.dests q _ hq hl (hd.trans hdest.symm)]
      rw [hnew]
      exact ⟨rfl, rfl⟩
  | some p =>
      obtain ⟨hl, rfl⟩ := rtTableCheck_some hc
      dsimp only
      split
      · exact ⟨htock, fun q hq hd => .inr ⟨q, hq, hd, rfl, rfl⟩⟩
      · obtain ⟨hup, hl', hroute⟩ := touches_update (e := e) hs' hl (s.tock.rt p).destAddr 1
          (s.tock.rt p).destSeqno (u32 activeRouteTimeout) (s.tock.rt p).flags (by simp)
        refine refresh_inherits (htock.trans hup) (fun q hq hd => .inr ⟨p, hl, rfl, ?_⟩) hl'
          hroute.dest _
        obtain rfl := hup.sound.wellFormed.table.dests q _ hq hl' (hd.trans hroute.dest.symm)
        exact ⟨hroute.seqno, flags_update e _ _ _ _ _ _ _ _⟩

end Calls

/-- The entry of d once neighbor_add has noted the sender src: src gets an entry, or
has its own made VALID unless the link is marked unidirectional. -/
def noted (s : Daemon) (src d : Addr) : Option RtEntry :=
  match entryOf s d with
  | none => if d = src then some (newEntry src src 1 0 .valid .zero) else none
  | some p =>
      if rtTableCheck s.rtTbl src = some p ∧ (s.rt p).flags.unidir = false then
        some { s.rt p with state := .valid, nextHop := src, hopcnt := 1 }
      else some (s.rt p)

def awaitsAck (s : Daemon) (d : Addr) : Bool :=
  match entryOf s d with
  | none => false
  | some p => (s.timer (.ackTimer p)).used

structure SameLink (r r' : RtEntry) : Prop where
  state : r'.state = r.state
  nextHop : r'.nextHop = r.nextHop
  hopcnt : r'.hopcnt = r.hopcnt
  destSeqno : r'.destSeqno = r.destSeqno
  unidir : r'.flags.unidir = r.flags.unidir
  helloCnt : r'.helloCnt = r.helloCnt

/-- The table of t is that of s with the sender src noted. -/
structure Notes (s : Daemon) (src : Addr) (t : Daemon) : Prop where
  kept : ∀ q, Linked s.rtTbl q → Linked t.rtTbl q ∧ (t.rt q).destAddr = (s.rt q).destAddr
  entry : ∀ q, Linked t.rtTbl q → ∃ r, noted s src (t.rt q).destAddr = some r ∧ SameLink r (t.rt q)
  found : ∀ d r, noted s src d = some r → ∃ q, Linked t.rtTbl q ∧ (t.rt q).destAddr = d
  ack : ∀ q, Linked t.rtTbl q →
    (t.timer (.ackTimer q)).used = awaitsAck s (t.rt q).destAddr

section Noted

variable {e : Env} {s s' : Daemon} {src d : Addr} {p : Ptr}

theorem SameLink.refl (r : RtEntry) : SameLink r r := ⟨rfl, rfl, rfl, rfl, rfl, rfl⟩

theorem noted_other (hs : WellFormed s) (hp : Linked s.rtTbl p) (hd : (s.rt p).destAddr ≠ src) :
    noted s src (s.rt p).destAddr = some (s.rt p) := by
  have hentry : entryOf s (s.rt p).destAddr = some p := (entryOf_eq_some hs).2 ⟨hp, rfl⟩
  rw [noted, hentry]
  dsimp only
  rw [if_neg]
  exact fun h => hd (rtTableCheck_some h.1).2

theorem awaitsAck_linked (hs : WellFormed s) (hp : Linked s.rtTbl p) :
    awaitsAck s (s.rt p).destAddr = (s.timer (.ackTimer p)).used := by
  rw [awaitsAck, (entryOf_eq_some hs).2 ⟨hp, rfl⟩]

theorem notes_touched (hs : WellFormed s) (ht : Touches src s s')
    (hkeep : ∀ q, Linked s.rtTbl q → Linked s'.rtTbl q ∧ (s'.rt q).destAddr = (s.rt q).destAddr ∧
      (s'.timer (.ackTimer q)).used = (s.timer (.ackTimer q)).used)
    (hsrc : ∃ p r, Linked s'.rtTbl p ∧ (s'.rt p).destAddr = src ∧ noted s src src = some r ∧
      SameLink r (s'.rt p) ∧ (s'.timer (.ackTimer p)).used = awaitsAck s src) :
    Notes s src s' := by
  obtain ⟨p, r, hp, rfl, hr, hsame, hack⟩ := hsrc
  have huniq (q : Ptr) (hq : Linked s'.rtTbl q) (hd : (s'.rt q).destAddr = (s'.rt p).destAddr) :
      q = p := ht.sound.wellFormed.table.dests q p hq hp hd
  refine ⟨fun q hq => ⟨(hkeep q hq).1, (hkeep q hq).2.1⟩, fun q hq => ?_, fun d r' hd => ?_,
    fun q hq => ?_⟩
  · by_cases hd : (s'.rt q).destAddr = (s'.rt p).destAddr
    · rw [huniq q hq hd]
      exact ⟨r, hr, hsame⟩
    · obtain ⟨hl, hrt⟩ := ht.others q hq hd
      rw [hrt] at hd ⊢
      exact ⟨s.rt q, noted_other hs hl hd, .refl _⟩
  · by_cases hdp : d = (s'.rt p).destAddr
    · exact ⟨p, hp, hdp.symm⟩
    · rw [noted] at hd
      cases hentry : entryOf s d with
      | none =>
          rw [hentry] at hd
          dsimp only at hd
          rw [if_neg hdp] at hd
          cases hd
      | some q =>
          obtain ⟨hq, rfl⟩ := (entryOf_eq_some hs).1 hentry
          exact ⟨q, (hkeep q hq).1, (hkeep q hq).2.1⟩
  · by_cases hd : (s'.rt q).destAddr = (s'.rt p).destAddr
    · rw [huniq q hq hd]
      exact hack
    · obtain ⟨hl, hrt⟩ := ht.others q hq hd
      rw [hrt, awaitsAck_linked hs hl, (hkeep q hl).2.2]

theorem leaves_lbs (h : ReflTransGen (Lb e) s s') (hs : WellFormed s) (hv : (s'.rt p).state = .valid) :
    Leaves (.ackTimer p) s.timers s'.timers := by
  induction h with
  | refl => exact .refl
  | @tail s₁ s₂ hrun hstep ih =>
      have hw := (lb_kept hrun).wellFormed hs
      have hv₁ : (s₁.rt p).state = .valid := by
        cases hst : (s₁.rt p).state with
        | valid => rfl
        | invalid =>
            rw [Requests.lbs_down (.single hstep) hw hst] at hv
            cases hv
      refine (ih hv₁).trans ?_
      have hdown (s : Daemon) (q : Ptr) (hvq : ((rtTableInvalidate e s q).rt p).state = .valid) :
          Leaves (.ackTimer p) s.timers (rtTableInvalidate e s q).timers := by
        apply Leaves.invalidate (aside_ack p)
        rintro ⟨⟩
        rw [state_invalidate] at hvq
        cases hvq
      cases hstep with
      | down => exact hdown s₁ _ hv
      | @repair q => exact hdown (markRepair s₁ q) q hv
      | tock | rerrSend | destroy | rerrNew | rerrAdd => exact .refl

theorem leaves_update (hs : WellFormed s) {q : Ptr} (hq : Linked s.rtTbl q) (next : Addr)
    (hops seqno lifetime : U32) (state : RtState) (flags : RtFlags)
    (hp : ¬ (1 < hops ∧ (s.rt q).hopcnt = 1) ∨ p ≠ q ∧
      ((rtTableUpdate e s q next hops seqno lifetime state flags).rt p).state = .valid) :
    Leaves (.ackTimer p) s.timers
      (rtTableUpdate e s q next hops seqno lifetime state flags).timers := by
  obtain ⟨s₁, f, -, -, hrt, htimers, hw, htbl, -, heq⟩ :=
    Aodv.update_parts e hs hq next hops seqno lifetime state flags
  rw [heq] at hp ⊢
  refine Leaves.trans ?_ (.updateFinish (aside_ack p) _ q next hops seqno lifetime state f)
  rw [← htimers]
  by_cases hbreak : 1 < hops ∧ (s.rt q).hopcnt = 1
  · obtain ⟨hne, hv⟩ := hp.resolve_left fun h => h hbreak
    rw [rt_updateFinish, if_neg hne] at hv
    have hlink : Linked s₁.rtTbl q := by
      rw [Linked, htbl]
      exact hq
    rw [← hrt] at hbreak
    rw [updateBreak] at hv ⊢
    dsimp only at hv ⊢
    rw [if_pos hbreak] at hv ⊢
    let r : RtEntry := { s₁.rt q with lastHelloTime := ⟨0, 0⟩, helloCnt := 0 }
    have hkept : Kept s₁ (pop (s₁.setRt q r) (.helloTimer q)) :=
      (Kept.setRt s₁ q r rfl rfl).trans (kept_pop (.helloTimer q))
    refine (Leaves.timerRemove s₁.timers (t := .helloTimer q) (by simp)).trans ?_
    exact leaves_lbs (lb_linkBreak e ((hkept.keys.linked q).2 hlink)) (hkept.wellFormed hw) hv
  · rw [updateBreak_same e (by rwa [hrt])]
    exact .refl

theorem notes_refreshed (hs : WellFormed s) {t : Daemon} (ht : Touches src s t)
    (hkeep : ∀ q, Linked s.rtTbl q → Linked t.rtTbl q ∧ (t.rt q).destAddr = (s.rt q).destAddr ∧
      (t.timer (.ackTimer q)).used = (s.timer (.ackTimer q)).used)
    (hp : Linked t.rtTbl p) (hd : (t.rt p).destAddr = src) {r : RtEntry}
    (hr : noted s src src = some r) (hsame : SameLink r (t.rt p))
    (hack : (t.timer (.ackTimer p)).used = awaitsAck s src) (now : Timeval) :
    Notes s src (neighborRefresh e t p now) := by
  obtain ⟨hrefresh, hrt⟩ := touches_refresh (e := e) ht.sound.wellFormed hp now
  have hleaves (q : Ptr) : ((neighborRefresh e t p now).timer (.ackTimer q)).used =
      (t.timer (.ackTimer q)).used := by
    rw [neighborRefresh]
    split
    · exact congrArg Timer.used (Leaves.helloUpdate (aside_ack q) t p now _).timer
    · rfl
  rw [hd] at hrefresh
  refine notes_touched hs (ht.trans hrefresh) (fun q hq => ?_) ?_
  · obtain ⟨hl, hdest, hused⟩ := hkeep q hq
    obtain ⟨hlinked, heard, hsame⟩ := hrt q
    refine ⟨hlinked.2 hl, ?_, (hleaves q).trans hused⟩
    rw [hsame]
    exact hdest
  · obtain ⟨hlinked, heard, hself⟩ := hrt p
    refine ⟨p, r, hlinked.2 hp, ?_, hr, ?_, (hleaves p).trans hack⟩
    · rw [hself]
      exact hd
    · rw [hself]
      exact ⟨hsame.state, hsame.nextHop, hsame.hopcnt, hsame.destSeqno, hsame.unidir,
        hsame.helloCnt⟩

theorem acks_insert (e : Env) (hs : WellFormed s) (ha : Absent d s) (next : Addr)
    (hops seqno lifetime : U32) (state : RtState) (flags : RtFlags) :
    (∀ q, Linked s.rtTbl q → Leaves (.ackTimer q) s.timers
      (rtTableInsert e s d next hops seqno lifetime state flags).1.timers) ∧
      ((rtTableInsert e s d next hops seqno lifetime state flags).1.timer (.ackTimer s.brk)).used =
        false := by
  let s₁ := s.observe (.rtInsert d next hops seqno lifetime state flags)
  let r := newEntry d next hops seqno state flags
  obtain hno | ⟨-, hins⟩ := rtTableInsert_cases e s d next hops seqno lifetime state flags
  · obtain ⟨s₂, heq⟩ := insert_absent (e := e) ha next hops seqno lifetime state flags
    rw [hno] at heq
    cases heq
  rw [hins]
  refine ⟨fun q hq => ?_, ?_⟩
  · have hne : TimerId.ackTimer q ≠ .ackTimer s₁.brk := by
      rintro ⟨⟩
      exact hs.brk_not_linked hq
    exact (Leaves.linkEntry (aside_ack q) s₁ r hne).trans
      (.insertEntry (aside_ack q) s₁ r hops lifetime)
  · have hlater := (Leaves.insertEntry (e := e) (aside_ack s₁.brk) s₁ r hops lifetime).timer
    exact congrArg Timer.used (hlater.trans ((set_timer_ne _ (by simp) _).trans (set_timer_self _ _ _)))

theorem insert_present (e : Env) (hs : WellFormed s) (hp : Linked s.rtTbl p) (next : Addr)
    (hops seqno lifetime : U32) (state : RtState) (flags : RtFlags) :
    rtTableInsert e s (s.rt p).destAddr next hops seqno lifetime state flags = (s, none) := by
  obtain h | ⟨hno, -⟩ := rtTableInsert_cases e s (s.rt p).destAddr next hops seqno lifetime state flags
  · exact h
  · obtain ⟨i, hi⟩ := hp
    have hbucket : hashing (s.rt p).destAddr = i := (hs.table.bucket i p hi).1
    rw [← hbucket] at hi
    exact absurd rfl (hno p hi)

theorem notes_neighborAdd (e : Env) (hs : WellFormed s) (src : Addr) :
    Notes s src (neighborAdd e s src) := by
  have htock : Touches src s s.tock := .kept hs (.tock s) (.tock s) rfl fun _ _ => rfl
  have hs' := htock.sound.wellFormed
  -- an entry that neighbor_add finds, or would find, and leaves alone
  have hidle (p : Ptr) (hp : Linked s.rtTbl p) (hd : (s.rt p).destAddr = src)
      (hno : ¬ (rtTableCheck s.rtTbl src = some p ∧ (s.rt p).flags.unidir = false)) :
      Notes s src s.tock := by
    refine notes_touched hs htock (fun q hq => ⟨hq, rfl, rfl⟩) ⟨p, s.rt p, hp, hd, ?_, .refl _, ?_⟩
    · rw [noted, (entryOf_eq_some hs).2 ⟨hp, hd⟩]
      exact if_neg hno
    · rw [← hd, awaitsAck_linked hs hp]
      rfl
  rw [neighborAdd]
  dsimp only
  cases hc : rtTableCheck s.tock.rtTbl src with
  | none =>
      by_cases habsent : Absent src s
      · obtain ⟨s₁, heq, hins, hl, hnew, hold⟩ := touches_insert (e := e) hs' habsent src 1 0
          (u32 activeRouteTimeout) .zero
        have hacks := acks_insert e hs' habsent src 1 0 (u32 activeRouteTimeout) .valid .zero
        have hentry := entryOf_absent habsent
        rw [heq] at hacks ⊢
        refine notes_refreshed hs (htock.trans hins) (fun q hq => ?_) hl ?_
          (r := newEntry src src 1 0 .valid .zero) ?_ ?_ ?_ _
        · refine ⟨(hold q hq).1, ?_, congrArg Timer.used (hacks.1 q hq).timer⟩
          rw [(hold q hq).2]
          rfl
        · rw [hnew]
          rfl
        · rw [noted, hentry]
          exact if_pos rfl
        · rw [hnew]
          exact .refl _
        · rw [awaitsAck, hentry]
          exact hacks.2
      · obtain ⟨p, hp, hd⟩ : ∃ p, Linked s.rtTbl p ∧ (s.rt p).destAddr = src := by
          simpa [Absent] using habsent
        have hpresent := insert_present e hs' hp src 1 0 (u32 activeRouteTimeout) .valid .zero
        replace hc : rtTableCheck s.rtTbl src = none := hc
        change rtTableInsert e s.tock (s.rt p).destAddr _ _ _ _ _ _ = _ at hpresent
        rw [hd] at hpresent
        rw [hpresent]
        refine hidle p hp hd fun h => ?_
        rw [hc] at h
        cases h.1
  | some p =>
      obtain ⟨hl, hd⟩ := rtTableCheck_some hc
      dsimp only
      split
      next hu =>
        refine hidle p hl hd fun h => ?_
        exact Bool.noConfusion (h.2.symm.trans hu)
      next hu =>
        have hun : (s.rt p).flags.unidir = false := Bool.eq_false_iff.2 hu
        obtain ⟨hup, hl', hroute⟩ := touches_update (e := e) hs' hl src 1 (s.tock.rt p).destSeqno
          (u32 activeRouteTimeout) (s.tock.rt p).flags (by simp)
        have hkeys := keys_update (e := e) (s := s.tock) hl src 1 (s.tock.rt p).destSeqno
          (u32 activeRouteTimeout) .valid (s.tock.rt p).flags
        have hflags := flags_update e s.tock p src 1 (s.tock.rt p).destSeqno
          (u32 activeRouteTimeout) .valid (s.tock.rt p).flags
        have hcount := helloCnt_update e hs' hl src 1 (s.tock.rt p).destSeqno
          (u32 activeRouteTimeout) .valid (s.tock.rt p).flags (by simp)
        have hacks (q : Ptr) : Leaves (.ackTimer q) s.timers (rtTableUpdate e s.tock p src 1
            (s.tock.rt p).destSeqno (u32 activeRouteTimeout) .valid (s.tock.rt p).flags).timers :=
          leaves_update (s := s.tock) hs' hl src 1 _ _ .valid _ (.inl (by simp))
        replace hd : (s.rt p).destAddr = src := hd
        have hsrc : (s.tock.rt p).destAddr = src := hd
        rw [hsrc] at hup
        have hentry : entryOf s src = some p := (entryOf_eq_some hs).2 ⟨hl, hd⟩
        refine notes_refreshed hs (htock.trans hup) (fun q hq => ?_) hl' (hroute.dest.trans hd)
          (r := { s.rt p with state := .valid, nextHop := src, hopcnt := 1 }) ?_ ?_ ?_ _
        · exact ⟨(hkeys.linked q).2 hq, hkeys.destAddr q, congrArg Timer.used (hacks q).timer⟩
        · rw [noted, hentry]
          exact if_pos ⟨hc, hun⟩
        · exact ⟨hroute.state, hroute.next, hroute.hops, hroute.seqno, hflags, hcount⟩
        · rw [awaitsAck, hentry]
          exact congrArg Timer.used (hacks p).timer

end Noted

end Aodv.Heard
