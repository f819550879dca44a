import Aodv.Answers
import Aodv.HashTable

namespace Aodv.Requests

open Lib.Bytes Lib.Serial Relation

def Updated (p : Ptr) (seqno : U32) (s s' : Daemon) : Prop :=
  ∃ old next hops lifetime state flags,
    .rtUpdate p old next hops seqno lifetime state flags ∈ since s s'

def isUpdate : Obs → Bool
  | .rtUpdate .. => true
  | _ => false

section History

variable {e : Env} {ev : Event} {s s' : Daemon} {p : Ptr} {seqno : U32}

theorem not_updated (h : Said (fun o => isUpdate o = false) s s') : ¬ Updated p seqno s s' := by
  obtain ⟨l, hl, ho⟩ := h
  rintro ⟨old, next, hops, lifetime, state, flags, hm⟩
  rw [since_eq hl] at hm
  cases ho _ hm

theorem updated_of {old : RtEntry} {next : Addr} {hops lifetime : U32} {state : RtState}
    {flags : RtFlags} {tr : List Obs}
    (h : .rtUpdate p old next hops seqno lifetime state flags :: tr <:+ s'.trace)
    (hs : s.trace <:+ tr) : Updated p seqno s s' := by
  obtain ⟨l, hl⟩ := h
  obtain ⟨l', hl'⟩ := hs
  refine ⟨old, next, hops, lifetime, state, flags, ?_⟩
  have htrace : s'.trace = (l ++ .rtUpdate p old next hops seqno lifetime state flags :: l') ++
      s.trace := by
    rw [← hl, ← hl', List.append_assoc]
    rfl
  rw [since_eq htrace]
  exact List.mem_append_right l List.mem_cons_self

theorem still_lb {o : Obs} (h : LbObs o) : isUpdate o = false := by
  cases h with
  | route h => cases h <;> rfl
  | rerr => rfl

theorem still_quiet {a : Arch} {tr : List Obs} {o : Obs} (h : QuietObs a tr o) :
    isUpdate o = false := by
  cases h with
  | lb h => exact still_lb h
  | rrep | rrepAck | queued | rerrSeqno | unidirBreak | answer => rfl

theorem still_quiets (ev : Event) (h : ReflTransGen (Quiet e ev) s s') (hs : WellFormed s) :
    Said (fun o => isUpdate o = false) s s' := by
  induction h with
  | refl => exact .same rfl
  | tail h' h ih =>
      exact ih.trans ((quiet_said h (quiets_sound h' hs).wellFormed).mono fun _ => still_quiet)

theorem update_trace (hp : Linked s.rtTbl p) (next : Addr) (hops seqno lifetime : U32) (state : RtState)
    (flags : RtFlags) : .rtUpdate p (s.rt p) next hops seqno lifetime state flags :: s.trace <:+
      (rtTableUpdate e s p next hops seqno lifetime state flags).trace :=
  (update_said e hp next hops seqno lifetime state flags).suffix

end History

/-- The RREQ passes the checks of rreq_process. -/
structure Accepts (s : Daemon) (pkt : Packet) : Prop where
  type : pkt.buf 0 = aodvRreq
  foreign : (rreqOf pkt.buf).origAddr ≠ s.host.ipaddr
  length : rreqSize ≤ pkt.len
  blacklist : rreqBlacklistCheck s pkt.src = none
  new : rreqRecordCheck s (rreqOf pkt.buf).origAddr (rreqOf pkt.buf).rreqId = none

def recorded (e : Env) (s : Daemon) (pkt : Packet) : Daemon :=
  rreqRecordInsert e (s.observe (.rreqAccepted (rreqOf pkt.buf) pkt.src)) (rreqOf pkt.buf).origAddr
    (rreqOf pkt.buf).rreqId

def rest (e : Env) (s : Daemon) (pkt : Packet) (rev : Ptr) (ttl : Int) : Daemon :=
  if (rreqOf pkt.buf).destAddr = s.host.ipaddr then rreqForUs e s (rreqOf pkt.buf) rev
  else rreqRoute e s pkt.buf pkt.len (rreqOf pkt.buf) rev ttl

section Rreqs

variable {e : Env} {s s' : Daemon} {pkt : Packet} {p rev : Ptr}

theorem process_accepted (h : Accepts s pkt) (ttl : Int) :
    rreqProcess e s pkt.buf pkt.len pkt.src ttl =
      match rreqReverse e (recorded e s pkt) (rreqOf pkt.buf) pkt.src with
      | (s, none) => rreqUnrouted e s pkt.buf pkt.len (rreqOf pkt.buf) ttl
      | (s, some rev) => rest e s pkt rev ttl := by
  have hlen : ¬ pkt.len < rreqSize := Nat.not_lt.2 h.length
  simp only [rreqProcess, if_neg h.foreign, if_neg hlen, h.blacklist, h.new]
  rfl

theorem calls_accepted (h : Accepts s pkt) :
    rreqCalls e s pkt.buf pkt.len pkt.src =
      match rreqReverse e (recorded e s pkt) (rreqOf pkt.buf) pkt.src with
      | (_, none) => []
      | (s, some rev) => acceptedCalls e s (rreqOf pkt.buf) rev := by
  have hlen : ¬ pkt.len < rreqSize := Nat.not_lt.2 h.length
  simp only [rreqCalls, if_neg h.foreign, if_neg hlen, h.blacklist, h.new]
  rfl

theorem recorded_frame (h : Accepts s pkt) : (recorded e s pkt).rtTbl = s.rtTbl ∧
    (recorded e s pkt).host = s.host ∧
    (recorded e s pkt).trace = .rreqAccepted (rreqOf pkt.buf) pkt.src :: s.trace ∧
    ∀ n, ((recorded e s pkt).timer (.ackTimer n)).used = (s.timer (.ackTimer n)).used := by
  have hnew : rreqRecordCheck (s.observe (.rreqAccepted (rreqOf pkt.buf) pkt.src))
      (rreqOf pkt.buf).origAddr (rreqOf pkt.buf).rreqId = none := h.new
  rw [recorded, rreqRecordInsert, hnew]
  refine ⟨rfl, rfl, rfl, fun n => congrArg Timer.used ?_⟩
  refine (timer_timerSetTimeout_ne _ _ (by simp) _).trans ?_
  exact set_timer_ne s.timers (by simp) _

theorem wellFormed_recorded (e : Env) (pkt : Packet) (hs : WellFormed s) :
    WellFormed (recorded e s pkt) := by
  have hobs := (Kept.observe s (.rreqAccepted (rreqOf pkt.buf) pkt.src)).wellFormed hs
  exact (recordInsert_sound e hobs _ _).wellFormed

theorem still_rest (hs : WellFormed s) (hrev : Foreign s rev) (ht : pkt.buf 0 = aodvRreq)
    (hlen : rreqSize ≤ pkt.len) (hacc : .rreqAccepted (rreqOf pkt.buf) pkt.src ∈ s.trace) (ttl : Int) :
    Said (fun o => isUpdate o = false) s (rest e s pkt rev ttl) := by
  rw [rest]
  split
  · have hforUs : Coarse e (.recv pkt) s _ := .forUs rfl ht
    have hown := (coarse_sound hforUs hs).wellFormed
    have hsaid : Said (fun o => isUpdate o = false) s
        { s.observe (.rreqForUs s.host.seqno (rreqOf pkt.buf).destSeqno) with
          host := { s.host with seqno := ownSeqno s.host.seqno (rreqOf pkt.buf).destSeqno } } :=
      .one rfl rfl
    simp only [rreqForUs, rrepCreate_eq]
    refine hsaid.trans (still_quiets (.recv pkt)
      (quiets_reply hown ⟨hrev.linked, hrev.dest⟩ ?_ (.inl rfl)) hown)
    rintro f ⟨⟩
  next hne => exact still_quiets (.recv pkt) (quiets_route ttl hs ht hlen hacc hrev hne) hs

theorem rest_untouched (pkt : Packet) (hs : WellFormed s) (hp : Linked s.rtTbl p)
    (hv : (s.rt p).state = .valid) (ttl : Int) :
    (takesDown s (rreqOf pkt.buf) p ∧ ((rest e s pkt p ttl).rt p).state = .invalid) ∨
      (¬ takesDown s (rreqOf pkt.buf) p ∧ Untouched p s (rest e s pkt p ttl)) :=
  accepted_untouched hs hp hv pkt.buf pkt.len ttl

/-- Both fresher tests come down to the signed comparison when the numbers are
known and differ. -/
theorem rreqFresher_known {r : RtEntry} {seqno : U32} (hops : U32) (hr : r.destSeqno ≠ 0)
    (hne : r.destSeqno ≠ seqno) : rreqFresher r seqno hops = BitVec.slt r.destSeqno seqno := by
  rw [rreqFresher, decide_eq_false hr, decide_eq_false (Ne.symm hne), Bool.false_or, Bool.false_and,
    Bool.or_false]

theorem rrepFresher_known {r : RtEntry} {seqno : U32} (hops : U32) (hr : r.destSeqno ≠ 0)
    (hne : r.destSeqno ≠ seqno) : rrepFresher r seqno hops = BitVec.slt r.destSeqno seqno := by
  rw [rrepFresher, decide_eq_false hr, decide_eq_false (Ne.symm hne), Bool.false_or, Bool.false_and,
    Bool.or_false]

theorem reverse_known {m : RREQ} (src : Addr) (hp : rtTableCheck s.rtTbl m.origAddr = some p)
    (hr : (s.rt p).destSeqno ≠ 0) (hne : (s.rt p).destSeqno ≠ m.origSeqno) :
    rreqReverse e s m src =
      (if BitVec.slt (s.rt p).destSeqno m.origSeqno then
        rtTableUpdate e s p src (m.hopcnt.setWidth 32 + 1) m.origSeqno
          (rreqLife (m.hopcnt.setWidth 32 + 1)) .valid (s.rt p).flags
      else s, some p) := by
  rw [rreqReverse, hp]
  dsimp only
  rw [rreqFresher_known _ hr hne]
  split <;> rfl

theorem rreq_of_dest (hs : WellFormed s) (h : Accepts s pkt) (ttl : Int)
    (hp : rtTableCheck s.rtTbl (rreqOf pkt.buf).origAddr = some p) (hv : (s.rt p).state = .valid)
    (hr : (s.rt p).destSeqno ≠ 0) (hne : (s.rt p).destSeqno ≠ (rreqOf pkt.buf).origSeqno) :
    (Updated p (rreqOf pkt.buf).origSeqno s (rreqProcess e s pkt.buf pkt.len pkt.src ttl) ↔
        BitVec.slt (s.rt p).destSeqno (rreqOf pkt.buf).origSeqno = true) ∧
      (Untouched p s (rreqProcess e s pkt.buf pkt.len pkt.src ttl) ↔
        BitVec.slt (s.rt p).destSeqno (rreqOf pkt.buf).origSeqno = false ∧
          ¬ takesDown s (rreqOf pkt.buf) p) := by
  obtain ⟨htbl, hhost, htrace, hack⟩ := recorded_frame (e := e) h
  have hrt (q : Ptr) : (recorded e s pkt).rt q = s.rt q := by simp only [Daemon.rt, htbl]
  have hw := wellFormed_recorded e pkt hs
  have hp₁ : rtTableCheck (recorded e s pkt).rtTbl (rreqOf pkt.buf).origAddr = some p := by
    rw [htbl, hp]
  have hl : Linked (recorded e s pkt).rtTbl p := (rtTableCheck_some hp₁).1
  have hf : Foreign (recorded e s pkt) p := by
    refine ⟨hl, ?_⟩
    rw [Daemon.rt, (rtTableCheck_some hp₁).2, hhost]
    exact h.foreign
  have hmem : .rreqAccepted (rreqOf pkt.buf) pkt.src ∈ (recorded e s pkt).trace := by
    rw [htrace]
    exact List.mem_cons_self
  have hgrow : s.trace <:+ (recorded e s pkt).trace := by
    rw [htrace]
    exact List.suffix_cons _ _
  have hstart : Untouched p s (recorded e s pkt) := .of_rt (hrt p)
  rw [process_accepted h, reverse_known pkt.src hp₁ (by rwa [hrt]) (by rwa [hrt]), hrt]
  by_cases hlt : BitVec.slt (s.rt p).destSeqno (rreqOf pkt.buf).origSeqno = true
  · simp only [if_pos hlt]
    have hupdate := update_trace (e := e) hl pkt.src ((rreqOf pkt.buf).hopcnt.setWidth 32 + 1)
      (rreqOf pkt.buf).origSeqno (rreqLife ((rreqOf pkt.buf).hopcnt.setWidth 32 + 1)) .valid
      (s.rt p).flags
    have hw' := (update_sound e hw hl pkt.src ((rreqOf pkt.buf).hopcnt.setWidth 32 + 1)
      (rreqOf pkt.buf).origSeqno (rreqLife ((rreqOf pkt.buf).hopcnt.setWidth 32 + 1)) .valid
      (s.rt p).flags).wellFormed
    have hf' := foreign_update e hf hl pkt.src ((rreqOf pkt.buf).hopcnt.setWidth 32 + 1)
      (rreqOf pkt.buf).origSeqno (rreqLife ((rreqOf pkt.buf).hopcnt.setWidth 32 + 1)) .valid
      (s.rt p).flags
    obtain ⟨-, -, hseqno, hstate⟩ := rt_update_self e (recorded e s pkt) p pkt.src
      ((rreqOf pkt.buf).hopcnt.setWidth 32 + 1) (rreqOf pkt.buf).origSeqno
      (rreqLife ((rreqOf pkt.buf).hopcnt.setWidth 32 + 1)) .valid (s.rt p).flags
    generalize rtTableUpdate e (recorded e s pkt) p pkt.src ((rreqOf pkt.buf).hopcnt.setWidth 32 + 1)
      (rreqOf pkt.buf).origSeqno (rreqLife ((rreqOf pkt.buf).hopcnt.setWidth 32 + 1)) .valid
      (s.rt p).flags = s₁ at hupdate hw' hf' hseqno hstate
    have hmem' : .rreqAccepted (rreqOf pkt.buf) pkt.src ∈ s₁.trace :=
      hupdate.subset (List.mem_cons_of_mem _ hmem)
    have hstill := still_rest (e := e) hw' hf' h.type h.length hmem' ttl
    refine ⟨iff_of_true (updated_of (hupdate.trans hstill.suffix) hgrow) hlt, iff_of_false ?_ ?_⟩
    · intro hu
      rcases rest_untouched (e := e) pkt hw' hf'.linked hstate ttl with ⟨-, hi⟩ | ⟨-, hu'⟩
      · rw [hu.valid hv] at hi
        cases hi
      · exact hne (hu.destSeqno.symm.trans (hu'.destSeqno.trans hseqno))
    · rw [hlt]
      rintro ⟨⟨⟩, _⟩
  · simp only [if_neg hlt]
    have hstill := still_rest (e := e) hw hf h.type h.length hmem ttl
    have hsaid : Said (fun o => isUpdate o = false) s (recorded e s pkt) := .one htrace rfl
    refine ⟨iff_of_false (not_updated (hsaid.trans hstill)) hlt, ?_⟩
    rw [Bool.not_eq_true] at hlt
    rw [hlt, eq_self_iff_true, true_and, ← takesDown_congr htbl hhost hack]
    rcases rest_untouched (e := e) pkt hw hl (by rwa [hrt]) ttl with ⟨hd, hi⟩ | ⟨hd, hu⟩
    · refine iff_of_false (fun hu => ?_) fun hno => hno hd
      rw [hu.valid hv] at hi
      cases hi
    · exact iff_of_true (hstart.trans hu) hd

end Rreqs

section Questions

variable {e : Env} {s s' : Daemon} {pkt : Packet} {m : RREQ} {p q rev : Ptr} {d : Addr}

def Unanswered (e : Env) (s : Daemon) (pkt : Packet) (p : Ptr) : Prop :=
  ∀ c ∈ rreqCalls e s pkt.buf pkt.len pkt.src, c.fwd ≠ some p

theorem check_iff {t : RoutingTable} {brk : Ptr} (h : TableWf t brk) :
    rtTableCheck t d = some p ↔ t.numEntries ≠ 0 ∧ Linked t p ∧ (t.rtMem p).destAddr = d := by
  constructor
  · intro hc
    refine ⟨?_, rtTableCheck_some hc⟩
    intro hzero
    rw [rtTableCheck, if_pos hzero] at hc
    cases hc
  · rintro ⟨hn, hp⟩
    have hfull : ¬ HashTable.Full t := fun hf => hn (HashTable.numEntries_full h hf)
    exact (HashTable.rtTableCheck_eq_some h hfull).2 hp

/-- Setting up the reverse route takes p away before the question is looked at:
the originator was the next hop of p and is no neighbour any more, or the new
entry is the one that makes the 32-bit counter of entries 0. -/
def loses (s : Daemon) (m : RREQ) (p : Ptr) : Prop :=
  match rtTableCheck s.rtTbl m.origAddr with
  | none => s.rtTbl.numEntries + 1 = 0
  | some q => rreqFresher (s.rt q) m.origSeqno (m.hopcnt.setWidth 32 + 1) = true ∧
      1 < m.hopcnt.setWidth 32 + (1 : U32) ∧ (s.rt q).hopcnt = 1 ∧ (s.rt p).nextHop = (s.rt q).destAddr

theorem accepted_answers (hd : m.destAddr ≠ s.host.ipaddr) :
    acceptedCalls e s m rev =
      match answersFrom s m with
      | none => []
      | some f => answerCalls e s.tock m rev f (e.clock s.tick) := by
  rw [acceptedCalls, if_neg hd]
  cases hc : rtTableCheck s.rtTbl m.destAddr with
  | none =>
      have hno : answersFrom s m = none := by rw [answersFrom, hc]
      rw [hno]
  | some f =>
      dsimp only
      by_cases hyes : answersFrom s m = some f
      · obtain ⟨-, hv, hdf, hn, hle⟩ := answersFrom_some.1 hyes
        have hq : (s.tock.rt f).destSeqno ≠ 0 ∧ BitVec.sle m.destSeqno (s.tock.rt f).destSeqno = true :=
          ⟨hn, hle⟩
        rw [hyes, if_pos ⟨hv, hdf⟩, if_pos hq]
      · have hno : answersFrom s m = none := by
          cases ha : answersFrom s m with
          | none => rfl
          | some f' =>
              have hf := (answersFrom_some.1 ha).1
              rw [hc] at hf
              exact absurd (hf ▸ ha) hyes
        rw [hno]
        split
        next hv =>
          rw [if_neg]
          exact fun hq => hyes (answersFrom_some.2 ⟨hc, hv.1, hv.2, hq⟩)
        · rfl

/-- With the reverse route set up, an answer from p is the answer to the RREQ. -/
theorem answered_iff (hd : m.destAddr ≠ s.host.ipaddr) (hp : rtTableCheck s.rtTbl m.destAddr = some p) :
    (∀ c ∈ acceptedCalls e s m rev, c.fwd ≠ some p) ↔ answersFrom s m ≠ some p := by
  rw [accepted_answers hd]
  cases ha : answersFrom s m with
  | none =>
      refine iff_of_true (fun c hc => absurd hc List.not_mem_nil) ?_
      rintro ⟨⟩
  | some f =>
      have hf := (answersFrom_some.1 ha).1
      rw [hp] at hf
      cases hf
      refine iff_of_false (fun h => ?_) fun h => h rfl
      exact h _ List.mem_cons_self rfl

theorem update_other (hs : WellFormed s) (hq : Linked s.rtTbl q) (hp : Linked s.rtTbl p) (hne : p ≠ q)
    (next : Addr) (hops seqno lifetime : U32) (state : RtState) (flags : RtFlags) :
    ((1 < hops ∧ (s.rt q).hopcnt = 1 ∧ (s.rt p).nextHop = (s.rt q).destAddr) ∧
        ((rtTableUpdate e s q next hops seqno lifetime state flags).rt p).state = .invalid) ∨
      (¬ (1 < hops ∧ (s.rt q).hopcnt = 1 ∧ (s.rt p).nextHop = (s.rt q).destAddr) ∧
        (rtTableUpdate e s q next hops seqno lifetime state flags).rt p = s.rt p) := by
  by_cases hbreak : 1 < hops ∧ (s.rt q).hopcnt = 1
  · obtain ⟨s₁, f, -, -, hrt, -, hw, htbl, -, heq⟩ :=
      Aodv.update_parts e hs hq next hops seqno lifetime state flags
    let r : RtEntry := { s₁.rt q with lastHelloTime := ⟨0, 0⟩, helloCnt := 0 }
    let s₂ := pop (s₁.setRt q r) (.helloTimer q)
    have hset : Kept s₁ (s₁.setRt q r) := Kept.setRt s₁ q _ rfl rfl
    have hw₂ : WellFormed s₂ := (hset.trans (kept_pop (.helloTimer q))).wellFormed hw
    have hp₂ : Linked s₂.rtTbl p := by
      obtain ⟨i, hi⟩ := hp
      rw [← htbl] at hi
      exact ⟨i, hi⟩
    have hq₂ : Linked s₂.rtTbl q := by
      obtain ⟨i, hi⟩ := hq
      rw [← htbl] at hi
      exact ⟨i, hi⟩
    have hpr : s₂.rt p = s.rt p := (rt_setRt_ne s₁ r hne).trans (congrFun hrt p)
    have hqd : (s₂.rt q).destAddr = (s.rt q).destAddr :=
      (congrArg RtEntry.destAddr (rt_setRt_self s₁ q r)).trans (congrFun hrt q ▸ rfl)
    have hqh : (s₂.rt q).hopcnt = 1 :=
      (congrArg RtEntry.hopcnt (rt_setRt_self s₁ q r)).trans
        (Eq.trans (congrFun hrt q ▸ rfl) hbreak.2)
    have hstep : updateBreak e s₁ q hops = neighborLinkBreak e s₂ q := by
      rw [← hrt] at hbreak
      exact if_pos hbreak
    have hfinish : (rtTableUpdate e s q next hops seqno lifetime state flags).rt p =
        (neighborLinkBreak e s₂ q).rt p := by
      rw [heq, rt_updateFinish, if_neg hne, hstep]
    by_cases huse : (s.rt p).nextHop = (s.rt q).destAddr
    · left
      refine ⟨⟨hbreak.1, hbreak.2, huse⟩, ?_⟩
      rw [hfinish]
      apply linkBreak_takes_down hw₂ hq₂ hqh hp₂
      rw [hpr, hqd]
      exact .inl huse
    · right
      refine ⟨fun h => huse h.2.2, ?_⟩
      rw [hfinish, linkBreak_spares hw₂ hq₂ hne, hpr]
      rw [hpr, hqd]
      exact huse
  · right
    refine ⟨fun h => hbreak ⟨h.1, h.2.1⟩, ?_⟩
    exact HashTable.rt_update_ne hs hq next hops seqno lifetime state flags hbreak hne

theorem insert_other (hs : WellFormed s) {dest : Addr} (hp : rtTableCheck s.rtTbl d = some p)
    (hnew : rtTableCheck s.rtTbl dest = none) (next : Addr)
    (hops seqno lifetime : U32) (state : RtState) (flags : RtFlags) :
    ∃ s', rtTableInsert e s dest next hops seqno lifetime state flags = (s', some s.brk) ∧
      s'.host.ipaddr = s.host.ipaddr ∧
      ((s.rtTbl.numEntries + 1 = 0 ∧ rtTableCheck s'.rtTbl d = none) ∨
        (s.rtTbl.numEntries + 1 ≠ 0 ∧ rtTableCheck s'.rtTbl d = some p ∧ s'.rt p = s.rt p)) := by
  obtain ⟨hn, hl, hdp⟩ := (check_iff hs.table).1 hp
  have habsent : Absent dest s := by
    intro q hq hqd
    rw [(check_iff hs.table).2 ⟨hn, hq, hqd⟩] at hnew
    cases hnew
  obtain ⟨s', heq⟩ := insert_absent (e := e) habsent next hops seqno lifetime state flags
  have hsound := insert_sound e hs dest next hops seqno lifetime state flags
  obtain hno | ⟨-, s₁, hkept, hs₁⟩ := insert_kept e s dest next hops seqno lifetime state flags
  · rw [heq] at hno
    cases hno
  obtain hno | ⟨-, hcase⟩ := rtTableInsert_cases e s dest next hops seqno lifetime state flags
  · rw [heq] at hno
    cases hno
  rw [heq] at hsound hs₁ hcase
  have hcount : s'.rtTbl.numEntries = s.rtTbl.numEntries + 1 := by
    rw [(Prod.mk.inj hs₁).1, tbl_routeFound, hkept.keys.numEntries]
    rfl
  have hne : p ≠ s.brk := Nat.ne_of_lt (hs.table.below p hl)
  have hrt : s'.rt p = s.rt p := by
    rw [(Prod.mk.inj hcase).1, rt_insertEntry]
    exact rt_linkEntry_ne (s.observe (.rtInsert dest next hops seqno lifetime state flags)) _ hne
  have hl' : Linked s'.rtTbl p := by
    rw [(Prod.mk.inj hcase).1]
    exact (linked_insertEntry e _ _ hops lifetime p).2 (.inr hl)
  refine ⟨s', heq, hsound.ipaddr, ?_⟩
  by_cases hz : s.rtTbl.numEntries + 1 = 0
  · left
    refine ⟨hz, ?_⟩
    rw [rtTableCheck, if_pos (hcount.trans hz)]
  · right
    refine ⟨hz, (check_iff hsound.wellFormed.table).2 ⟨?_, hl', ?_⟩, hrt⟩
    · rw [hcount]
      exact hz
    · exact (congrArg RtEntry.destAddr hrt).trans hdp

theorem reverse_some (hs : WellFormed s) (hfull : ¬ HashTable.Full s.rtTbl) (m : RREQ) (src : Addr) :
    ∃ s' rev, rreqReverse e s m src = (s', some rev) := by
  rw [rreqReverse]
  dsimp only
  cases hc : rtTableCheck s.rtTbl m.origAddr with
  | none =>
      have habsent : Absent m.origAddr s := by
        intro q hq hd
        rw [(HashTable.rtTableCheck_eq_some hs.table hfull).2 ⟨hq, hd⟩] at hc
        cases hc
      obtain ⟨s', heq⟩ := insert_absent (e := e) habsent src (m.hopcnt.setWidth 32 + 1) m.origSeqno
        (rreqLife (m.hopcnt.setWidth 32 + 1)) .valid .zero
      exact ⟨s', s.brk, heq⟩
  | some p =>
      dsimp only
      split
      · exact ⟨_, p, rfl⟩
      · exact ⟨s, p, rfl⟩

/-- The RREQ is of the destination it asks for, and brings it a number that the
entry takes over. -/
def bringsOwn (s : Daemon) (m : RREQ) (p : Ptr) : Prop :=
  m.origAddr = m.destAddr ∧ rreqFresher (s.rt p) m.origSeqno (m.hopcnt.setWidth 32 + 1) = true

theorem reverse_other (hs : WellFormed s) (hp : rtTableCheck s.rtTbl d = some p)
    (hd : m.origAddr ≠ d) (src : Addr) :
    ∃ s' rev, rreqReverse e s m src = (s', some rev) ∧ s'.host.ipaddr = s.host.ipaddr ∧
      ((loses s m p ∧ (rtTableCheck s'.rtTbl d = none ∨
          rtTableCheck s'.rtTbl d = some p ∧ (s'.rt p).state = .invalid)) ∨
        (¬ loses s m p ∧ rtTableCheck s'.rtTbl d = some p ∧ s'.rt p = s.rt p)) := by
  obtain ⟨hl, hdp⟩ := rtTableCheck_some hp
  rw [rreqReverse, loses]
  dsimp only
  cases hq : rtTableCheck s.rtTbl m.origAddr with
  | none =>
      obtain ⟨s', heq, hip, hcase⟩ := insert_other (e := e) hs hp hq src
        (m.hopcnt.setWidth 32 + 1) m.origSeqno (rreqLife (m.hopcnt.setWidth 32 + 1)) .valid .zero
      exact ⟨s', s.brk, heq, hip, hcase.imp (fun h => ⟨h.1, .inl h.2⟩) id⟩
  | some q =>
      obtain ⟨hlq, hdq⟩ := rtTableCheck_some hq
      have hne : p ≠ q := by
        rintro rfl
        exact hd (hdq.symm.trans hdp)
      dsimp only
      by_cases hfresh : rreqFresher (s.rt q) m.origSeqno (m.hopcnt.setWidth 32 + 1) = true
      · have hsound := update_sound e hs hlq src (m.hopcnt.setWidth 32 + 1) m.origSeqno
          (rreqLife (m.hopcnt.setWidth 32 + 1)) .valid (s.rt q).flags
        have hkeys := HashTable.keys_update (e := e) hlq src (m.hopcnt.setWidth 32 + 1) m.origSeqno
          (rreqLife (m.hopcnt.setWidth 32 + 1)) .valid (s.rt q).flags
        have hother := update_other (e := e) hs hlq hl hne src (m.hopcnt.setWidth 32 + 1) m.origSeqno
          (rreqLife (m.hopcnt.setWidth 32 + 1)) .valid (s.rt q).flags
        have hcheck := (hkeys.rtTableCheck d).trans hp
        rw [if_pos hfresh]
        refine ⟨_, q, rfl, hsound.ipaddr, hother.imp (fun h => ⟨⟨hfresh, h.1⟩, .inr ⟨hcheck, h.2⟩⟩)
          fun h => ⟨fun hloses => h.1 hloses.2, hcheck, h.2⟩⟩
      · rw [if_neg hfresh]
        exact ⟨s, q, rfl, rfl, .inr ⟨fun hloses => hfresh hloses.1, hp, rfl⟩⟩

theorem reverse_own (hs : WellFormed s) (hp : rtTableCheck s.rtTbl m.origAddr = some p)
    (hv : (s.rt p).state = .valid) (src : Addr) :
    ∃ s', rreqReverse e s m src = (s', some p) ∧ s'.host.ipaddr = s.host.ipaddr ∧
      rtTableCheck s'.rtTbl m.origAddr = some p ∧ (s'.rt p).state = .valid ∧
      (s'.rt p).destSeqno =
        if rreqFresher (s.rt p) m.origSeqno (m.hopcnt.setWidth 32 + 1) then m.origSeqno
        else (s.rt p).destSeqno := by
  obtain ⟨hl, -⟩ := rtTableCheck_some hp
  rw [rreqReverse, hp]
  dsimp only
  split
  · have hsound := update_sound e hs hl src (m.hopcnt.setWidth 32 + 1) m.origSeqno
      (rreqLife (m.hopcnt.setWidth 32 + 1)) .valid (s.rt p).flags
    have hkeys := HashTable.keys_update (e := e) hl src (m.hopcnt.setWidth 32 + 1) m.origSeqno
      (rreqLife (m.hopcnt.setWidth 32 + 1)) .valid (s.rt p).flags
    obtain ⟨-, -, hseqno, hstate⟩ := rt_update_self e s p src (m.hopcnt.setWidth 32 + 1) m.origSeqno
      (rreqLife (m.hopcnt.setWidth 32 + 1)) .valid (s.rt p).flags
    exact ⟨_, rfl, hsound.ipaddr, (hkeys.rtTableCheck m.origAddr).trans hp, hstate, hseqno⟩
  · exact ⟨s, rfl, rfl, hp, hv, rfl⟩

theorem answersFrom_ne (hp : rtTableCheck s.rtTbl m.destAddr = some p)
    (hv : (s.rt p).state = .valid) : answersFrom s m ≠ some p ↔
      m.d = true ∨ (s.rt p).destSeqno = 0 ∨ BitVec.slt (s.rt p).destSeqno m.destSeqno = true := by
  rw [Ne, answersFrom_some, BitVec.sle_eq_not_slt]
  simp only [hp, hv, true_and, not_and_or, Bool.not_eq_true', Bool.not_eq_false, ne_eq,
    Decidable.not_not]

theorem answersFrom_gone (h : rtTableCheck s.rtTbl m.destAddr = none ∨
    rtTableCheck s.rtTbl m.destAddr = some p ∧ (s.rt p).state = .invalid) :
    answersFrom s m = none := by
  cases ha : answersFrom s m with
  | none => rfl
  | some f =>
      obtain ⟨hcf, hvf, -⟩ := answersFrom_some.1 ha
      rcases h with hgone | ⟨hgone, hi⟩
      · rw [hgone] at hcf
        cases hcf
      · rw [hgone] at hcf
        cases hcf
        rw [hi] at hvf
        cases hvf

theorem rreq_for_dest (hs : WellFormed s) (h : Accepts s pkt)
    (hp : rtTableCheck s.rtTbl (rreqOf pkt.buf).destAddr = some p) (hv : (s.rt p).state = .valid)
    (hr : (s.rt p).destSeqno ≠ 0) :
    (bringsOwn s (rreqOf pkt.buf) p → (Unanswered e s pkt p ↔ (rreqOf pkt.buf).d = true ∨
        (rreqOf pkt.buf).origSeqno = 0 ∨
        BitVec.slt (rreqOf pkt.buf).origSeqno (rreqOf pkt.buf).destSeqno = true)) ∧
      (¬ bringsOwn s (rreqOf pkt.buf) p → (Unanswered e s pkt p ↔
        (rreqOf pkt.buf).destAddr = s.host.ipaddr ∨ (rreqOf pkt.buf).d = true ∨
        loses s (rreqOf pkt.buf) p ∨
        BitVec.slt (s.rt p).destSeqno (rreqOf pkt.buf).destSeqno = true)) := by
  obtain ⟨htbl, hhost, -, -⟩ := recorded_frame (e := e) h
  have hrt (q : Ptr) : (recorded e s pkt).rt q = s.rt q := by simp only [Daemon.rt, htbl]
  have hw := wellFormed_recorded e pkt hs
  have hp₁ : rtTableCheck (recorded e s pkt).rtTbl (rreqOf pkt.buf).destAddr = some p := by
    rw [htbl, hp]
  have hloses : loses (recorded e s pkt) (rreqOf pkt.buf) p ↔ loses s (rreqOf pkt.buf) p := by
    simp only [loses, htbl, hrt]
  rw [Unanswered, calls_accepted h]
  by_cases horig : (rreqOf pkt.buf).origAddr = (rreqOf pkt.buf).destAddr
  · have hforeign := h.foreign
    obtain ⟨s', heq, hip, hp', hv', hseqno⟩ := reverse_own (e := e) (m := rreqOf pkt.buf) hw
      (by rw [horig, hp₁]) (by rwa [hrt]) pkt.src
    rw [horig] at hp' hforeign
    have hdest : (rreqOf pkt.buf).destAddr ≠ s'.host.ipaddr := by rwa [hip, hhost]
    rw [hrt] at hseqno
    rw [heq]
    dsimp only
    rw [answered_iff hdest hp', answersFrom_ne hp' hv', hseqno]
    refine ⟨fun hown => ?_, fun hown => ?_⟩
    · rw [if_pos hown.2]
    · have hold : ¬ rreqFresher (s.rt p) (rreqOf pkt.buf).origSeqno
          ((rreqOf pkt.buf).hopcnt.setWidth 32 + 1) = true := fun hf => hown ⟨horig, hf⟩
      have hno : ¬ loses s (rreqOf pkt.buf) p := by
        rw [loses, horig, hp]
        exact fun hl => hold hl.1
      rw [if_neg hold]
      simp only [hr, hforeign, hno, false_or]
  · refine ⟨fun hown => absurd hown.1 horig, fun _ => ?_⟩
    obtain ⟨s', rev, heq, hip, hcase⟩ := reverse_other (e := e) hw hp₁ horig pkt.src
    rw [hloses] at hcase
    rw [heq]
    dsimp only
    by_cases hdest : (rreqOf pkt.buf).destAddr = s'.host.ipaddr
    · refine iff_of_true (fun c hc => ?_) (.inl (by rw [hdest, hip, hhost]))
      rw [acceptedCalls, if_pos hdest] at hc
      rw [List.mem_singleton.1 hc]
      rintro ⟨⟩
    · have hother : (rreqOf pkt.buf).destAddr ≠ s.host.ipaddr := by rwa [hip, hhost] at hdest
      rcases hcase with ⟨hl, hgone⟩ | ⟨hl, hp', hsame⟩
      · refine iff_of_true (fun c hc hf => ?_) (.inr (.inr (.inl hl)))
        rw [accepted_answers hdest, answersFrom_gone hgone] at hc
        exact absurd hc List.not_mem_nil
      · rw [hrt] at hsame
        have hv' : (s'.rt p).state = .valid := by rwa [hsame]
        rw [answered_iff hdest hp', answersFrom_ne hp' hv', hsame]
        simp only [hr, hother, hl, false_or]

end Questions

section Rreps

variable {e : Env} {s s' : Daemon} {pkt : Packet} {p q rev : Ptr}

theorem untouched_askAck (rev : Ptr) (buf : Buf) :
    Untouched q s (rrepAskAck e s buf rev).1 := by
  rw [rrepAskAck]
  cases rrepAckNeighbor s rev with
  | none => exact .of_rt rfl
  | some n =>
      dsimp only
      split
      · exact .of_rt rfl
      · have hset := Untouched.setRt (p := q) s n
          (r := { s.rt n with flags := { (s.rt n).flags with unidir := true } }) rfl rfl rfl rfl
        exact ⟨hset.state, hset.nextHop, hset.hopcnt, hset.destSeqno⟩

theorem untouched_forward (buf : Buf) (len : Nat) (ttl : Int) :
    Untouched q s (rrepForward e s buf len rev p ttl) := by
  have hask := untouched_askAck (e := e) (s := s) (q := q) rev buf
  rw [rrepForward]
  generalize rrepAskAck e s buf rev = o at hask
  obtain ⟨s₁, buf₁⟩ := o
  dsimp only at hask ⊢
  have hend (t : Daemon) (addr addr' : Addr) : Untouched q t (rtTableUpdateTimeout e
      (precursorAdd (precursorAdd t p addr) rev addr') rev (u32 activeRouteTimeout)) := by
    refine ((Untouched.precursorAdd t p addr).trans (.precursorAdd _ rev addr')).trans (.of_rt ?_)
    rw [rt_updateTimeout]
  have hsend : Untouched q s (aodvSocketSend e
      { aodvSocketQueueMsg s₁ buf₁ len with
        sendBuf := store (aodvSocketQueueMsg s₁ buf₁ len).sendBuf 3 (s₁.rt p).hopcnt }
      (.queued (take (store buf₁ 3 (s₁.rt p).hopcnt) len)) (s₁.rt rev).nextHop len ttl) :=
    hask.trans (.of_rt rfl)
  exact hsend.trans (hend _ _ _)

theorem untouched_rrepRest (buf : Buf) (len : Nat) (rev : Option Ptr) (wasRepair : Bool)
    (wasHopcnt : U8) (ttl : Int) :
    Untouched q s (rrepRest e s buf len rev p wasRepair wasHopcnt ttl) := by
  unfold rrepRest
  dsimp only
  generalize (if (rrepOf buf).a then store buf 1 (buf 1 &&& ~~~(bit true 1)) else buf) = buf'
  have hack : Untouched q s (if (rrepOf buf).a then rrepAnswerAck e s p else s) := by
    split <;> exact .of_rt rfl
  generalize (if (rrepOf buf).a then rrepAnswerAck e s p else s) = s₁ at hack
  refine hack.trans ?_
  split
  · rw [rrepRepaired]
    split
    · dsimp only
      split <;> exact .of_rt rfl
    · exact .of_rt rfl
  · cases rev with
    | none => exact .of_rt rfl
    | some r =>
        dsimp only
        split
        · exact untouched_forward buf' len (ttl - 1)
        · exact .of_rt rfl

theorem rrep_about_dest (hs : WellFormed s) (ht : pkt.buf 0 = aodvRrep) (hlen : rrepSize ≤ pkt.len)
    (ttl : Int) (hp : rtTableCheck s.rtTbl (rrepOf pkt.buf).destAddr = some p)
    (hr : (s.rt p).destSeqno ≠ 0) (hne : (s.rt p).destSeqno ≠ (rrepOf pkt.buf).destSeqno) :
    (Updated p (rrepOf pkt.buf).destSeqno s (rrepProcess e s pkt.buf pkt.len pkt.src ttl) ↔
        (rrepOf pkt.buf).destAddr ≠ s.host.ipaddr ∧
          BitVec.slt (s.rt p).destSeqno (rrepOf pkt.buf).destSeqno = true) ∧
      (Untouched p s (rrepProcess e s pkt.buf pkt.len pkt.src ttl) ↔
        (rrepOf pkt.buf).destAddr = s.host.ipaddr ∨
          BitVec.slt (s.rt p).destSeqno (rrepOf pkt.buf).destSeqno = false) := by
  have hl := (rtTableCheck_some hp).1
  rw [rrepProcess_eq, if_neg (Nat.not_lt.2 hlen)]
  by_cases hown : (rrepOf pkt.buf).destAddr = s.host.ipaddr
  · rw [if_pos hown]
    refine ⟨iff_of_false (not_updated (.same rfl)) fun h => h.1 hown, ?_⟩
    exact iff_of_true (.of_rt rfl) (.inl hown)
  · rw [if_neg hown, rrepRoute, hp]
    dsimp only
    rw [rrepFresher_known _ hr hne]
    by_cases hlt : BitVec.slt (s.rt p).destSeqno (rrepOf pkt.buf).destSeqno = true
    · rw [if_pos hlt]
      dsimp only
      have hupdate := update_trace (e := e) hl pkt.src ((rrepOf pkt.buf).hopcnt.setWidth 32 + 1)
        (rrepOf pkt.buf).destSeqno (rrepOf pkt.buf).lifetime .valid (s.rt p).flags
      have hw' := (update_sound e hs hl pkt.src ((rrepOf pkt.buf).hopcnt.setWidth 32 + 1)
        (rrepOf pkt.buf).destSeqno (rrepOf pkt.buf).lifetime .valid (s.rt p).flags).wellFormed
      have hlinked (k : Ptr) := linked_update e hl pkt.src ((rrepOf pkt.buf).hopcnt.setWidth 32 + 1)
        (rrepOf pkt.buf).destSeqno (rrepOf pkt.buf).lifetime .valid (s.rt p).flags k
      have hforeign := foreign_update e ⟨hl, fun h => hown ((rtTableCheck_some hp).2.symm.trans h)⟩
        hl pkt.src ((rrepOf pkt.buf).hopcnt.setWidth 32 + 1) (rrepOf pkt.buf).destSeqno
        (rrepOf pkt.buf).lifetime .valid (s.rt p).flags
      have hdest := dest_update e hl pkt.src ((rrepOf pkt.buf).hopcnt.setWidth 32 + 1)
        (rrepOf pkt.buf).destSeqno (rrepOf pkt.buf).lifetime .valid (s.rt p).flags
      obtain ⟨-, -, hseqno, -⟩ := rt_update_self e s p pkt.src
        ((rrepOf pkt.buf).hopcnt.setWidth 32 + 1) (rrepOf pkt.buf).destSeqno
        (rrepOf pkt.buf).lifetime .valid (s.rt p).flags
      generalize rtTableUpdate e s p pkt.src ((rrepOf pkt.buf).hopcnt.setWidth 32 + 1)
        (rrepOf pkt.buf).destSeqno (rrepOf pkt.buf).lifetime .valid (s.rt p).flags = s₁
        at hupdate hw' hlinked hforeign hdest hseqno
      have hquiets := quiets_rrepRest (e := e)
        (s.rt p).flags.repair (s.rt p).hopcnt ttl rfl ht hlen hforeign fun r hrev =>
          ⟨(hlinked r).2 (rtTableCheck_some hrev).1, (hdest r).trans (rtTableCheck_some hrev).2⟩
      have hgrow := (still_quiets (.recv pkt) hquiets hw').suffix
      have hrest := untouched_rrepRest (e := e) (s := s₁) (p := p) (q := p) pkt.buf pkt.len
        (rtTableCheck s.rtTbl (rrepOf pkt.buf).origAddr) (s.rt p).flags.repair (s.rt p).hopcnt ttl
      refine ⟨iff_of_true (updated_of (hupdate.trans hgrow) (List.suffix_refl _)) ⟨hown, hlt⟩,
        iff_of_false (fun hu => ?_) ?_⟩
      · exact hne (hu.destSeqno.symm.trans (hrest.destSeqno.trans hseqno))
      · rw [hlt]
        rintro (h | ⟨⟨⟩⟩)
        exact hown h
    · rw [if_neg hlt]
      refine ⟨iff_of_false (not_updated (.same rfl)) fun h => hlt h.2, ?_⟩
      exact iff_of_true (.of_rt rfl) (.inr (by rwa [← Bool.not_eq_true]))

end Rreps

section Rerrs

variable {e : Env} {s : Daemon} {b : RerrBuild} {p : Ptr} {src d : Addr} {seqno : U32}
  {nodelete : Bool}

structure Obeyed (nodelete : Bool) (p : Ptr) (seqno : U32) (s : Daemon) : Prop where
  destSeqno : (s.rt p).destSeqno = seqno
  state : nodelete = false → (s.rt p).state = .invalid

theorem untouched_report (nodelete : Bool) (q : Ptr) :
    Untouched p b.s (rerrReport b nodelete q).s := by
  rw [rerrReport]
  have hlist : Untouched p b.s (if (b.s.rt q).nprecursor ≠ 0 ∧ (b.s.rt q).flags.repair = false then
      rerrList b nodelete q else b).s := by
    split
    · exact .of_rt (by rw [rt_rerrList])
    · exact .of_rt rfl
  generalize (if (b.s.rt q).nprecursor ≠ 0 ∧ (b.s.rt q).flags.repair = false then
    rerrList b nodelete q else b) = b₁ at hlist
  split
  · refine hlist.trans ?_
    rw [precursorListDestroy]
    exact .setRt b₁.s q rfl rfl rfl rfl
  · exact hlist

theorem untouched_step (nodelete : Bool) {u : Addr × U32} (h : rerrHits b.s src u ≠ some p) :
    Untouched p b.s (rerrStep e nodelete src b u).s := by
  rw [rerrStep]
  cases hit : rerrHits b.s src u with
  | none => exact .of_rt rfl
  | some q =>
      have hne : p ≠ q := by
        rintro rfl
        exact h hit
      dsimp only
      have hdown : (if nodelete then b.s else rtTableInvalidate e b.s q).rt p = b.s.rt p := by
        split
        · rfl
        · exact rt_invalidate_ne e b.s hne
      generalize (if nodelete then b.s else rtTableInvalidate e b.s q) = s₁ at hdown
      refine Untouched.trans (.of_rt ?_) (untouched_report nodelete q)
      exact (rt_setRt_ne _ _ hne).trans hdown

theorem obeyed_step (h : rerrHits b.s src (d, seqno) = some p) :
    Obeyed nodelete p seqno (rerrStep e nodelete src b (d, seqno)).s := by
  rw [rerrStep, h]
  dsimp only
  have hdown : nodelete = false →
      ((if nodelete then b.s else rtTableInvalidate e b.s p).rt p).state = .invalid := by
    rintro rfl
    exact state_invalidate e b.s p
  generalize (if nodelete then b.s else rtTableInvalidate e b.s p) = s₁ at hdown
  have hself := rt_setRt_self (s₁.observe (.rerrSeqno p (s₁.rt p) seqno)) p
    { s₁.rt p with destSeqno := seqno }
  let s₂ := (s₁.observe (.rerrSeqno p (s₁.rt p) seqno)).setRt p { s₁.rt p with destSeqno := seqno }
  have hreport := untouched_report (b := { b with s := s₂ }) (p := p) nodelete p
  refine ⟨hreport.destSeqno.trans (congrArg RtEntry.destSeqno hself), fun hn => ?_⟩
  exact (hreport.state.trans (congrArg RtEntry.state hself)).trans (hdown hn)

theorem hits_dest {u : Addr × U32} (h : rerrHits s src u = some p) : (s.rt p).destAddr = u.1 := by
  rw [rerrHits] at h
  cases hc : rtTableCheck s.rtTbl u.1 with
  | none =>
      rw [hc] at h
      cases h
  | some q =>
      rw [hc] at h
      dsimp only at h
      split at h
      · cases h
        exact (rtTableCheck_some hc).2
      · cases h

theorem hits_iff (hp : rtTableCheck s.rtTbl d = some p) : rerrHits s src (d, seqno) = some p ↔
    (s.rt p).state = .valid ∧ (s.rt p).nextHop = src ∧
      BitVec.slt seqno (s.rt p).destSeqno = false := by
  rw [rerrHits, hp]
  dsimp only
  split
  next h => exact iff_of_true rfl h
  next h => exact iff_of_false (by rintro ⟨⟩) h

theorem keys_report (q : Ptr) : SameKeys b.s.rtTbl (rerrReport b nodelete q).s.rtTbl := by
  rw [rerrReport]
  have hlist : (if (b.s.rt q).nprecursor ≠ 0 ∧ (b.s.rt q).flags.repair = false then
      rerrList b nodelete q else b).s.rtTbl = b.s.rtTbl := by
    split
    · rw [rerrList]
      cases b.rerr <;> rfl
    · rfl
  generalize (if (b.s.rt q).nprecursor ≠ 0 ∧ (b.s.rt q).flags.repair = false then
    rerrList b nodelete q else b) = b₁ at hlist
  rw [← hlist]
  split
  · exact (kept_precursorListDestroy b₁.s q).keys
  · exact .refl _

theorem keys_step (u : Addr × U32) :
    SameKeys b.s.rtTbl (rerrStep e nodelete src b u).s.rtTbl := by
  rw [rerrStep]
  cases hit : rerrHits b.s src u with
  | none => exact .refl _
  | some q =>
      dsimp only
      have hdown : SameKeys b.s.rtTbl (if nodelete then b.s else rtTableInvalidate e b.s q).rtTbl := by
        split
        · exact .refl _
        · exact (kept_invalidate e (rerrHits_some hit).1).keys
      generalize (if nodelete then b.s else rtTableInvalidate e b.s q) = s₁ at hdown
      have hset : Kept (s₁.observe (.rerrSeqno q (s₁.rt q) u.2))
          ((s₁.observe (.rerrSeqno q (s₁.rt q) u.2)).setRt q { s₁.rt q with destSeqno := u.2 }) :=
        Kept.setRt _ q _ rfl rfl
      exact (hdown.trans hset.keys).trans (keys_report (b := { b with
        s := (s₁.observe (.rerrSeqno q (s₁.rt q) u.2)).setRt q { s₁.rt q with destSeqno := u.2 } }) q)

theorem loop_ignored (l : List (Addr × U32)) (hl : ∀ u ∈ l, u.1 = d → u.2 = seqno)
    (hp : rtTableCheck b.s.rtTbl d = some p)
    (hlt : BitVec.slt seqno (b.s.rt p).destSeqno = true) :
    Untouched p b.s (l.foldl (rerrStep e nodelete src) b).s := by
  induction l generalizing b with
  | nil => exact .of_rt rfl
  | cons u l ih =>
      have hmiss : rerrHits b.s src u ≠ some p := by
        intro hit
        have hu : u.1 = d := (hits_dest hit).symm.trans (rtTableCheck_some hp).2
        have hud : u = (d, seqno) := Prod.ext hu (hl u List.mem_cons_self hu)
        rw [hud, hits_iff hp, hlt] at hit
        cases hit.2.2
      have hstep := untouched_step (e := e) nodelete hmiss
      rw [List.foldl_cons]
      refine hstep.trans (ih (fun v hv => hl v (List.mem_cons_of_mem u hv)) ?_ ?_)
      · rw [(keys_step u).rtTableCheck, hp]
      · rw [hstep.destSeqno, hlt]

theorem loop_keeps (l : List (Addr × U32)) (hl : ∀ u ∈ l, u.1 = d → u.2 = seqno)
    (hp : rtTableCheck b.s.rtTbl d = some p) (h : Obeyed nodelete p seqno b.s) :
    Obeyed nodelete p seqno (l.foldl (rerrStep e nodelete src) b).s := by
  induction l generalizing b with
  | nil => exact h
  | cons u l ih =>
      rw [List.foldl_cons]
      refine ih (fun v hv => hl v (List.mem_cons_of_mem u hv)) ?_ ?_
      · rw [(keys_step u).rtTableCheck, hp]
      · by_cases hit : rerrHits b.s src u = some p
        · have hu : u.1 = d := (hits_dest hit).symm.trans (rtTableCheck_some hp).2
          have hud : u = (d, seqno) := Prod.ext hu (hl u List.mem_cons_self hu)
          rw [hud] at hit ⊢
          exact obeyed_step hit
        · have hstep := untouched_step (e := e) nodelete hit
          exact ⟨hstep.destSeqno.trans h.destSeqno, fun hn => hstep.state.trans (h.state hn)⟩

theorem loop_obeyed (nodelete : Bool) (l : List (Addr × U32)) (hl : ∀ u ∈ l, u.1 = d → u.2 = seqno)
    (hmem : (d, seqno) ∈ l) (hp : rtTableCheck b.s.rtTbl d = some p)
    (hv : (b.s.rt p).state = .valid) (hnext : (b.s.rt p).nextHop = src)
    (hge : BitVec.slt seqno (b.s.rt p).destSeqno = false) :
    Obeyed nodelete p seqno (l.foldl (rerrStep e nodelete src) b).s := by
  induction l generalizing b with
  | nil => exact absurd hmem List.not_mem_nil
  | cons u l ih =>
      have hl' : ∀ v ∈ l, v.1 = d → v.2 = seqno := fun v hv => hl v (List.mem_cons_of_mem u hv)
      have hp' : rtTableCheck (rerrStep e nodelete src b u).s.rtTbl d = some p := by
        rw [(keys_step u).rtTableCheck, hp]
      rw [List.foldl_cons]
      by_cases hud : u = (d, seqno)
      · rw [hud] at hp' ⊢
        exact loop_keeps l hl' hp' (obeyed_step ((hits_iff hp).2 ⟨hv, hnext, hge⟩))
      · have hmiss : rerrHits b.s src u ≠ some p := by
          intro hit
          have hu : u.1 = d := (hits_dest hit).symm.trans (rtTableCheck_some hp).2
          exact hud (Prod.ext hu (hl u List.mem_cons_self hu))
        have hstep := untouched_step (e := e) nodelete hmiss
        apply ih hl' ((List.mem_cons.1 hmem).resolve_left fun h => hud h.symm) hp'
        · exact hstep.valid hv
        · rw [hstep.nextHop, hnext]
        · rw [hstep.destSeqno, hge]

theorem rerr_lists_dest {pkt : Packet} (hlen : rerrCalcSize (pkt.buf 3) ≤ pkt.len)
    (hp : rtTableCheck s.rtTbl d = some p) (hv : (s.rt p).state = .valid)
    (hnext : (s.rt p).nextHop = pkt.src) (hmem : (d, seqno) ∈ listed pkt.buf)
    (hl : ∀ u ∈ listed pkt.buf, u.1 = d → u.2 = seqno) (hne : (s.rt p).destSeqno ≠ seqno) :
    (Obeyed ((pkt.buf 1).getLsbD 0) p seqno (rerrProcess e s pkt.buf pkt.len pkt.src) ↔
        BitVec.slt seqno (s.rt p).destSeqno = false) ∧
      (Untouched p s (rerrProcess e s pkt.buf pkt.len pkt.src) ↔
        BitVec.slt seqno (s.rt p).destSeqno = true) := by
  have hloop : (rerrProcess e s pkt.buf pkt.len pkt.src).rt =
      ((listed pkt.buf).foldl (rerrStep e ((pkt.buf 1).getLsbD 0) pkt.src) ⟨s, none, 0⟩).s.rt := by
    rw [rerrProcess, if_neg (Int.not_lt.2 hlen)]
    exact funext (rt_rerrReply e _)
  have hdone {s₁ s₂ : Daemon} (hrt : s₁.rt = s₂.rt) : Untouched p s₂ s₁ := .of_rt (congrFun hrt p)
  cases hlt : BitVec.slt seqno (s.rt p).destSeqno with
  | false =>
      have hobeyed := loop_obeyed (e := e) (b := ⟨s, none, 0⟩) ((pkt.buf 1).getLsbD 0)
        (listed pkt.buf) hl hmem hp hv hnext hlt
      have hseqno : ((rerrProcess e s pkt.buf pkt.len pkt.src).rt p).destSeqno = seqno :=
        (hdone hloop).destSeqno.trans hobeyed.destSeqno
      refine ⟨iff_of_true ⟨hseqno, fun hn => ?_⟩ rfl, iff_of_false (fun hu => ?_) (by rintro ⟨⟩)⟩
      · exact (hdone hloop).state.trans (hobeyed.state hn)
      · exact hne (hu.destSeqno.symm.trans hseqno)
  | true =>
      have hignored : Untouched p s ((listed pkt.buf).foldl
          (rerrStep e ((pkt.buf 1).getLsbD 0) pkt.src) ⟨s, none, 0⟩).s :=
        loop_ignored (b := ⟨s, none, 0⟩) (listed pkt.buf) hl hp hlt
      have hsame := hignored.trans (hdone hloop)
      refine ⟨iff_of_false (fun ho => ?_) (by rintro ⟨⟩), iff_of_true hsame rfl⟩
      exact hne (hsame.destSeqno.symm.trans ho.destSeqno)

end Rerrs

/-- What a VALID entry p does with newer numbers for its destination. -/
structure ServesNewer (e : Env) (s : Daemon) (p : Ptr) : Prop where
  rreq : ∀ pkt ttl, Accepts s pkt → (rreqOf pkt.buf).origAddr = (s.rt p).destAddr →
    Newer (s.rt p).destSeqno (rreqOf pkt.buf).origSeqno →
    (Updated p (rreqOf pkt.buf).origSeqno s (rreqProcess e s pkt.buf pkt.len pkt.src ttl) ↔
      ¬ Straddles (s.rt p).destSeqno (rreqOf pkt.buf).origSeqno)
  rrep : ∀ (pkt : Packet) ttl, pkt.buf 0 = aodvRrep → rrepSize ≤ pkt.len →
    (rrepOf pkt.buf).destAddr = (s.rt p).destAddr →
    Newer (s.rt p).destSeqno (rrepOf pkt.buf).destSeqno →
    (Updated p (rrepOf pkt.buf).destSeqno s (rrepProcess e s pkt.buf pkt.len pkt.src ttl) ↔
      (s.rt p).destAddr ≠ s.host.ipaddr ∧
        ¬ Straddles (s.rt p).destSeqno (rrepOf pkt.buf).destSeqno)
  rerr : ∀ (pkt : Packet) seqno, rerrCalcSize (pkt.buf 3) ≤ pkt.len → (s.rt p).nextHop = pkt.src →
    ((s.rt p).destAddr, seqno) ∈ listed pkt.buf →
    (∀ u ∈ listed pkt.buf, u.1 = (s.rt p).destAddr → u.2 = seqno) →
    Newer (s.rt p).destSeqno seqno →
    (Obeyed ((pkt.buf 1).getLsbD 0) p seqno (rerrProcess e s pkt.buf pkt.len pkt.src) ↔
      ¬ Straddles (s.rt p).destSeqno seqno)
  asked : ∀ pkt, Accepts s pkt → (rreqOf pkt.buf).destAddr = (s.rt p).destAddr →
    Newer (s.rt p).destSeqno (rreqOf pkt.buf).destSeqno → ¬ bringsOwn s (rreqOf pkt.buf) p →
    (Unanswered e s pkt p ↔ (rreqOf pkt.buf).d = true ∨ loses s (rreqOf pkt.buf) p ∨
      (s.rt p).destAddr = s.host.ipaddr ∨
      ¬ Straddles (s.rt p).destSeqno (rreqOf pkt.buf).destSeqno)
  askedOwn : ∀ pkt, Accepts s pkt → (rreqOf pkt.buf).destAddr = (s.rt p).destAddr →
    bringsOwn s (rreqOf pkt.buf) p →
    (Unanswered e s pkt p ↔ (rreqOf pkt.buf).d = true ∨ (rreqOf pkt.buf).origSeqno = 0 ∨
      BitVec.slt (rreqOf pkt.buf).origSeqno (rreqOf pkt.buf).destSeqno = true)

structure IgnoresOlder (e : Env) (s : Daemon) (p : Ptr) : Prop where
  rreq : ∀ pkt ttl, Accepts s pkt → (rreqOf pkt.buf).origAddr = (s.rt p).destAddr →
    Newer (rreqOf pkt.buf).origSeqno (s.rt p).destSeqno →
    (Untouched p s (rreqProcess e s pkt.buf pkt.len pkt.src ttl) ↔
      ¬ Straddles (rreqOf pkt.buf).origSeqno (s.rt p).destSeqno ∧
        ¬ takesDown s (rreqOf pkt.buf) p)
  rrep : ∀ (pkt : Packet) ttl, pkt.buf 0 = aodvRrep → rrepSize ≤ pkt.len →
    (rrepOf pkt.buf).destAddr = (s.rt p).destAddr →
    Newer (rrepOf pkt.buf).destSeqno (s.rt p).destSeqno →
    (Untouched p s (rrepProcess e s pkt.buf pkt.len pkt.src ttl) ↔
      (s.rt p).destAddr = s.host.ipaddr ∨
        ¬ Straddles (rrepOf pkt.buf).destSeqno (s.rt p).destSeqno)
  rerr : ∀ (pkt : Packet) seqno, rerrCalcSize (pkt.buf 3) ≤ pkt.len → (s.rt p).nextHop = pkt.src →
    ((s.rt p).destAddr, seqno) ∈ listed pkt.buf →
    (∀ u ∈ listed pkt.buf, u.1 = (s.rt p).destAddr → u.2 = seqno) →
    Newer seqno (s.rt p).destSeqno →
    (Untouched p s (rerrProcess e s pkt.buf pkt.len pkt.src) ↔
      ¬ Straddles seqno (s.rt p).destSeqno)

section Freshness

variable {e : Env} {s : Daemon} {p : Ptr}

theorem servesNewer (hs : WellFormed s) (hp : rtTableCheck s.rtTbl (s.rt p).destAddr = some p)
    (hv : (s.rt p).state = .valid) (hr : (s.rt p).destSeqno ≠ 0) : ServesNewer e s p := by
  constructor
  · intro pkt ttl h horig hnew
    rw [← horig] at hp
    rw [(rreq_of_dest hs h ttl hp hv hr hnew.1).1, slt_of_newer hnew]
  · intro pkt ttl ht hlen hdest hnew
    rw [← hdest] at hp
    rw [(rrep_about_dest hs ht hlen ttl hp hr hnew.1).1, slt_of_newer hnew, hdest]
  · intro pkt seqno hlen hnext hmem hl hnew
    rw [(rerr_lists_dest hlen hp hv hnext hmem hl hnew.1).1, ← Bool.not_eq_true, slt_of_older hnew]
  · intro pkt h hdest hnew hown
    rw [← hdest] at hp
    rw [(rreq_for_dest hs h hp hv hr).2 hown, slt_of_newer hnew, hdest]
    tauto
  · intro pkt h hdest hown
    rw [← hdest] at hp
    exact (rreq_for_dest hs h hp hv hr).1 hown

theorem ignoresOlder (hs : WellFormed s) (hp : rtTableCheck s.rtTbl (s.rt p).destAddr = some p)
    (hv : (s.rt p).state = .valid) (hr : (s.rt p).destSeqno ≠ 0) : IgnoresOlder e s p := by
  constructor
  · intro pkt ttl h horig hold
    rw [← horig] at hp
    rw [(rreq_of_dest hs h ttl hp hv hr (Ne.symm hold.1)).2, ← Bool.not_eq_true, slt_of_older hold]
  · intro pkt ttl ht hlen hdest hold
    rw [← hdest] at hp
    rw [(rrep_about_dest hs ht hlen ttl hp hr (Ne.symm hold.1)).2, ← Bool.not_eq_true,
      slt_of_older hold, hdest]
  · intro pkt seqno hlen hnext hmem hl hold
    rw [(rerr_lists_dest hlen hp hv hnext hmem hl (Ne.symm hold.1)).2, slt_of_newer hold]

theorem straddles_incr {a : U32} (ha : a ≠ 0) : Straddles a (seqnoIncr a) ↔ a = 0x7fffffff := by
  have hlt := a.isLt
  have hne : a.toNat ≠ 0 := fun h => ha (BitVec.eq_of_toNat_eq h)
  rw [seqnoIncr, if_neg ha]
  constructor
  · rintro ⟨hlow, hhigh⟩
    apply BitVec.eq_of_toNat_eq
    rw [BitVec.msb_eq_decide] at hlow hhigh
    split at hhigh
    next hmax =>
      rw [hmax] at hlow
      exact absurd hlow (by decide)
    · rw [BitVec.toNat_add] at hhigh
      simp at hlow hhigh ⊢
      omega
  · rintro rfl
    decide

/-- For an entry that rt_table_check finds, VALID and with a known number: what
the four handlers do with newer and with older numbers, and the next number. -/
theorem freshness_unless_straddling (hs : WellFormed s)
    (hp : rtTableCheck s.rtTbl (s.rt p).destAddr = some p) (hv : (s.rt p).state = .valid)
    (hr : (s.rt p).destSeqno ≠ 0) :
    ServesNewer e s p ∧ IgnoresOlder e s p ∧
      Newer (s.rt p).destSeqno (seqnoIncr (s.rt p).destSeqno) ∧
      (Straddles (s.rt p).destSeqno (seqnoIncr (s.rt p).destSeqno) ↔
        (s.rt p).destSeqno = 0x7fffffff) :=
  ⟨servesNewer hs hp hv hr, ignoresOlder hs hp hv hr, newer_seqnoIncr hr, straddles_incr hr⟩

end Freshness

def boundary : Daemon :=
  run plain (init plain 0x0100000a 0xff00000a 2) [.recv (rreqVia 1 0x7fffffff)]

theorem wellFormed_boundary : WellFormed boundary :=
  (Reachable.resting (e := plain) ⟨0x0100000a, 0xff00000a, 2, _, rfl⟩).wellFormed

theorem freshness_unless_straddling_boundary :
    ServesNewer plain boundary 2 ∧ IgnoresOlder plain boundary 2 ∧
      Newer (boundary.rt 2).destSeqno (seqnoIncr (boundary.rt 2).destSeqno) ∧
      (Straddles (boundary.rt 2).destSeqno (seqnoIncr (boundary.rt 2).destSeqno) ↔
        (boundary.rt 2).destSeqno = 0x7fffffff) :=
  freshness_unless_straddling wellFormed_boundary (by decide +kernel) (by decide +kernel)
    (by decide +kernel)

/-- The next number of the originator is not taken for newer. -/
theorem next_number_ignored : ¬ ∀ (s : Daemon) (p : Ptr) (pkt : Packet), WellFormed s →
    rtTableCheck s.rtTbl (s.rt p).destAddr = some p → (s.rt p).state = .valid →
    (s.rt p).destSeqno ≠ 0 → Accepts s pkt → (rreqOf pkt.buf).origAddr = (s.rt p).destAddr →
    (rreqOf pkt.buf).origSeqno = seqnoIncr (s.rt p).destSeqno →
    Updated p (rreqOf pkt.buf).origSeqno s (rreqProcess plain s pkt.buf pkt.len pkt.src 5) := by
  intro hall
  have hpkt : Accepts boundary (rreqVia 2 0x80000000) := by
    constructor <;> decide +kernel
  obtain ⟨old, next, hops, lifetime, state, flags, hm⟩ := hall boundary 2 (rreqVia 2 0x80000000)
    wellFormed_boundary (by decide +kernel) (by decide +kernel) (by decide +kernel) hpkt
    (by decide +kernel) (by decide +kernel)
  have hnone : ∀ o ∈ since boundary (rreqProcess plain boundary (rreqVia 2 0x80000000).buf
      (rreqVia 2 0x80000000).len (rreqVia 2 0x80000000).src 5), isUpdate o = false := by
    decide +kernel
  cases hnone _ hm

end Aodv.Requests
