import Aodv.Trace

namespace Aodv

open Lib.Bytes Relation

theorem coarse_sound {e : Env} {ev : Event} {s s' : Daemon} (h : Coarse e ev s s')
    (hs : WellFormed s) : Sound s s' := fines_sound (coarse_fines h hs) hs

theorem coarse_trace {e : Env} {ev : Event} {s s' : Daemon} (h : Coarse e ev s s')
    (hs : WellFormed s) : s.trace <:+ s'.trace := fines_trace (coarse_fines h hs) hs

theorem coarses_sound {e : Env} {ev : Event} {s s' : Daemon}
    (h : ReflTransGen (Coarse e ev) s s') (hs : WellFormed s) : Sound s s' := by
  induction h with
  | refl => exact Sound.refl hs
  | tail _ h ih => exact ih.trans (coarse_sound h ih.wellFormed)

theorem coarses_trace {e : Env} {ev : Event} {s s' : Daemon}
    (h : ReflTransGen (Coarse e ev) s s') (hs : WellFormed s) : s.trace <:+ s'.trace := by
  induction h with
  | refl => exact List.suffix_refl _
  | tail h' h ih => exact ih.trans (coarse_trace h (coarses_sound h' hs).wellFormed)

theorem coarses_of_quiets {e : Env} {ev : Event} {s s' : Daemon}
    (h : ReflTransGen (Quiet e ev) s s') : ReflTransGen (Coarse e ev) s s' :=
  ReflTransGen.mono (fun _ _ => .quiet) _ _ h

theorem quiets_of_lbs {e : Env} (ev : Event) {s s' : Daemon} (h : ReflTransGen (Lb e) s s') :
    ReflTransGen (Quiet e ev) s s' :=
  ReflTransGen.mono (fun _ _ => .lb) _ _ h

theorem quiets_sound {e : Env} {ev : Event} {s s' : Daemon}
    (h : ReflTransGen (Quiet e ev) s s') (hs : WellFormed s) : Sound s s' :=
  coarses_sound (coarses_of_quiets h) hs

theorem quiets_trace {e : Env} {ev : Event} {s s' : Daemon}
    (h : ReflTransGen (Quiet e ev) s s') (hs : WellFormed s) : s.trace <:+ s'.trace :=
  coarses_trace (coarses_of_quiets h) hs

theorem linked_update (e : Env) {s : Daemon} {p : Ptr} (hp : Linked s.rtTbl p) (next : Addr)
    (hops seqno lifetime : U32) (state : RtState) (flags : RtFlags) (q : Ptr) :
    Linked (rtTableUpdate e s p next hops seqno lifetime state flags).rtTbl q ↔
      Linked s.rtTbl q := by
  obtain ⟨s', hkept, heq⟩ := update_kept e s hp next hops seqno lifetime state flags
  rw [heq, tbl_routeFound]
  exact hkept.keys.linked q

theorem dest_update (e : Env) {s : Daemon} {p : Ptr} (hp : Linked s.rtTbl p) (next : Addr)
    (hops seqno lifetime : U32) (state : RtState) (flags : RtFlags) (q : Ptr) :
    ((rtTableUpdate e s p next hops seqno lifetime state flags).rt q).destAddr =
      (s.rt q).destAddr := by
  obtain ⟨s', hkept, heq⟩ := update_kept e s hp next hops seqno lifetime state flags
  rw [heq, rt_routeFound]
  exact hkept.keys.destAddr q

theorem foreign_update (e : Env) {s : Daemon} {p q : Ptr} (h : Foreign s q)
    (hp : Linked s.rtTbl p) (next : Addr) (hops seqno lifetime : U32) (state : RtState)
    (flags : RtFlags) :
    Foreign (rtTableUpdate e s p next hops seqno lifetime state flags) q := by
  refine ⟨(linked_update e hp _ _ _ _ _ _ q).2 h.linked, ?_⟩
  obtain ⟨s', hkept, heq⟩ := update_kept e s hp next hops seqno lifetime state flags
  rw [dest_update e hp, heq, seqno_routeFound, hkept.ipaddr]
  exact h.dest

theorem linked_insert (e : Env) {s : Daemon} {p : Ptr} (hp : Linked s.rtTbl p) (dest next : Addr)
    (hops seqno lifetime : U32) (state : RtState) (flags : RtFlags) :
    Linked (rtTableInsert e s dest next hops seqno lifetime state flags).1.rtTbl p := by
  obtain h | ⟨_, h⟩ := rtTableInsert_cases e s dest next hops seqno lifetime state flags
  · rw [h]
    exact hp
  · rw [h]
    exact (linked_insertEntry e _ _ _ _ p).2 (.inr hp)

theorem insert_some (e : Env) {s s' : Daemon} {p : Ptr} {dest next : Addr}
    {hops seqno lifetime : U32} {state : RtState} {flags : RtFlags}
    (h : rtTableInsert e s dest next hops seqno lifetime state flags = (s', some p)) :
    Linked s'.rtTbl p ∧ s'.rt p = newEntry dest next hops seqno state flags := by
  obtain hi | ⟨_, hi⟩ := rtTableInsert_cases e s dest next hops seqno lifetime state flags
  · rw [hi] at h
    cases h
  · rw [hi] at h
    cases h
    refine ⟨(linked_insertEntry e _ _ _ _ _).2 (.inl rfl), ?_⟩
    rw [rt_insertEntry]
    exact rt_linkEntry_self (s.observe _) _

section Datagrams

variable {e : Env} {ev : Event}

theorem quiets_neighborRefresh {s : Daemon} {p : Ptr} (now : Timeval) (hp : Linked s.rtTbl p)
    (hh : (s.rt p).hopcnt = 1) : ReflTransGen (Quiet e ev) s (neighborRefresh e s p now) := by
  rw [neighborRefresh]
  split
  · exact .single (.helloArm now _ hp (.inl hh))
  · exact .refl

theorem coarses_neighborAdd {s : Daemon} {pkt : Packet} (h : ev = .recv pkt)
    (hne : pkt.src ≠ s.host.ipaddr) :
    ReflTransGen (Coarse e ev) s (neighborAdd e s pkt.src) := by
  refine ReflTransGen.head (.quiet (.lb (.tock s))) ?_
  rw [neighborAdd]
  dsimp only
  cases hc : rtTableCheck s.tock.rtTbl pkt.src with
  | none =>
      have hins : Coarse e ev s.tock (rtTableInsert e s.tock pkt.src pkt.src 1 0
          (u32 activeRouteTimeout) .valid .zero).1 := .insert _ _ (by decide) (.neighbor h hne)
      dsimp only
      obtain ⟨s', o, hi⟩ : ∃ s' o, rtTableInsert e s.tock pkt.src pkt.src 1 0
          (u32 activeRouteTimeout) .valid .zero = (s', o) := ⟨_, _, rfl⟩
      rw [hi] at hins ⊢
      cases o with
      | none => exact .single hins
      | some p =>
          obtain ⟨hp, hrt⟩ := insert_some e hi
          refine ReflTransGen.head hins (coarses_of_quiets (quiets_neighborRefresh _ hp ?_))
          rw [hrt]
          rfl
  | some p =>
      obtain ⟨hp, hd⟩ := rtTableCheck_some hc
      dsimp only
      split
      · exact .refl
      · have hl : Learned s.tock.host.ipaddr ev (s.tock.rt p).destSeqno .neighbor
            (s.tock.rt p).destAddr pkt.src 1 (s.tock.rt p).destSeqno (u32 activeRouteTimeout) := by
          change (s.tock.rt p).destAddr = _ at hd
          rw [hd]
          exact .neighbor h hne
        refine ReflTransGen.head (.update (u32 activeRouteTimeout) hp (by decide) hl)
          (coarses_of_quiets ?_)
        exact quiets_neighborRefresh _ ((linked_update e hp _ _ _ _ _ _ p).2 hp)
          (rt_update_self e _ p _ _ _ _ _ _).1

theorem coarses_helloKnown {s : Daemon} {p : Ptr} {pkt : Packet} (h : ev = .recv pkt)
    (ht : isHello pkt = true) (hp : Linked s.rtTbl p)
    (hd : (s.rt p).destAddr = (rrepOf pkt.buf).destAddr) (now : Timeval) :
    ReflTransGen (Coarse e ev) s (helloKnown e s p (rrepOf pkt.buf).destAddr
      (rrepOf pkt.buf).destSeqno (u32 (allowedHelloLoss * helloInterval + routeTimeoutSlack))
      now) := by
  rw [helloKnown]
  dsimp only
  split
  next hu => exact .single (.quiet (.helloArm now _ hp (.inr hu.1)))
  · split
    · exact .single (.quiet (.helloCount _ now hp))
    · have hl : Learned s.host.ipaddr ev (s.rt p).destSeqno .hello (s.rt p).destAddr
          (rrepOf pkt.buf).destAddr 1 (rrepOf pkt.buf).destSeqno
          (u32 (allowedHelloLoss * helloInterval + routeTimeoutSlack)) := by
        rw [hd]
        exact .hello h ht
      refine ReflTransGen.head (.update _ hp (by decide) hl) (.single (.quiet ?_))
      exact .helloArm now _ ((linked_update e hp _ _ _ _ _ _ p).2 hp)
        (.inl (rt_update_self e _ p _ _ _ _ _ _).1)

theorem coarses_hello {s : Daemon} {pkt : Packet} {buf : Buf} (h : ev = .recv pkt)
    (ht : isHello pkt = true) (hb : rrepOf buf = rrepOf pkt.buf) :
    ReflTransGen (Coarse e ev) s (helloProcess e s buf) := by
  refine ReflTransGen.head (.quiet (.lb (.tock s))) ?_
  rw [helloProcess]
  dsimp only
  rw [hb]
  cases hc : rtTableCheck s.tock.rtTbl (rrepOf pkt.buf).destAddr with
  | none =>
      dsimp only
      generalize (if e.receiveNHellos ≠ 0 then RtState.invalid else RtState.valid) = state
      have hlearned : Learned s.tock.host.ipaddr ev 0 .hello (rrepOf pkt.buf).destAddr
          (rrepOf pkt.buf).destAddr 1 (rrepOf pkt.buf).destSeqno
          (u32 (allowedHelloLoss * helloInterval + routeTimeoutSlack)) := .hello h ht
      generalize u32 (allowedHelloLoss * helloInterval + routeTimeoutSlack) = timeout at hlearned
      have hins : Coarse e ev s.tock (rtTableInsert e s.tock (rrepOf pkt.buf).destAddr
          (rrepOf pkt.buf).destAddr 1 (rrepOf pkt.buf).destSeqno timeout state .zero).1 :=
        .insert timeout state (by decide) hlearned
      obtain ⟨s', o, hi⟩ : ∃ s' o, rtTableInsert e s.tock (rrepOf pkt.buf).destAddr
          (rrepOf pkt.buf).destAddr 1 (rrepOf pkt.buf).destSeqno timeout state .zero = (s', o) :=
        ⟨_, _, rfl⟩
      rw [hi] at hins ⊢
      cases o with
      | none => exact .single hins
      | some p =>
          have hp := (insert_some e hi).1
          exact ReflTransGen.head hins (.single (.quiet
            (.helloCount 1 (s'.rt p).lastHelloTime hp)))
  | some p =>
      obtain ⟨hp, hd⟩ := rtTableCheck_some hc
      exact coarses_helloKnown h ht hp hd _

theorem linkBreakReports_congr {s s' : Daemon} (p : Ptr) (hl : s'.linked = s.linked)
    (h : ∀ q, (s'.rt q).state = (s.rt q).state ∧ (s'.rt q).nextHop = (s.rt q).nextHop ∧
      (s'.rt q).destAddr = (s.rt q).destAddr ∧ (s'.rt q).hopcnt = (s.rt q).hopcnt ∧
      (s'.rt q).flags.repair = (s.rt q).flags.repair ∧
      (s'.rt q).nprecursor = (s.rt q).nprecursor) :
    linkBreakReports s' p = linkBreakReports s p := by
  have huses (q : Ptr) : usesLink s' p q = usesLink s p q := by
    obtain ⟨hstate, hnext, hdest, _⟩ := h q
    simp only [usesLink, hstate, hnext, hdest, (h p).2.2.1]
  have hkept (q : Ptr) : kept s' p q = kept s p q := by
    simp only [kept, (h p).2.2.2.2.1, (h q).2.2.2.1]
  obtain ⟨_, _, _, hhop, hrep, hprec⟩ := h p
  simp only [linkBreakReports, hl, huses, hkept, hhop, hrep, hprec, fun q => (h q).2.2.2.2.2]

theorem kept_rrepUnidir (e : Env) {s : Daemon} {rev : Ptr} : Kept s (rrepUnidir e s rev) := by
  rw [rrepUnidir]
  split
  · cases hn : rtTableCheck s.rtTbl (s.rt rev).nextHop with
    | none => exact Kept.refl
    | some n =>
        obtain ⟨hln, _⟩ := rtTableCheck_some hn
        dsimp only
        split
        · let s₁ := s.observe (.unidirBreak (linkBreakReports s n))
          let s₂ := s₁.setRt n { s.rt n with flags := { (s.rt n).flags with unidir := true } }
          have hset : Kept s₁ s₂ := Kept.setRt s₁ n _ rfl rfl
          have hmark : Kept s (pop s₂ (.helloTimer n)) :=
            ((Kept.observe s _).trans hset).trans (kept_pop _)
          have hbreak := hmark.trans (lb_kept (lb_linkBreak e ((hmark.keys.linked n).2 hln)))
          exact hbreak.trans (Kept.arm _ _ (.ackTimer n) _ ((hbreak.keys.linked n).2 hln))
        · exact Kept.refl
  · exact Kept.refl

/-- A neighbour over a unidirectional link loses its link before the RREP goes
out, and the RREP is lost only to a link break with something to report. -/
theorem quiets_rrepUnidir {s : Daemon} {rev : Ptr} (hs : WellFormed s)
    (hrev : Linked s.rtTbl rev) :
    ReflTransGen (Quiet e ev) s (rrepUnidir e s rev) ∧
      (.unidirBreak true ∉ (rrepUnidir e s rev).trace →
        (rrepUnidir e s rev).sendBuf = s.sendBuf) := by
  rw [rrepUnidir]
  split
  next hu =>
    cases hn : rtTableCheck s.rtTbl (s.rt rev).nextHop with
    | none => exact ⟨.refl, fun _ => rfl⟩
    | some n =>
        obtain ⟨hln, _⟩ := rtTableCheck_some hn
        dsimp only
        split
        · generalize hreports : linkBreakReports s n = reports
          let s₁ := s.observe (.unidirBreak reports)
          let s₂ := s₁.setRt n { s.rt n with flags := { (s.rt n).flags with unidir := true } }
          let s₃ := pop s₂ (.helloTimer n)
          have hobs : Quiet e ev s s₁ := .unidirBreak reports
          have hmark : Quiet e ev s₁ s₂ := .unidir hln (.inr ⟨rev, hrev, hu.2⟩)
          have hdrop : Quiet e ev s₂ s₃ := .dropHello hln
          have hrun : ReflTransGen (Quiet e ev) s s₃ :=
            ((ReflTransGen.single hobs).tail hmark).tail hdrop
          have hln' : Linked s₃.rtTbl n := hln
          have hbreak := lb_linkBreak e hln'
          have hln'' := linked_of_lb hbreak hln'
          refine ⟨(hrun.trans (quiets_of_lbs ev hbreak)).tail (.armAck hln''), ?_⟩
          intro hno
          have hgrow : Obs.unidirBreak reports ∈ (neighborLinkBreak e s₃ n).trace :=
            (lbs_said hbreak).suffix.subset List.mem_cons_self
          have hfalse : linkBreakReports s n = false := by
            cases reports with
            | false => exact hreports
            | true => exact absurd hgrow hno
          refine linkBreak_sendBuf e (quiets_sound hrun hs).wellFormed hln' ?_
          rw [← hfalse]
          refine linkBreakReports_congr n rfl fun q => ?_
          by_cases hq : q = n
          · subst q
            have hself : s₃.rt n =
                { s.rt n with flags := { (s.rt n).flags with unidir := true } } :=
              rt_setRt_self s₁ n _
            rw [hself]
            exact ⟨rfl, rfl, rfl, rfl, rfl, rfl⟩
          · have hne : s₃.rt q = s.rt q := rt_setRt_ne s₁ _ hq
            rw [hne]
            exact ⟨rfl, rfl, rfl, rfl, rfl, rfl⟩
        · exact ⟨.refl, fun _ => rfl⟩
  · exact ⟨.refl, fun _ => rfl⟩

theorem kept_rrepSend (e : Env) (s : Daemon) (m : RREP) (rev : Ptr) (fwd : Option Ptr)
    (len : Int) : Kept s (rrepSend e s m rev fwd len) := by
  have hsend : Kept s (aodvSocketSend e (rrepUnidir e s rev) (.rrep m)
      ((rrepUnidir e s rev).rt rev).nextHop len maxTtl) :=
    (kept_rrepUnidir e).trans (Kept.socketSend e _ _ _ _ _)
  cases fwd with
  | none => exact hsend
  | some f => exact (hsend.trans (kept_precursorAdd _ _ _)).trans (kept_precursorAdd _ _ _)

theorem quiets_rrepSend {s : Daemon} {m : RREP} {rev : Ptr} {fwd : Option Ptr}
    (hs : WellFormed s) (hrev : Foreign s rev) (hfwd : ∀ f, fwd = some f → Foreign s f)
    (hbuf : s.sendBuf = rrepBuf m) (ho : Offered e.arch s.trace m.lifetime) :
    ReflTransGen (Quiet e ev) s (rrepSend e s m rev fwd rrepSize) := by
  have hunidir : ReflTransGen (Quiet e ev) s (rrepUnidir e s rev) ∧ _ :=
    quiets_rrepUnidir hs hrev.linked
  obtain ⟨hrun, hkeep⟩ := hunidir
  let s₁ := rrepUnidir e s rev
  let s₂ := aodvSocketSend e s₁ (.rrep m) (s₁.rt rev).nextHop rrepSize maxTtl
  have hkept : Kept s s₂ := (kept_rrepUnidir e).trans (Kept.socketSend e s₁ _ _ _ _)
  have hsend : Quiet e ev s₁ s₂ := by
    refine .rrepSend m _ (fun hno => ⟨?_, rfl⟩) (ho.mono (quiets_trace hrun hs))
    rw [hkeep hno, hbuf]
    rfl
  cases fwd with
  | none => exact hrun.tail hsend
  | some f =>
      have hf : Foreign s₂ f := (hfwd f rfl).kept hkept
      have hr : Foreign s₂ rev := hrev.kept hkept
      have hadd : Kept s₂ (precursorAdd s₂ f (s₂.rt rev).nextHop) := kept_precursorAdd s₂ f _
      have hfirst : Quiet e ev s₂ (precursorAdd s₂ f (s₂.rt rev).nextHop) :=
        .precursor hf.linked hr
      exact ((hrun.tail hsend).tail hfirst).tail (.precursor (hr.kept hadd).linked (hf.kept hadd))

theorem quiets_reply {s : Daemon} {m : RREP} {rev : Ptr} {fwd : Option Ptr}
    (hs : WellFormed s) (hrev : Foreign s rev) (hfwd : ∀ f, fwd = some f → Foreign s f)
    (ho : Offered e.arch s.trace m.lifetime) :
    ReflTransGen (Quiet e ev) s
      (rrepSend e { s with sendBuf := rrepBuf m } m rev fwd rrepSize) := by
  have hwrite : Kept s { s with sendBuf := rrepBuf m } := Kept.write s _
  refine ReflTransGen.head (.rrepWrite m) ?_
  exact quiets_rrepSend (hwrite.wellFormed hs) (hrev.kept hwrite)
    (fun f hf => (hfwd f hf).kept hwrite) rfl ho

theorem kept_reply (e : Env) (s : Daemon) (m : RREP) (rev : Ptr) (fwd : Option Ptr) :
    Kept s (rrepSend e { s with sendBuf := rrepBuf m } m rev fwd rrepSize) :=
  (Kept.write s _).trans (kept_rrepSend e _ m rev fwd rrepSize)

theorem rrepCreate_eq (s : Daemon) (flagR flagA : Bool) (prefixSz : BitVec 5) (hopcnt : U8)
    (dest : Addr) (seqno : U32) (orig : Addr) (life : U32) :
    rrepCreate s flagR flagA prefixSz hopcnt dest seqno orig life =
      ({ s with sendBuf := rrepBuf ⟨flagR, flagA, prefixSz, hopcnt, dest, seqno, orig, life⟩ },
        ⟨flagR, flagA, prefixSz, hopcnt, dest, seqno, orig, life⟩) := rfl

theorem coarses_forUs {s : Daemon} {pkt : Packet} {rev : Ptr} (hs : WellFormed s)
    (h : ev = .recv pkt) (ht : pkt.buf 0 = aodvRreq) (hrev : Foreign s rev) :
    ReflTransGen (Coarse e ev) s (rreqForUs e s (rreqOf pkt.buf) rev) := by
  have hown := Coarse.forUs (e := e) (s := s) h ht
  have hs' := (coarse_sound hown hs).wellFormed
  simp only [rreqForUs, rrepCreate_eq]
  let s₁ : Daemon := { s.observe (.rreqForUs s.host.seqno (rreqOf pkt.buf).destSeqno) with
    host := { s.host with seqno := ownSeqno s.host.seqno (rreqOf pkt.buf).destSeqno } }
  have hrev' : Foreign s₁ rev := ⟨hrev.linked, hrev.dest⟩
  refine ReflTransGen.head hown (coarses_of_quiets (quiets_reply hs' hrev' ?_ (.inl rfl)))
  rintro f ⟨⟩

theorem quiets_answer {s : Daemon} (m : RREQ) {rev fwd : Ptr} {n : Nat} (hn : n + 1 = s.tick)
    (hs : WellFormed s) (hrev : Foreign s rev) (hfwd : Foreign s fwd) :
    ReflTransGen (Quiet e ev) s (rreqAnswer e s m rev fwd (e.clock n)) := by
  let s₁ := s.observe (.answer (s.timer (.rtTimer fwd)).timeout (e.clock n))
  have hmark : Quiet e ev s s₁ := .answer hfwd.linked hn
  have hs₁ : WellFormed s₁ := (quiet_sound hmark hs).wellFormed
  have hoffer : Offered e.arch s₁.trace
      (u32 (timevalDiff e.arch (s.timer (.rtTimer fwd)).timeout (e.clock n))) :=
    .inr ⟨_, _, List.mem_cons_self, rfl⟩
  have hobs : Kept s s₁ := Kept.observe s _
  have hrev₁ := hrev.kept hobs
  have hfwd₁ := hfwd.kept hobs
  refine ReflTransGen.head hmark ?_
  have hfirst {m : RREP} (ho : Offered e.arch s₁.trace m.lifetime) : ReflTransGen (Quiet e ev) s₁
      (rrepSend e { s₁ with sendBuf := rrepBuf m } m rev (some fwd) rrepSize) :=
    quiets_reply hs₁ hrev₁ (fun f hf => Option.some.inj hf ▸ hfwd₁) ho
  have hkept (m : RREP) := kept_reply e s₁ m rev (some fwd)
  simp only [rreqAnswer, rrepCreate_eq]
  split
  · refine (hfirst hoffer).trans (quiets_reply ((hkept _).wellFormed hs₁)
      (hfwd₁.kept (hkept _)) (fun r hr => ?_)
      (hoffer.mono (quiets_trace (hfirst hoffer) hs₁)))
    exact Option.some.inj hr ▸ hrev₁.kept (hkept _)
  · exact hfirst hoffer

theorem rreqOf_destSeqno (buf : Buf) (seqno : U32) :
    rreqOf (storeBE buf 12 seqno) = { rreqOf buf with destSeqno := seqno } := by
  have hsame (i : Nat) (h : i < 12 ∨ 16 ≤ i) : storeBE buf 12 seqno i = buf i :=
    storeBE_apply_of_disjoint buf 12 seqno i h
  simp only [rreqOf, loadBE_storeBE, hsame 1 (by omega), hsame 3 (by omega), RREQ.mk.injEq, true_and]
  refine ⟨loadBE_congr ?_, loadLE_congr ?_, loadLE_congr ?_, loadBE_congr ?_⟩
  all_goals
    intro i h h'
    exact hsame i (by omega)

theorem quiet_forward {s : Daemon} {buf : Buf} {len : Nat} (ttl : Int) (hlen : rreqSize ≤ len)
    (hr : Relayed ev s buf) : Quiet e ev s (rreqForward e s buf len ttl) := by
  have hhops : (aodvSocketQueueMsg s buf len).sendBuf 3 = buf 3 := by
    have h3 : 3 < len := Nat.lt_of_lt_of_le (by decide) hlen
    simp [aodvSocketQueueMsg, copy, h3]
  rw [rreqForward, hhops]
  exact .relay buf len (buf 3 + 1) aodvBroadcast ttl (Nat.le_trans (by decide) hlen) hr

theorem quiets_passOn {s : Daemon} {pkt : Packet} {fwd : Option Ptr} (ttl : Int)
    (ht : pkt.buf 0 = aodvRreq) (hlen : rreqSize ≤ pkt.len)
    (hacc : .rreqAccepted (rreqOf pkt.buf) pkt.src ∈ s.trace)
    (hfwd : ∀ f, fwd = some f → Linked s.rtTbl f) :
    ReflTransGen (Quiet e ev) s
      (rreqPassOn e s pkt.buf pkt.len (rreqOf pkt.buf) fwd ttl) := by
  have hasis : Relayed ev s pkt.buf := .rreq hacc ht rfl (.inl rfl)
  unfold rreqPassOn
  split
  · cases fwd with
    | none => exact .single (quiet_forward _ hlen hasis)
    | some f =>
        dsimp only
        split
        · refine .single (quiet_forward _ hlen (.rreq hacc ?_ (rreqOf_destSeqno pkt.buf _)
            (.inr (.inr ⟨f, hfwd f rfl, rfl⟩))))
          rwa [storeBE_apply_of_disjoint _ _ _ _ (by decide)]
        · exact .single (quiet_forward _ hlen hasis)
  · exact .refl

theorem quiets_route {s : Daemon} {pkt : Packet} {rev : Ptr} (ttl : Int) (hs : WellFormed s)
    (ht : pkt.buf 0 = aodvRreq) (hlen : rreqSize ≤ pkt.len)
    (hacc : .rreqAccepted (rreqOf pkt.buf) pkt.src ∈ s.trace) (hrev : Foreign s rev)
    (hne : (rreqOf pkt.buf).destAddr ≠ s.host.ipaddr) :
    ReflTransGen (Quiet e ev) s
      (rreqRoute e s pkt.buf pkt.len (rreqOf pkt.buf) rev ttl) := by
  have htock : Quiet e ev s s.tock := .lb (.tock s)
  rw [rreqRoute]
  dsimp only
  cases hf : rtTableCheck s.rtTbl (rreqOf pkt.buf).destAddr with
  | none => exact quiets_passOn ttl ht hlen hacc (by rintro f ⟨⟩)
  | some f =>
      obtain ⟨hlf, hd⟩ := rtTableCheck_some hf
      dsimp only
      split
      · refine ReflTransGen.head htock ?_
        split
        · have htick : Kept s s.tock := Kept.tock s
          exact quiets_answer _ rfl (htick.wellFormed hs) (hrev.kept htick)
            (Foreign.kept ⟨hlf, fun h => hne (hd.symm.trans h)⟩ htick)
        · refine quiets_passOn (s := s.tock) ttl ht hlen hacc ?_
          rintro f' ⟨⟩
          exact hlf
      · refine quiets_passOn ttl ht hlen hacc ?_
        rintro f' ⟨⟩
        exact hlf

theorem accept_sound {s : Daemon} {pkt : Packet} (hs : WellFormed s) (h : ev = .recv pkt)
    (ht : pkt.buf 0 = aodvRreq) (horig : (rreqOf pkt.buf).origAddr ≠ s.host.ipaddr)
    (hnew : rreqRecordCheck s (rreqOf pkt.buf).origAddr (rreqOf pkt.buf).rreqId = none) :
    .rreqAccepted (rreqOf pkt.buf) pkt.src ∈ (rreqReverse e (rreqRecordInsert e
      (s.observe (.rreqAccepted (rreqOf pkt.buf) pkt.src)) (rreqOf pkt.buf).origAddr
      (rreqOf pkt.buf).rreqId) (rreqOf pkt.buf) pkt.src).1.trace := by
  have hrecord : Fine e ev s _ := .record h ht hnew
  have hsound := fine_sound hrecord hs
  have hgrow := fines_trace (fines_accept (e := e) h ht (hsound.ipaddr ▸ horig)) hsound.wellFormed
  refine hgrow.subset ?_
  rw [rreqRecordInsert]
  split <;> exact List.mem_cons_self

theorem linked_reverse {s s' : Daemon} {m : RREQ} {src : Addr} {rev : Ptr}
    (h : rreqReverse e s m src = (s', some rev)) : Linked s'.rtTbl rev := by
  rw [rreqReverse] at h
  dsimp only at h
  cases hc : rtTableCheck s.rtTbl m.origAddr with
  | none =>
      rw [hc] at h
      exact (insert_some e h).1
  | some p =>
      have hp := (rtTableCheck_some hc).1
      rw [hc] at h
      dsimp only at h
      split at h
      · cases h
        exact (linked_update e hp _ _ _ _ _ _ rev).2 hp
      · cases h
        exact hp

theorem dest_reverse {s s' : Daemon} {m : RREQ} {src : Addr} {rev : Ptr}
    (h : rreqReverse e s m src = (s', some rev)) : (s'.rt rev).destAddr = m.origAddr := by
  rw [rreqReverse] at h
  dsimp only at h
  cases hc : rtTableCheck s.rtTbl m.origAddr with
  | none =>
      rw [hc] at h
      rw [(insert_some e h).2]
      rfl
  | some p =>
      obtain ⟨hp, hd⟩ := rtTableCheck_some hc
      rw [hc] at h
      dsimp only at h
      split at h
      · cases h
        exact (dest_update e hp _ _ _ _ _ _ rev).trans hd
      · cases h
        exact hd

theorem coarses_rreq {s : Daemon} {pkt : Packet} (ttl : Int) (hs : WellFormed s)
    (h : ev = .recv pkt) (ht : pkt.buf 0 = aodvRreq) :
    ReflTransGen (Coarse e ev) s (rreqProcess e s pkt.buf pkt.len pkt.src ttl) := by
  rw [rreqProcess]
  dsimp only
  split
  · exact .refl
  next horig =>
    split
    · exact .refl
    next hlen =>
      split
      · exact .refl
      · split
        · exact .refl
        next hrec =>
          have hlen' : rreqSize ≤ pkt.len := Nat.le_of_not_lt hlen
          have hnew : rreqRecordCheck s (rreqOf pkt.buf).origAddr (rreqOf pkt.buf).rreqId = none := by
            simpa using hrec
          have hacc : Coarse e ev s _ := .accept h ht horig hlen' hnew
          have hmark := accept_sound (e := e) hs h ht horig hnew
          have hws := (coarse_sound hacc hs).wellFormed
          have hown := (coarse_sound hacc hs).ipaddr
          obtain ⟨s', o, hrev⟩ : ∃ s' o, rreqReverse e (rreqRecordInsert e
              (s.observe (.rreqAccepted (rreqOf pkt.buf) pkt.src)) (rreqOf pkt.buf).origAddr
              (rreqOf pkt.buf).rreqId) (rreqOf pkt.buf) pkt.src = (s', o) := ⟨_, _, rfl⟩
          rw [hrev] at hacc hmark hws hown ⊢
          cases o with
          | none =>
              refine ReflTransGen.head hacc ?_
              dsimp only
              rw [rreqUnrouted]
              split
              · exact .refl
              · exact coarses_of_quiets (quiets_passOn ttl ht hlen' hmark fun f hf =>
                  (rtTableCheck_some hf).1)
          | some rev =>
              have hl : Foreign s' rev := by
                refine ⟨linked_reverse hrev, ?_⟩
                rw [dest_reverse hrev, hown]
                exact horig
              refine ReflTransGen.head hacc ?_
              dsimp only
              split
              · exact coarses_forUs hws h ht hl
              next hus =>
                exact coarses_of_quiets (quiets_route ttl hws ht hlen' hmark hl (hown ▸ hus))

theorem coarse_rrepRoute {s s' : Daemon} {pkt : Packet} {p : Ptr} {wasRepair : Bool}
    {wasHopcnt : U8} (h : ev = .recv pkt) (ht : pkt.buf 0 = aodvRrep) (hlen : rrepSize ≤ pkt.len)
    (hne : (rrepOf pkt.buf).destAddr ≠ s.host.ipaddr)
    (hr : rrepRoute e s (rrepOf pkt.buf) pkt.src = some (s', p, wasRepair, wasHopcnt)) :
    Coarse e ev s s' ∧ Linked s'.rtTbl p ∧ ∀ q, Linked s.rtTbl q → Linked s'.rtTbl q := by
  rw [rrepRoute] at hr
  dsimp only at hr
  cases hc : rtTableCheck s.rtTbl (rrepOf pkt.buf).destAddr with
  | none =>
      rw [hc] at hr
      dsimp only at hr
      have hins : Coarse e ev s (rtTableInsert e s (rrepOf pkt.buf).destAddr pkt.src
          ((rrepOf pkt.buf).hopcnt.setWidth 32 + 1) (rrepOf pkt.buf).destSeqno
          (rrepOf pkt.buf).lifetime .valid .zero).1 := .insert _ _ (by decide) (.rrep h ht hlen hne)
      have hkeep := fun q (hq : Linked s.rtTbl q) => linked_insert e hq (rrepOf pkt.buf).destAddr
        pkt.src ((rrepOf pkt.buf).hopcnt.setWidth 32 + 1) (rrepOf pkt.buf).destSeqno
        (rrepOf pkt.buf).lifetime .valid .zero
      obtain ⟨s₁, o, hi⟩ : ∃ s₁ o, rtTableInsert e s (rrepOf pkt.buf).destAddr pkt.src
          ((rrepOf pkt.buf).hopcnt.setWidth 32 + 1) (rrepOf pkt.buf).destSeqno
          (rrepOf pkt.buf).lifetime .valid .zero = (s₁, o) := ⟨_, _, rfl⟩
      rw [hi] at hr hins hkeep
      cases o with
      | none => cases hr
      | some q =>
          cases hr
          exact ⟨hins, (insert_some e hi).1, hkeep⟩
  | some q =>
      obtain ⟨hq, hd⟩ := rtTableCheck_some hc
      rw [hc] at hr
      dsimp only at hr
      split at hr
      · cases hr
        have hl : Learned s.host.ipaddr ev (s.rt p).destSeqno .rrep (s.rt p).destAddr pkt.src
            ((rrepOf pkt.buf).hopcnt.setWidth 32 + 1) (rrepOf pkt.buf).destSeqno
            (rrepOf pkt.buf).lifetime := by
          change (s.rt p).destAddr = _ at hd
          rw [hd]
          exact .rrep h ht hlen hne
        have hkeep := linked_update e hq pkt.src ((rrepOf pkt.buf).hopcnt.setWidth 32 + 1)
          (rrepOf pkt.buf).destSeqno (rrepOf pkt.buf).lifetime .valid (s.rt p).flags
        exact ⟨.update _ hq (by decide) hl, (hkeep p).2 hq, fun q' hq' => (hkeep q').2 hq'⟩
      · cases hr

theorem quiets_rrepRepaired {s : Daemon} {p : Ptr} (hp : Linked s.rtTbl p) (wasRepair : Bool)
    (wasHopcnt : U8) : ReflTransGen (Quiet e ev) s (rrepRepaired e s p wasRepair wasHopcnt) := by
  rw [rrepRepaired]
  split
  · have hwritten := written_create s true (s.rt p).destAddr (s.rt p).destSeqno
    have hnew : Lb e s (rerrCreate s true (s.rt p).destAddr (s.rt p).destSeqno).1 :=
      .rerrNew true _ (.inr ⟨p, hp, rfl⟩)
    dsimp only
    split
    · refine quiets_of_lbs ev ((ReflTransGen.single hnew).tail ?_)
      exact .rerrSend _ aodvBroadcast _ hwritten.type hwritten.carries
    · exact quiets_of_lbs ev (.single hnew)
  · exact .refl

theorem rrepAckNeighbor_linked {s : Daemon} {rev n : Ptr} (hrev : Linked s.rtTbl rev)
    (h : rrepAckNeighbor s rev = some n) : Linked s.rtTbl n := by
  rw [rrepAckNeighbor] at h
  split at h
  · exact (rtTableCheck_some h).1
  · cases h
    exact hrev

theorem kept_rrepAskAck (e : Env) {s : Daemon} {rev : Ptr} (buf : Buf)
    (hrev : Linked s.rtTbl rev) : Kept s (rrepAskAck e s buf rev).1 := by
  rw [rrepAskAck]
  cases hn : rrepAckNeighbor s rev with
  | none => exact Kept.refl
  | some n =>
      have hl := rrepAckNeighbor_linked hrev hn
      dsimp only
      split
      · exact Kept.refl
      · let s₁ := s.setRt n { s.rt n with flags := { (s.rt n).flags with unidir := true } }
        have hset : Kept s s₁ := Kept.setRt s n _ rfl rfl
        exact hset.trans (Kept.arm s₁ _ (.ackTimer n) _ hl)

theorem quiets_rrepAskAck {s : Daemon} {pkt : Packet} {rev : Ptr} (buf : Buf)
    (h : ev = .recv pkt) (ht : pkt.buf 0 = aodvRrep) (hrev : Linked s.rtTbl rev) :
    ReflTransGen (Quiet e ev) s (rrepAskAck e s buf rev).1 := by
  rw [rrepAskAck]
  cases hn : rrepAckNeighbor s rev with
  | none => exact .refl
  | some n =>
      have hl := rrepAckNeighbor_linked hrev hn
      dsimp only
      split
      · exact .refl
      · have hmark : Quiet e ev s (s.setRt n { s.rt n with
            flags := { (s.rt n).flags with unidir := true } }) :=
          .unidir hl (.inl ⟨pkt, h, ht⟩)
        exact (ReflTransGen.single hmark).tail (.armAck hl)

theorem quiets_precursors {s : Daemon} {rev fwd : Ptr} (hrev : Foreign s rev)
    (hfwd : Foreign s fwd) : ReflTransGen (Quiet e ev) s (rtTableUpdateTimeout e
      (precursorAdd (precursorAdd s fwd (s.rt rev).nextHop) rev
        ((precursorAdd s fwd (s.rt rev).nextHop).rt fwd).nextHop) rev (u32 activeRouteTimeout)) := by
  have hkept := kept_precursorAdd s fwd (s.rt rev).nextHop
  have hrev₁ := hrev.kept hkept
  have hkept₁ := kept_precursorAdd (precursorAdd s fwd (s.rt rev).nextHop) rev
    ((precursorAdd s fwd (s.rt rev).nextHop).rt fwd).nextHop
  have hfirst : Quiet e ev s (precursorAdd s fwd (s.rt rev).nextHop) :=
    .precursor hfwd.linked hrev
  exact ((ReflTransGen.single hfirst).tail (.precursor hrev₁.linked (hfwd.kept hkept))).tail
    (.updateTimeout (by decide) (hrev₁.kept hkept₁).linked)

theorem quiets_rrepForward {s : Daemon} {pkt : Packet} {rev fwd : Ptr} (buf : Buf) (ttl : Int)
    (h : ev = .recv pkt) (ht : pkt.buf 0 = aodvRrep) (hlen : rrepSize ≤ pkt.len)
    (hrev : Foreign s rev) (hfwd : Foreign s fwd) :
    ReflTransGen (Quiet e ev) s (rrepForward e s buf pkt.len rev fwd ttl) := by
  have hask := quiets_rrepAskAck (e := e) buf h ht hrev.linked
  have hkeep := kept_rrepAskAck e buf hrev.linked
  rw [rrepForward]
  generalize rrepAskAck e s buf rev = o at hask hkeep
  obtain ⟨s₁, buf₁⟩ := o
  dsimp only at hask hkeep ⊢
  let s₂ := aodvSocketSend e
    { s₁ with sendBuf := store (copy s₁.sendBuf buf₁ pkt.len) 3 (s₁.rt fwd).hopcnt }
    (.queued (take (store buf₁ 3 (s₁.rt fwd).hopcnt) pkt.len)) (s₁.rt rev).nextHop pkt.len ttl
  have hsent : Kept s s₂ :=
    hkeep.trans ((Kept.write s₁ _).trans (Kept.socketSend e _ _ _ _ _))
  have hrelay : Quiet e ev s₁ _ :=
    .relay buf₁ pkt.len (s₁.rt fwd).hopcnt (s₁.rt rev).nextHop ttl hlen (.rrep h ht)
  exact (hask.tail hrelay).trans
    (quiets_precursors (s := s₂) (hrev.kept hsent) (hfwd.kept hsent))

theorem kept_rrepForward (e : Env) {s : Daemon} {rev : Ptr} (buf : Buf) (len : Nat) (fwd : Ptr)
    (ttl : Int) (hrev : Linked s.rtTbl rev) :
    Kept s (rrepForward e s buf len rev fwd ttl) := by
  have hask := kept_rrepAskAck e buf hrev
  rw [rrepForward]
  generalize rrepAskAck e s buf rev = o at hask
  obtain ⟨s₁, buf₁⟩ := o
  dsimp only at hask ⊢
  let s₂ := aodvSocketSend e
    { s₁ with sendBuf := store (copy s₁.sendBuf buf₁ len) 3 (s₁.rt fwd).hopcnt }
    (.queued (take (store buf₁ 3 (s₁.rt fwd).hopcnt) len)) (s₁.rt rev).nextHop len ttl
  have hsent : Kept s s₂ := hask.trans ((Kept.write s₁ _).trans (Kept.socketSend e _ _ _ _ _))
  have hadded := (hsent.trans (kept_precursorAdd s₂ fwd (s₂.rt rev).nextHop)).trans
    (kept_precursorAdd _ rev ((precursorAdd s₂ fwd (s₂.rt rev).nextHop).rt fwd).nextHop)
  exact hadded.trans (kept_updateTimeout e _ ((hadded.keys.linked rev).2 hrev))

def rrepRest (e : Env) (s : Daemon) (buf : Buf) (len : Nat) (rev : Option Ptr) (p : Ptr)
    (wasRepair : Bool) (wasHopcnt : U8) (ttl : Int) : Daemon :=
  let m := rrepOf buf
  let s := if m.a then rrepAnswerAck e s p else s
  let buf := if m.a then store buf 1 (buf 1 &&& ~~~(bit true 1)) else buf
  if m.origAddr = s.host.ipaddr then rrepRepaired e s p wasRepair wasHopcnt
  else
    match rev with
    | none => s
    | some r => if (s.rt r).state = .valid then rrepForward e s buf len r p (ttl - 1) else s

theorem rrepProcess_eq (s : Daemon) (buf : Buf) (len : Nat) (src : Addr) (ttl : Int) :
    rrepProcess e s buf len src ttl =
      if len < rrepSize then s
      else if (rrepOf buf).destAddr = s.host.ipaddr then s
      else
        match rrepRoute e s (rrepOf buf) src with
        | none => s
        | some (s', p, wasRepair, wasHopcnt) =>
            rrepRest e s' buf len (rtTableCheck s.rtTbl (rrepOf buf).origAddr) p wasRepair wasHopcnt
              ttl := rfl

theorem quiets_rrepRest {s : Daemon} {pkt : Packet} {rev : Option Ptr} {p : Ptr} (wasRepair : Bool)
    (wasHopcnt : U8) (ttl : Int) (h : ev = .recv pkt) (ht : pkt.buf 0 = aodvRrep)
    (hlen : rrepSize ≤ pkt.len) (hp : Foreign s p)
    (hrev : ∀ r, rev = some r →
      Linked s.rtTbl r ∧ (s.rt r).destAddr = (rrepOf pkt.buf).origAddr) :
    ReflTransGen (Quiet e ev) s (rrepRest e s pkt.buf pkt.len rev p wasRepair wasHopcnt ttl) := by
  unfold rrepRest
  dsimp only
  generalize (if (rrepOf pkt.buf).a then
    store pkt.buf 1 (pkt.buf 1 &&& ~~~(bit true 1)) else pkt.buf) = buf
  have hack : ReflTransGen (Quiet e ev) s
      (if (rrepOf pkt.buf).a then rrepAnswerAck e s p else s) ∧
      Kept s (if (rrepOf pkt.buf).a then rrepAnswerAck e s p else s) := by
    split
    · exact ⟨.single (.rrepAck p), (Kept.write s _).trans (Kept.socketSend e _ _ _ _ _)⟩
    · exact ⟨.refl, Kept.refl⟩
  obtain ⟨hack, hsame⟩ := hack
  refine hack.trans ?_
  generalize (if (rrepOf pkt.buf).a then rrepAnswerAck e s p else s) = s₂ at hsame
  have hp₂ : Foreign s₂ p := hp.kept hsame
  split
  · exact quiets_rrepRepaired hp₂.linked wasRepair wasHopcnt
  next horig =>
    cases rev with
    | none => exact .refl
    | some r =>
        obtain ⟨hr, hd⟩ := hrev r rfl
        have hr₂ : Foreign s₂ r := by
          refine ⟨(hsame.keys.linked r).2 hr, ?_⟩
          rw [Daemon.rt, hsame.keys.destAddr]
          exact fun h => horig (hd.symm.trans h)
        dsimp only
        split
        · exact quiets_rrepForward buf (ttl - 1) h ht hlen hr₂ hp₂
        · exact .refl

theorem rrepRoute_keys {s s' : Daemon} {m : RREP} {src : Addr} {p : Ptr} {wasRepair : Bool}
    {wasHopcnt : U8} (hs : WellFormed s)
    (h : rrepRoute e s m src = some (s', p, wasRepair, wasHopcnt)) :
    (s'.rt p).destAddr = m.destAddr ∧
      ∀ q, Linked s.rtTbl q → (s'.rt q).destAddr = (s.rt q).destAddr := by
  rw [rrepRoute] at h
  dsimp only at h
  cases hc : rtTableCheck s.rtTbl m.destAddr with
  | none =>
      rw [hc] at h
      dsimp only at h
      obtain hi | ⟨_, hi⟩ := rtTableInsert_cases e s m.destAddr src (m.hopcnt.setWidth 32 + 1)
        m.destSeqno m.lifetime .valid .zero
      · rw [hi] at h
        cases h
      · rw [hi] at h
        cases h
        let s₀ := s.observe (.rtInsert m.destAddr src (m.hopcnt.setWidth 32 + 1) m.destSeqno
          m.lifetime .valid .zero)
        constructor
        · rw [rt_insertEntry]
          exact congrArg RtEntry.destAddr (rt_linkEntry_self s₀ _)
        · intro q hq
          have hne : q ≠ s₀.brk := by
            rintro rfl
            exact hs.brk_not_linked hq
          rw [rt_insertEntry, rt_linkEntry_ne s₀ _ hne]
          rfl
  | some q =>
      obtain ⟨hq, hd⟩ := rtTableCheck_some hc
      rw [hc] at h
      dsimp only at h
      split at h
      · cases h
        exact ⟨(dest_update e hq _ _ _ _ _ _ p).trans hd,
          fun q' _ => dest_update e hq _ _ _ _ _ _ q'⟩
      · cases h

theorem coarses_rrep {s : Daemon} {pkt : Packet} (ttl : Int) (hs : WellFormed s)
    (h : ev = .recv pkt) (ht : pkt.buf 0 = aodvRrep) :
    ReflTransGen (Coarse e ev) s (rrepProcess e s pkt.buf pkt.len pkt.src ttl) := by
  rw [rrepProcess_eq]
  split
  · exact .refl
  next hlen =>
    have hlen' : rrepSize ≤ pkt.len := Nat.le_of_not_lt hlen
    split
    · exact .refl
    next hne =>
      cases hr : rrepRoute e s (rrepOf pkt.buf) pkt.src with
      | none => exact .refl
      | some o =>
          obtain ⟨s₁, p, wasRepair, wasHopcnt⟩ := o
          obtain ⟨hstep, hp, hkeep⟩ := coarse_rrepRoute h ht hlen' hne hr
          obtain ⟨hdest, hkeys⟩ := rrepRoute_keys hs hr
          have hf : Foreign s₁ p := by
            refine ⟨hp, ?_⟩
            rw [hdest, (coarse_sound hstep hs).ipaddr]
            exact hne
          refine ReflTransGen.head hstep (coarses_of_quiets ?_)
          refine quiets_rrepRest wasRepair wasHopcnt ttl h ht hlen' hf fun r hrev => ?_
          obtain ⟨hl, hd⟩ := rtTableCheck_some hrev
          exact ⟨hkeep r hl, (hkeys r hl).trans hd⟩

structure Pass (e : Env) (ev : Event) (b b' : RerrBuild) : Prop where
  steps : ReflTransGen (Quiet e ev) b.s b'.s
  building : Building b'

theorem Pass.trans {b b' b'' : RerrBuild} (h : Pass e ev b b') (h' : Pass e ev b' b'') :
    Pass e ev b b'' := ⟨h.steps.trans h'.steps, h'.building⟩

theorem pass_of_turn {b b' : RerrBuild} (h : RerrTurn e b b') : Pass e ev b b' :=
  ⟨quiets_of_lbs ev h.steps, h.building⟩

theorem rerrHits_some {s : Daemon} {src : Addr} {udest : Addr × U32} {p : Ptr}
    (h : rerrHits s src udest = some p) : Linked s.rtTbl p ∧ (s.rt p).state = .valid := by
  rw [rerrHits] at h
  cases hc : rtTableCheck s.rtTbl udest.1 with
  | none =>
      rw [hc] at h
      cases h
  | some q =>
      rw [hc] at h
      dsimp only at h
      split at h
      next hv =>
        cases h
        exact ⟨(rtTableCheck_some hc).1, hv.1⟩
      · cases h

theorem turn_report {b : RerrBuild} (hb : Building b) (nodelete : Bool) {p : Ptr}
    (hp : Linked b.s.rtTbl p) : RerrTurn e b (rerrReport b nodelete p) := by
  rw [rerrReport]
  have hlist : RerrTurn e b (if (b.s.rt p).nprecursor ≠ 0 ∧ (b.s.rt p).flags.repair = false then
      rerrList b nodelete p else b) := by
    split
    · exact turn_list hb nodelete hp
    · exact RerrTurn.refl hb
  generalize (if (b.s.rt p).nprecursor ≠ 0 ∧ (b.s.rt p).flags.repair = false then
    rerrList b nodelete p else b) = b₁ at hlist
  split
  next hi => exact hlist.trans (turn_destroy hlist.building (linked_of_lb hlist.steps hp) hi)
  · exact hlist

theorem pass_rerrStep {pkt : Packet} {b : RerrBuild} (nodelete : Bool) (src : Addr)
    {udest : Addr × U32} (h : ev = .recv pkt) (ht : pkt.buf 0 = aodvRerr)
    (hlen : rerrCalcSize (pkt.buf 3) ≤ pkt.len) (hu : udest ∈ listed pkt.buf)
    (hb : Building b) : Pass e ev b (rerrStep e nodelete src b udest) := by
  rw [rerrStep]
  cases hhit : rerrHits b.s src udest with
  | none => exact ⟨.refl, hb⟩
  | some p =>
      obtain ⟨hp, hv⟩ := rerrHits_some hhit
      dsimp only
      have hdown : ReflTransGen (Quiet e ev) b.s
          (if nodelete then b.s else rtTableInvalidate e b.s p) ∧
          Linked (if nodelete then b.s else rtTableInvalidate e b.s p).rtTbl p ∧
          (if nodelete then b.s else rtTableInvalidate e b.s p).sendBuf = b.s.sendBuf := by
        split
        · exact ⟨.refl, hp, rfl⟩
        · exact ⟨.single (.lb (.down hp hv)), ((kept_invalidate e hp).keys.linked p).2 hp,
            sendBuf_invalidate e b.s p⟩
      generalize (if nodelete then b.s else rtTableInvalidate e b.s p) = s₁ at hdown
      obtain ⟨hrun, hp₁, hbuf⟩ := hdown
      let s₂ := (s₁.observe (.rerrSeqno p (s₁.rt p) udest.2)).setRt p
        { s₁.rt p with destSeqno := udest.2 }
      have hset : Quiet e ev s₁ s₂ := .rerrSeqno hp₁ h ht hlen hu
      have hpass : Pass e ev b { b with s := s₂ } := ⟨hrun.tail hset, hb.same rfl hbuf⟩
      have hp₂ : Linked s₂.rtTbl p := hp₁
      exact hpass.trans (pass_of_turn (turn_report hpass.building nodelete hp₂))

theorem pass_foldl {pkt : Packet} (nodelete : Bool) (src : Addr) (h : ev = .recv pkt)
    (ht : pkt.buf 0 = aodvRerr) (hlen : rerrCalcSize (pkt.buf 3) ≤ pkt.len)
    (l : List (Addr × U32)) (hl : ∀ u ∈ l, u ∈ listed pkt.buf) {b : RerrBuild} (hb : Building b) :
    Pass e ev b (l.foldl (rerrStep e nodelete src) b) := by
  induction l generalizing b with
  | nil => exact ⟨.refl, hb⟩
  | cons u l ih =>
      have hstep := pass_rerrStep (e := e) nodelete src h ht hlen (hl u List.mem_cons_self) hb
      exact hstep.trans (ih (fun u' hu' => hl u' (List.mem_cons_of_mem u hu')) hstep.building)

theorem lbs_rerrReply {b : RerrBuild} (hb : Building b) :
    ReflTransGen (Lb e) b.s (rerrReply e b) := by
  rw [rerrReply]
  cases hr : b.rerr with
  | none => exact .refl
  | some m =>
      have hw := hb m hr
      dsimp only
      split
      · cases rtTableCheck b.s.rtTbl b.unicast with
        | none => exact .refl
        | some q => exact .single (.rerrSend m _ _ hw.type hw.carries)
      · exact .single (.rerrSend m _ _ hw.type hw.carries)

theorem quiets_rerr {s : Daemon} {pkt : Packet} (h : ev = .recv pkt) (ht : pkt.buf 0 = aodvRerr) :
    ReflTransGen (Quiet e ev) s (rerrProcess e s pkt.buf pkt.len pkt.src) := by
  rw [rerrProcess]
  split
  · exact .refl
  next hlen =>
    have hbuild : Building ⟨s, none, 0⟩ := by
      rintro m ⟨⟩
    have hpass := pass_foldl (e := e) ((pkt.buf 1).getLsbD 0) pkt.src h ht (Int.not_lt.1 hlen)
      (listed pkt.buf) (fun _ hu => hu) hbuild
    exact hpass.steps.trans (quiets_of_lbs ev (lbs_rerrReply hpass.building))

theorem quiets_rrepAck {s : Daemon} (src : Addr) :
    ReflTransGen (Quiet e ev) s (rrepAckProcess s src) := by
  rw [rrepAckProcess]
  cases hc : rtTableCheck s.rtTbl src with
  | none => exact .refl
  | some p => exact .single (.dropAck (rtTableCheck_some hc).1)

theorem coarses_package {s : Daemon} {pkt : Packet} {ttl : U8} (httl : pkt.ttl = some ttl)
    (hs : WellFormed s) (h : ev = .recv pkt) (hne : pkt.src ≠ s.host.ipaddr) :
    ReflTransGen (Coarse e ev) s
      (aodvSocketPackageProcess e s pkt.buf pkt.len pkt.src pkt.dest ttl.toNat) := by
  have hadd := coarses_neighborAdd (e := e) (s := s) h hne
  have hs₁ := (coarses_sound hadd hs).wellFormed
  refine hadd.trans ?_
  rw [aodvSocketPackageProcess]
  split
  next hrelabel =>
    rw [if_pos (store_apply_self _ _ _)]
    refine coarses_hello h (decide_eq_true (.inr ⟨hrelabel.1, ?_, hrelabel.2.2⟩)) rfl
    rw [httl]
    congr 1
    exact BitVec.eq_of_toNat_eq (Int.ofNat.inj hrelabel.2.1)
  · split
    next ht => exact coarses_hello h (decide_eq_true (.inl ht)) rfl
    · split
      next ht => exact coarses_rreq ttl.toNat hs₁ h ht
      · split
        next ht => exact coarses_rrep ttl.toNat hs₁ h ht
        · split
          next ht => exact coarses_of_quiets (quiets_rerr h ht)
          · split
            · exact coarses_of_quiets (quiets_rrepAck pkt.src)
            · exact .refl

theorem coarses_recv {s : Daemon} {pkt : Packet} (hs : WellFormed s) (h : ev = .recv pkt) :
    ReflTransGen (Coarse e ev) s (aodvSocketRead e s pkt) := by
  rw [aodvSocketRead]
  cases httl : pkt.ttl with
  | none => exact .refl
  | some ttl =>
      dsimp only
      split
      · exact .refl
      next hother => exact coarses_package httl hs h fun he => hother ⟨hs.enabled, he⟩

end Datagrams

end Aodv
