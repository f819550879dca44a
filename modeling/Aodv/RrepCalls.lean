import Aodv.OwnRoute

namespace Aodv.Requests

open Lib.Bytes

/-- A call of rrep_send: the state it is made in, and its arguments. -/
structure SendCall where
  s : Daemon
  rrep : RREP
  rev : Ptr
  fwd : Option Ptr

structure ForwardCall where
  s : Daemon
  buf : Buf
  len : Nat
  rev : Ptr
  fwd : Ptr
  ttl : Int

namespace SendCall

variable (e : Env) (c : SendCall)

/-- The state in which the RREP is handed to aodv_socket_send. -/
def handed : Daemon := rrepUnidir e c.s c.rev

def dest : Addr := ((c.handed e).rt c.rev).nextHop

def after : Daemon := rrepSend e c.s c.rrep c.rev c.fwd rrepSize

def said : Obs :=
  .socketSend (.rrep c.rrep) (c.dest e) rrepSize maxTtl
    (sendOutcome e (c.handed e) (c.dest e) rrepSize).sent

end SendCall

namespace ForwardCall

variable (e : Env) (c : ForwardCall)

def bytes : Buf :=
  let (s, buf) := rrepAskAck e c.s c.buf c.rev
  store buf 3 (s.rt c.fwd).hopcnt

def handed : Daemon :=
  let (s, buf) := rrepAskAck e c.s c.buf c.rev
  let s := aodvSocketQueueMsg s buf c.len
  { s with sendBuf := store s.sendBuf 3 (s.rt c.fwd).hopcnt }

def dest : Addr := ((c.handed e).rt c.rev).nextHop

def after : Daemon := rrepForward e c.s c.buf c.len c.rev c.fwd c.ttl

def said : Obs :=
  .socketSend (.queued (take (c.bytes e) c.len)) (c.dest e) c.len c.ttl
    (sendOutcome e (c.handed e) (c.dest e) c.len).sent

end ForwardCall

def forUsCall (s : Daemon) (m : RREQ) (rev : Ptr) : SendCall :=
  let s := s.observe (.rreqForUs s.host.seqno m.destSeqno)
  let s := { s with host := { s.host with seqno := ownSeqno s.host.seqno m.destSeqno } }
  let (s, rrep) := rrepCreate s false false 0 0 s.host.ipaddr s.host.seqno (s.rt rev).destAddr
    (u32 myRouteTimeout)
  ⟨s, rrep, rev, none⟩

def answerCall (e : Env) (s : Daemon) (rev fwd : Ptr) (now : Timeval) : SendCall :=
  let lifetime := u32 (timevalDiff e.arch (s.timer (.rtTimer fwd)).timeout now)
  let s := s.observe (.answer (s.timer (.rtTimer fwd)).timeout now)
  let (s, rrep) := rrepCreate s false false 0 (s.rt fwd).hopcnt (s.rt fwd).destAddr
    (s.rt fwd).destSeqno (s.rt rev).destAddr lifetime
  ⟨s, rrep, rev, some fwd⟩

def gratuitousCall (s : Daemon) (rev fwd : Ptr) (lifetime : U32) : SendCall :=
  let (s, rrep) := rrepCreate s false false 0 (s.rt rev).hopcnt (s.rt rev).destAddr
    (s.rt rev).destSeqno (s.rt fwd).destAddr lifetime
  ⟨s, rrep, fwd, some rev⟩

def secondCall (e : Env) (s : Daemon) (rev fwd : Ptr) (now : Timeval) : SendCall :=
  gratuitousCall ((answerCall e s rev fwd now).after e) rev fwd
    (u32 (timevalDiff e.arch (s.timer (.rtTimer fwd)).timeout now))

def answerCalls (e : Env) (s : Daemon) (m : RREQ) (rev fwd : Ptr) (now : Timeval) :
    List SendCall :=
  answerCall e s rev fwd now :: if m.g then [secondCall e s rev fwd now] else []

/-- The calls rreq_process makes once the RREQ is accepted. -/
def acceptedCalls (e : Env) (s : Daemon) (m : RREQ) (rev : Ptr) : List SendCall :=
  if m.destAddr = s.host.ipaddr then [forUsCall s m rev]
  else
    match rtTableCheck s.rtTbl m.destAddr with
    | none => []
    | some f =>
        if (s.rt f).state = .valid ∧ m.d = false then
          let now := e.clock s.tick
          let s := s.tock
          if (s.rt f).destSeqno ≠ 0 ∧ BitVec.sle m.destSeqno (s.rt f).destSeqno then
            answerCalls e s m rev f now
          else []
        else []

def rreqCalls (e : Env) (s : Daemon) (buf : Buf) (len : Nat) (src : Addr) : List SendCall :=
  let m := rreqOf buf
  if m.origAddr = s.host.ipaddr then []
  else if len < rreqSize then []
  else if (rreqBlacklistCheck s src).isSome then []
  else if (rreqRecordCheck s m.origAddr m.rreqId).isSome then []
  else
    let s := s.observe (.rreqAccepted m src)
    let s := rreqRecordInsert e s m.origAddr m.rreqId
    match rreqReverse e s m src with
    | (_, none) => []
    | (s, some rev) => acceptedCalls e s m rev

def rrepCalls (e : Env) (s : Daemon) (buf : Buf) (len : Nat) (src : Addr) (ttl : Int) :
    List ForwardCall :=
  let m := rrepOf buf
  if len < rrepSize then []
  else if m.destAddr = s.host.ipaddr then []
  else
    let rev := rtTableCheck s.rtTbl m.origAddr
    match rrepRoute e s m src with
    | none => []
    | some (s, p, _, _) =>
        let s := if m.a then rrepAnswerAck e s p else s
        let buf := if m.a then store buf 1 (buf 1 &&& ~~~(bit true 1)) else buf
        if m.origAddr = s.host.ipaddr then []
        else
          match rev with
          | none => []
          | some r => if (s.rt r).state = .valid then [⟨s, buf, len, r, p, ttl - 1⟩] else []

section Calls

variable {e : Env} {ev : Event} {s s' : Daemon}

theorem rreqForUs_eq (m : RREQ) (rev : Ptr) :
    rreqForUs e s m rev = (forUsCall s m rev).after e := rfl

theorem rreqAnswer_eq (m : RREQ) (rev fwd : Ptr) (now : Timeval) :
    rreqAnswer e s m rev fwd now =
      if m.g then (secondCall e s rev fwd now).after e else (answerCall e s rev fwd now).after e := rfl

def isRrep : Obs → Bool
  | .socketSend (.rrep _) .. => true
  | .socketSend (.queued bytes) .. => decide (bytes.head? = some aodvRrep)
  | _ => false

/-- The RREPs in the history, the youngest first. -/
def rreps (s : Daemon) : List Obs := s.trace.filter isRrep

theorem rreps_said (h : Said (fun o => isRrep o = false) s s') : rreps s' = rreps s := by
  obtain ⟨l, hl, ho⟩ := h
  rw [rreps, hl, List.filter_append, List.filter_eq_nil_iff.2 (by simpa using ho)]
  rfl

def isPassed : Obs → Bool
  | .socketSend (.rrep _) .. => true
  | .socketSend (.queued _) .. => true
  | _ => false

theorem mute_rrep {o : Obs} (h : isPassed o = false) : isRrep o = false := by
  cases o with
  | socketSend msg => cases msg <;> first | rfl | cases h
  | _ => rfl

theorem rreps_mute (h : Said (fun o => isPassed o = false) s s') : rreps s' = rreps s :=
  rreps_said (h.mono fun _ => mute_rrep)

theorem mute_lb {o : Obs} (h : LbObs o) : isPassed o = false := by
  cases h with
  | route h => cases h <;> rfl
  | rerr => rfl

theorem mute_unidir (rev : Ptr) : Said (fun o => isPassed o = false) s (rrepUnidir e s rev) := by
  rw [rrepUnidir]
  split
  · cases hn : rtTableCheck s.rtTbl (s.rt rev).nextHop with
    | none => exact .same rfl
    | some n =>
        dsimp only
        split
        · have hln := (rtTableCheck_some hn).1
          let s₁ := s.observe (.unidirBreak (linkBreakReports s n))
          let s₂ := s₁.setRt n { s.rt n with flags := { (s.rt n).flags with unidir := true } }
          have hobs : Said (fun o => isPassed o = false) s s₂ := .one rfl rfl
          have hbreak := linkBreak_said e (s := pop s₂ (.helloTimer n)) (p := n) hln
          exact hobs.trans (hbreak.mono fun _ => mute_lb)
        · exact .same rfl
  · exact .same rfl

theorem trace_precursorAdd (p : Ptr) (addr : Addr) : (precursorAdd s p addr).trace = s.trace := by
  rw [precursorAdd]
  split <;> rfl

theorem rreps_send (c : SendCall) : rreps (c.after e) = c.said e :: rreps c.s := by
  have hsend : rreps (aodvSocketSend e (c.handed e) (.rrep c.rrep) (c.dest e) rrepSize maxTtl) =
      c.said e :: rreps c.s := by
    change c.said e :: rreps (rrepUnidir e c.s c.rev) = _
    rw [rreps_mute (mute_unidir c.rev)]
  unfold SendCall.after rrepSend
  cases c.fwd with
  | none => exact hsend
  | some f =>
      dsimp only
      rw [rreps, trace_precursorAdd, trace_precursorAdd]
      exact hsend

theorem rreps_answer (m : RREQ) (rev fwd : Ptr) (now : Timeval) :
    rreps (rreqAnswer e s m rev fwd now) =
      ((answerCalls e s m rev fwd now).map (SendCall.said e)).reverse ++ rreps s := by
  have hwrite (s : Daemon) (lifetime : U32) : rreps (gratuitousCall s rev fwd lifetime).s = rreps s :=
    rfl
  have hfirst : rreps ((answerCall e s rev fwd now).after e) =
      (answerCall e s rev fwd now).said e :: rreps s := by
    rw [rreps_send]
    rfl
  rw [rreqAnswer_eq, answerCalls]
  split
  · rw [rreps_send, secondCall, hwrite, hfirst]
    rfl
  · exact hfirst

theorem head_take (b : Buf) {len : Nat} (h : 0 < len) : (take b len).head? = some (b 0) := by
  obtain ⟨n, rfl⟩ := Nat.exists_eq_succ_of_ne_zero (Nat.ne_of_gt h)
  rw [take, List.range_succ_eq_map]
  rfl

theorem rreps_forward {buf : Buf} {len : Nat} (ht : buf 0 = aodvRreq) (hlen : 0 < len) (ttl : Int) :
    rreps (rreqForward e s buf len ttl) = rreps s := by
  apply rreps_said
  refine .one rfl ?_
  rw [isRrep, head_take _ hlen, store_apply_of_ne _ _ _ _ (by decide), ht]
  decide

theorem rreps_passOn {buf : Buf} {len : Nat} (ht : buf 0 = aodvRreq) (hlen : 0 < len) (m : RREQ)
    (fwd : Option Ptr) (ttl : Int) : rreps (rreqPassOn e s buf len m fwd ttl) = rreps s := by
  unfold rreqPassOn
  split
  · cases fwd with
    | none => exact rreps_forward ht hlen _
    | some f =>
        dsimp only
        split
        · refine rreps_forward ?_ hlen _
          rwa [storeBE_apply_of_disjoint _ _ _ _ (by decide)]
        · exact rreps_forward ht hlen _
  · rfl

theorem rreps_accepted {buf : Buf} {len : Nat} (ht : buf 0 = aodvRreq) (hlen : 0 < len) (m : RREQ)
    (rev : Ptr) (ttl : Int) :
    rreps (if m.destAddr = s.host.ipaddr then rreqForUs e s m rev
        else rreqRoute e s buf len m rev ttl) =
      ((acceptedCalls e s m rev).map (SendCall.said e)).reverse ++ rreps s := by
  rw [acceptedCalls]
  split
  · exact rreps_send (forUsCall s m rev)
  · rw [rreqRoute]
    dsimp only
    cases hf : rtTableCheck s.rtTbl m.destAddr with
    | none => exact rreps_passOn ht hlen m none ttl
    | some f =>
        dsimp only
        by_cases hv : (s.rt f).state = .valid ∧ m.d = false
        · rw [if_pos hv, if_pos hv]
          by_cases hq : (s.tock.rt f).destSeqno ≠ 0 ∧ BitVec.sle m.destSeqno (s.tock.rt f).destSeqno
          · rw [if_pos hq, if_pos hq]
            exact rreps_answer m rev f _
          · rw [if_neg hq, if_neg hq]
            exact rreps_passOn ht hlen m (some f) ttl
        · rw [if_neg hv, if_neg hv]
          exact rreps_passOn ht hlen m (some f) ttl

theorem mute_insert (dest next : Addr) (hops seqno lifetime : U32) (state : RtState)
    (flags : RtFlags) : Said (fun o => isPassed o = false) s
      (rtTableInsert e s dest next hops seqno lifetime state flags).1 :=
  insert_told (.of_nl fun _ ho => mute_lb (.route ho.route)) e s rfl

theorem mute_update {p : Ptr} (hp : Linked s.rtTbl p) (next : Addr)
    (hops seqno lifetime : U32) (state : RtState) (flags : RtFlags) :
    Said (fun o => isPassed o = false) s
      (rtTableUpdate e s p next hops seqno lifetime state flags) :=
  update_told (.of_lb fun _ => mute_lb) e hp rfl

theorem mute_record (orig : Addr) (rreqId : U32) :
    Said (fun o => isPassed o = false) s (rreqRecordInsert e s orig rreqId) := by
  rw [rreqRecordInsert]
  split <;> exact .same rfl

theorem mute_reverse (m : RREQ) (src : Addr) :
    Said (fun o => isPassed o = false) s (rreqReverse e s m src).1 := by
  rw [rreqReverse]
  dsimp only
  cases hc : rtTableCheck s.rtTbl m.origAddr with
  | none => exact mute_insert _ _ _ _ _ _ _
  | some p =>
      dsimp only
      split
      · exact mute_update (rtTableCheck_some hc).1 _ _ _ _ _ _
      · exact .same rfl

theorem mute_accept (m : RREQ) (src : Addr) : Said (fun o => isPassed o = false) s (rreqReverse e
    (rreqRecordInsert e (s.observe (.rreqAccepted m src)) m.origAddr m.rreqId) m src).1 := by
  have hobs : Said (fun o => isPassed o = false) s (s.observe (.rreqAccepted m src)) := .one rfl rfl
  exact hobs.trans ((mute_record _ _).trans (mute_reverse m src))

theorem rreps_rreq {buf : Buf} (ht : buf 0 = aodvRreq) (len : Nat) (src : Addr) (ttl : Int) :
    rreps (rreqProcess e s buf len src ttl) =
      ((rreqCalls e s buf len src).map (SendCall.said e)).reverse ++ rreps s := by
  rw [rreqProcess, rreqCalls]
  dsimp only
  split
  · rfl
  · split
    · rfl
    next hlen =>
      split
      · rfl
      · split
        · rfl
        · have hlen' : 0 < len := Nat.lt_of_lt_of_le (by decide) (Nat.le_of_not_lt hlen)
          have hrev := rreps_mute (mute_accept (e := e) (s := s) (rreqOf buf) src)
          generalize rreqReverse e (rreqRecordInsert e (s.observe (.rreqAccepted (rreqOf buf) src))
            (rreqOf buf).origAddr (rreqOf buf).rreqId) (rreqOf buf) src = o at hrev
          obtain ⟨s', _ | rev⟩ := o
          · dsimp only at hrev ⊢
            rw [rreqUnrouted]
            split
            · exact hrev
            · exact (rreps_passOn ht hlen' ..).trans hrev
          · dsimp only at hrev ⊢
            rw [rreps_accepted ht hlen', hrev]

theorem askAck_says (buf : Buf) (rev : Ptr) :
    (rrepAskAck e s buf rev).1.trace = s.trace ∧ (rrepAskAck e s buf rev).2 0 = buf 0 := by
  rw [rrepAskAck]
  cases rrepAckNeighbor s rev with
  | none => exact ⟨rfl, rfl⟩
  | some n =>
      dsimp only
      split
      · exact ⟨rfl, rfl⟩
      · exact ⟨rfl, store_apply_of_ne buf 1 (buf 1 ||| bit true 1) 0 (by decide)⟩

theorem rreps_forwardCall {c : ForwardCall} (ht : c.buf 0 = aodvRrep) (hlen : 0 < c.len) :
    rreps (c.after e) = c.said e :: rreps c.s := by
  obtain ⟨htrace, hbuf⟩ := askAck_says (e := e) (s := c.s) c.buf c.rev
  have htype : c.bytes e 0 = aodvRrep := (store_apply_of_ne _ _ _ _ (by decide)).trans (hbuf.trans ht)
  have hsaid : isRrep (c.said e) = true := by
    rw [ForwardCall.said, isRrep, head_take _ hlen, htype]
    decide
  have hsend : (aodvSocketSend e (c.handed e) (.queued (take (c.bytes e) c.len)) (c.dest e) c.len
      c.ttl).trace = c.said e :: c.s.trace := by
    rw [← htrace]
    rfl
  have hafter : (c.after e).trace = c.said e :: c.s.trace := by
    rw [← hsend, ForwardCall.after, rrepForward]
    dsimp only
    obtain ⟨_, _, hrefresh⟩ := updateTimeout_eq e (precursorAdd (precursorAdd (aodvSocketSend e
      (c.handed e) (.queued (take (c.bytes e) c.len)) (c.dest e) c.len c.ttl) c.fwd (c.dest e)) c.rev
      ((precursorAdd (aodvSocketSend e (c.handed e) (.queued (take (c.bytes e) c.len)) (c.dest e)
      c.len c.ttl) c.fwd (c.dest e)).rt c.fwd).nextHop) c.rev (u32 activeRouteTimeout)
    refine (congrArg Daemon.trace hrefresh).trans ?_
    exact (trace_precursorAdd _ _).trans (trace_precursorAdd _ _)
  rw [rreps, hafter, List.filter_cons_of_pos hsaid]
  rfl

theorem rreps_rrepRoute {m : RREP} {src : Addr} {p : Ptr} {wasRepair : Bool} {wasHopcnt : U8}
    (h : rrepRoute e s m src = some (s', p, wasRepair, wasHopcnt)) : rreps s' = rreps s := by
  rw [rrepRoute] at h
  dsimp only at h
  cases hc : rtTableCheck s.rtTbl m.destAddr with
  | none =>
      have hins := rreps_mute <| mute_insert (e := e) (s := s) m.destAddr src (m.hopcnt.setWidth 32 + 1)
        m.destSeqno m.lifetime .valid .zero
      rw [hc] at h
      dsimp only at h
      generalize rtTableInsert e s m.destAddr src (m.hopcnt.setWidth 32 + 1) m.destSeqno m.lifetime
        .valid .zero = o at h hins
      obtain ⟨s₁, _ | q⟩ := o
      · cases h
      · cases h
        exact hins
  | some q =>
      rw [hc] at h
      dsimp only at h
      split at h
      · cases h
        exact rreps_mute (mute_update (rtTableCheck_some hc).1 _ _ _ _ _ _)
      · cases h

theorem rreps_rrepRepaired (p : Ptr) (wasRepair : Bool) (wasHopcnt : U8) :
    rreps (rrepRepaired e s p wasRepair wasHopcnt) = rreps s := by
  rw [rrepRepaired]
  split
  · dsimp only
    split
    · exact rreps_said (.one rfl rfl)
    · rfl
  · rfl

theorem rreps_rrep {buf : Buf} (ht : buf 0 = aodvRrep) (len : Nat) (src : Addr) (ttl : Int) :
    rreps (rrepProcess e s buf len src ttl) =
      (rrepCalls e s buf len src ttl).map (ForwardCall.said e) ++ rreps s := by
  rw [rrepProcess, rrepCalls]
  dsimp only
  split
  · rfl
  next hlen =>
    split
    · rfl
    · cases hroute : rrepRoute e s (rrepOf buf) src with
      | none => rfl
      | some o =>
          obtain ⟨s₁, p, wasRepair, wasHopcnt⟩ := o
          dsimp only
          have hack : rreps (if (rrepOf buf).a then rrepAnswerAck e s₁ p else s₁) = rreps s := by
            rw [← rreps_rrepRoute hroute]
            split
            · exact rreps_said (.one rfl rfl)
            · rfl
          have htype : (if (rrepOf buf).a then store buf 1 (buf 1 &&& ~~~(bit true 1)) else buf) 0 =
              aodvRrep := by
            split
            · rwa [store_apply_of_ne _ _ _ _ (by decide)]
            · exact ht
          generalize (if (rrepOf buf).a then rrepAnswerAck e s₁ p else s₁) = s₂ at hack
          generalize (if (rrepOf buf).a then store buf 1 (buf 1 &&& ~~~(bit true 1)) else buf) = buf₂
            at htype
          split
          · exact (rreps_rrepRepaired p wasRepair wasHopcnt).trans hack
          · cases rtTableCheck s.rtTbl (rrepOf buf).origAddr with
            | none => exact hack
            | some r =>
                dsimp only
                split
                · have hlen' : 0 < len := Nat.lt_of_lt_of_le (by decide) (Nat.le_of_not_lt hlen)
                  rw [← hack]
                  exact rreps_forwardCall (c := ⟨s₂, buf₂, len, r, p, ttl - 1⟩) htype hlen'
                · exact hack

theorem rreps_neighborRefresh (p : Ptr) (now : Timeval) :
    rreps (neighborRefresh e s p now) = rreps s := by
  rw [neighborRefresh]
  split <;> rfl

theorem rreps_neighborAdd (src : Addr) : rreps (neighborAdd e s src) = rreps s := by
  rw [neighborAdd]
  dsimp only
  cases hc : rtTableCheck s.tock.rtTbl src with
  | none =>
      have hins := rreps_mute <| mute_insert (e := e) (s := s.tock) src src 1 0
        (u32 activeRouteTimeout) .valid .zero
      dsimp only
      generalize rtTableInsert e s.tock src src 1 0 (u32 activeRouteTimeout) .valid .zero = o at hins
      obtain ⟨s₁, _ | p⟩ := o
      · exact hins
      · exact (rreps_neighborRefresh p _).trans hins
  | some p =>
      dsimp only
      split
      · rfl
      · rw [rreps_neighborRefresh]
        exact rreps_mute (mute_update (s := s.tock) (rtTableCheck_some hc).1 _ _ _ _ _ _)

theorem rreps_hello (buf : Buf) : rreps (helloProcess e s buf) = rreps s := by
  rw [helloProcess]
  dsimp only
  cases hc : rtTableCheck s.tock.rtTbl (rrepOf buf).destAddr with
  | none =>
      dsimp only
      have hins := rreps_mute <| mute_insert (e := e) (s := s.tock) (rrepOf buf).destAddr
        (rrepOf buf).destAddr 1
        (rrepOf buf).destSeqno (u32 (allowedHelloLoss * helloInterval + routeTimeoutSlack))
        (if e.receiveNHellos ≠ 0 then .invalid else .valid) .zero
      generalize rtTableInsert e s.tock (rrepOf buf).destAddr (rrepOf buf).destAddr 1
        (rrepOf buf).destSeqno (u32 (allowedHelloLoss * helloInterval + routeTimeoutSlack))
        (if e.receiveNHellos ≠ 0 then .invalid else .valid) .zero = o at hins
      obtain ⟨s₁, _ | p⟩ := o
      · exact hins
      · exact hins
  | some p =>
      dsimp only
      rw [helloKnown]
      dsimp only
      split
      · rfl
      · split
        · rfl
        · exact rreps_mute (mute_update (s := s.tock) (rtTableCheck_some hc).1 _ _ _ _ _ _)

end Calls

/-- The calls of rrep_send that a datagram leads to. -/
def sendCalls (e : Env) (s : Daemon) (pkt : Packet) : List SendCall :=
  if received s.host.ipaddr pkt ∧ pkt.buf 0 = aodvRreq then
    rreqCalls e (neighborAdd e s pkt.src) pkt.buf pkt.len pkt.src
  else []

def forwardCalls (e : Env) (s : Daemon) (pkt : Packet) : List ForwardCall :=
  match pkt.ttl with
  | none => []
  | some ttl =>
      if pkt.src ≠ s.host.ipaddr ∧ pkt.buf 0 = aodvRrep ∧ isHello pkt = false then
        rrepCalls e (neighborAdd e s pkt.src) pkt.buf pkt.len pkt.src ttl.toNat
      else []

section Datagrams

variable {e : Env} {s : Daemon} {pkt : Packet}

theorem step_recv {ttl : U8} (httl : pkt.ttl = some ttl)
    (hne : pkt.src ≠ s.host.ipaddr) : step e s (.recv pkt) =
      aodvSocketPackageProcess e s pkt.buf pkt.len pkt.src pkt.dest ttl.toNat := by
  change aodvSocketRead e s pkt = _
  rw [aodvSocketRead, httl]
  exact if_neg fun h => hne h.2

theorem received_iff {own : Addr} :
    received own pkt = true ↔ (∃ ttl, pkt.ttl = some ttl) ∧ pkt.src ≠ own := by
  rw [received, Bool.and_eq_true, decide_eq_true_iff, Option.isSome_iff_exists]

theorem step_rreq {ttl : U8} (httl : pkt.ttl = some ttl)
    (hne : pkt.src ≠ s.host.ipaddr) (ht : pkt.buf 0 = aodvRreq) : step e s (.recv pkt) =
      rreqProcess e (neighborAdd e s pkt.src) pkt.buf pkt.len pkt.src ttl.toNat := by
  have hno : ¬ (pkt.buf 0 = aodvRrep ∧ (ttl.toNat : Int) = 1 ∧ pkt.dest = aodvBroadcast) := by
    rw [ht]
    exact fun h => absurd h.1 (by decide)
  have hhello : ¬ pkt.buf 0 = aodvHello := by
    rw [ht]
    decide
  rw [step_recv httl hne, aodvSocketPackageProcess, if_neg hno, if_neg hhello, if_pos ht]

theorem isHello_rrep {ttl : U8} (httl : pkt.ttl = some ttl) (ht : pkt.buf 0 = aodvRrep) :
    isHello pkt = true ↔ (ttl.toNat : Int) = 1 ∧ pkt.dest = aodvBroadcast := by
  have hone : pkt.ttl = some 1 ↔ (ttl.toNat : Int) = 1 := by
    rw [httl, Option.some.injEq]
    constructor
    · rintro rfl
      rfl
    · intro h
      exact BitVec.eq_of_toNat_eq (Int.ofNat.inj h)
  have hkind : ¬ aodvRrep = aodvHello := by decide
  rw [isHello, decide_eq_true_iff, ht, hone]
  simp only [hkind, false_or, true_and]

theorem step_rrep {ttl : U8} (httl : pkt.ttl = some ttl)
    (hne : pkt.src ≠ s.host.ipaddr) (ht : pkt.buf 0 = aodvRrep) : step e s (.recv pkt) =
      if isHello pkt then helloProcess e (neighborAdd e s pkt.src) (store pkt.buf 0 aodvHello)
      else rrepProcess e (neighborAdd e s pkt.src) pkt.buf pkt.len pkt.src ttl.toNat := by
  have hhello := isHello_rrep httl ht
  rw [step_recv httl hne, aodvSocketPackageProcess]
  split
  next h =>
    rw [if_pos (store_apply_self _ _ _), if_pos (hhello.2 h.2)]
  next h =>
    have hkind : ¬ pkt.buf 0 = aodvHello ∧ ¬ pkt.buf 0 = aodvRreq := by
      rw [ht]
      decide
    rw [if_neg hkind.1, if_neg hkind.2, if_neg fun hh => h ⟨ht, hhello.1 hh⟩]

/-- The RREPs an RREQ or an RREP leads to are those of the calls, in their order. -/
theorem rreps_step (hs : WellFormed s) (ht : pkt.buf 0 = aodvRreq ∨ pkt.buf 0 = aodvRrep) :
    rreps (step e s (.recv pkt)) = (forwardCalls e s pkt).map (ForwardCall.said e) ++
      (((sendCalls e s pkt).map (SendCall.said e)).reverse ++ rreps s) := by
  by_cases hr : received s.host.ipaddr pkt = true
  · obtain ⟨⟨ttl, httl⟩, hne⟩ := received_iff.1 hr
    rcases ht with ht | ht
    · have hno : ¬ (pkt.src ≠ s.host.ipaddr ∧ pkt.buf 0 = aodvRrep ∧ isHello pkt = false) := by
        rw [ht]
        exact fun h => absurd h.2.1 (by decide)
      rw [step_rreq httl hne ht, rreps_rreq ht, rreps_neighborAdd, sendCalls, if_pos ⟨hr, ht⟩,
        forwardCalls, httl]
      dsimp only
      rw [if_neg hno]
      rfl
    · have hno : ¬ (received s.host.ipaddr pkt = true ∧ pkt.buf 0 = aodvRreq) := by
        rw [ht]
        exact fun h => absurd h.2 (by decide)
      rw [step_rrep httl hne ht, sendCalls, if_neg hno, forwardCalls, httl]
      dsimp only
      cases hh : isHello pkt with
      | true =>
          rw [if_pos rfl, if_neg fun h => Bool.noConfusion h.2.2, rreps_hello, rreps_neighborAdd]
          rfl
      | false =>
          rw [if_neg Bool.false_ne_true, if_pos ⟨hne, ht, rfl⟩, rreps_rrep ht, rreps_neighborAdd]
          rfl
  · have hdropped : received s.host.ipaddr pkt = false := by simpa using hr
    rw [step_dropped e hs hdropped, sendCalls, if_neg fun h => hr h.1, forwardCalls]
    cases httl : pkt.ttl with
    | none => rfl
    | some ttl =>
        have hself : ¬ (pkt.src ≠ s.host.ipaddr ∧ pkt.buf 0 = aodvRrep ∧ isHello pkt = false) :=
          fun h => hr (received_iff.2 ⟨⟨ttl, httl⟩, h.1⟩)
        dsimp only
        rw [if_neg hself]
        rfl

structure SendCall.Sound (c : SendCall) : Prop where
  wellFormed : WellFormed c.s
  rev : Linked c.s.rtTbl c.rev
  orig : (c.s.rt c.rev).destAddr = c.rrep.origAddr
  fwd : ∀ f, c.fwd = some f → Linked c.s.rtTbl f ∧ (c.s.rt f).destAddr = c.rrep.destAddr

structure ForwardCall.Sound (c : ForwardCall) : Prop where
  wellFormed : WellFormed c.s
  rev : Linked c.s.rtTbl c.rev
  fwd : Linked c.s.rtTbl c.fwd
  valid : (c.s.rt c.rev).state = .valid
  orig : (c.s.rt c.rev).destAddr = (rrepOf c.buf).origAddr
  dest : (c.s.rt c.fwd).destAddr = (rrepOf c.buf).destAddr
  type : c.buf 0 = aodvRrep
  len : rrepSize ≤ c.len

theorem sound_forUs (hs : WellFormed s) {rev : Ptr} (hrev : Linked s.rtTbl rev) (m : RREQ) :
    (forUsCall s m rev).Sound := by
  refine ⟨?_, hrev, rfl, ?_⟩
  · exact ⟨hs.table, hs.coherent, hs.owned, hs.armed, hs.fits, hs.seekBelow, hs.seekNodup,
      hs.seekDests, hs.seekSane, hs.recordBelow, hs.blacklistBelow, hs.enabled⟩
  · rintro f ⟨⟩

theorem sound_answer (hs : WellFormed s) {rev fwd : Ptr} (hrev : Linked s.rtTbl rev)
    (hfwd : Linked s.rtTbl fwd) (now : Timeval) : (answerCall e s rev fwd now).Sound := by
  refine ⟨?_, hrev, rfl, ?_⟩
  · exact ((Kept.observe s _).trans (Kept.write _ _)).wellFormed hs
  · rintro f ⟨⟩
    exact ⟨hfwd, rfl⟩

theorem kept_after (c : SendCall) : Kept c.s (c.after e) := kept_rrepSend e c.s c.rrep c.rev c.fwd _

theorem sound_second (hs : WellFormed s) {rev fwd : Ptr} (hrev : Linked s.rtTbl rev)
    (hfwd : Linked s.rtTbl fwd) (now : Timeval) : (secondCall e s rev fwd now).Sound := by
  have hfirst := sound_answer (e := e) hs hrev hfwd now
  have hkept := kept_after (e := e) (answerCall e s rev fwd now)
  have hrev₁ := (hkept.keys.linked rev).2 hfirst.rev
  have hfwd₁ := (hkept.keys.linked fwd).2 (hfirst.fwd fwd rfl).1
  rw [secondCall]
  generalize (answerCall e s rev fwd now).after e = s₁ at hkept hrev₁ hfwd₁
  refine ⟨?_, hfwd₁, rfl, ?_⟩
  · exact (Kept.write s₁ _).wellFormed (hkept.wellFormed hfirst.wellFormed)
  · rintro f ⟨⟩
    exact ⟨hrev₁, rfl⟩

theorem sound_answers (hs : WellFormed s) {rev fwd : Ptr} (hrev : Linked s.rtTbl rev)
    (hfwd : Linked s.rtTbl fwd) (m : RREQ) (now : Timeval) :
    ∀ c ∈ answerCalls e s m rev fwd now, c.Sound := by
  intro c hc
  rcases List.mem_cons.1 hc with rfl | hc
  · exact sound_answer hs hrev hfwd now
  · split at hc
    · rw [List.mem_singleton.1 hc]
      exact sound_second hs hrev hfwd now
    · exact absurd hc List.not_mem_nil

theorem sound_accepted (hs : WellFormed s) {rev : Ptr} (hrev : Linked s.rtTbl rev) (m : RREQ) :
    ∀ c ∈ acceptedCalls e s m rev, c.Sound := by
  intro c hc
  rw [acceptedCalls] at hc
  split at hc
  · rw [List.mem_singleton.1 hc]
    exact sound_forUs hs hrev m
  · cases hf : rtTableCheck s.rtTbl m.destAddr with
    | none =>
        rw [hf] at hc
        exact absurd hc List.not_mem_nil
    | some f =>
        rw [hf] at hc
        dsimp only at hc
        split at hc
        · split at hc
          · exact sound_answers ((Kept.tock s).wellFormed hs) hrev (rtTableCheck_some hf).1 m _ c hc
          · exact absurd hc List.not_mem_nil
        · exact absurd hc List.not_mem_nil

theorem sound_rreqCalls (hs : WellFormed s) (ht : pkt.buf 0 = aodvRreq) :
    ∀ c ∈ rreqCalls e s pkt.buf pkt.len pkt.src, c.Sound := by
  intro c hc
  rw [rreqCalls] at hc
  dsimp only at hc
  split at hc
  · exact absurd hc List.not_mem_nil
  next horig =>
    split at hc
    · exact absurd hc List.not_mem_nil
    next hlen =>
      split at hc
      · exact absurd hc List.not_mem_nil
      · split at hc
        · exact absurd hc List.not_mem_nil
        next hrec =>
          have hnew : rreqRecordCheck s (rreqOf pkt.buf).origAddr (rreqOf pkt.buf).rreqId = none := by
            simpa using hrec
          have hacc := coarse_sound (e := e)
            (.accept (rfl : Event.recv pkt = _) ht horig (Nat.le_of_not_lt hlen) hnew) hs
          obtain ⟨s₁, o, hrev⟩ : ∃ s₁ o, rreqReverse e (rreqRecordInsert e
              (s.observe (.rreqAccepted (rreqOf pkt.buf) pkt.src)) (rreqOf pkt.buf).origAddr
              (rreqOf pkt.buf).rreqId) (rreqOf pkt.buf) pkt.src = (s₁, o) := ⟨_, _, rfl⟩
          rw [hrev] at hc hacc
          cases o with
          | none => exact absurd hc List.not_mem_nil
          | some rev => exact sound_accepted hacc.wellFormed (linked_reverse hrev) _ c hc

theorem wellFormed_neighborAdd (hs : WellFormed s) (hne : pkt.src ≠ s.host.ipaddr) :
    WellFormed (neighborAdd e s pkt.src) :=
  (coarses_sound (coarses_neighborAdd (e := e) (s := s) (rfl : Event.recv pkt = _) hne) hs).wellFormed

theorem sound_sendCalls (hs : WellFormed s) : ∀ c ∈ sendCalls e s pkt, c.Sound := by
  intro c hc
  rw [sendCalls] at hc
  split at hc
  next h => exact sound_rreqCalls (wellFormed_neighborAdd hs (received_iff.1 h.1).2) h.2 c hc
  · exact absurd hc List.not_mem_nil

theorem rrepOf_flags (buf : Buf) (v : U8) :
    (rrepOf (store buf 1 v)).origAddr = (rrepOf buf).origAddr ∧
      (rrepOf (store buf 1 v)).destAddr = (rrepOf buf).destAddr := by
  have hsame (i : Nat) (h : 4 ≤ i) : store buf 1 v i = buf i :=
    store_apply_of_ne buf 1 v i (by omega)
  constructor
  · apply loadLE_congr
    intro i h _
    exact hsame i (by omega)
  · apply loadLE_congr
    intro i h _
    exact hsame i h

theorem sound_rrepCalls (hs : WellFormed s) (ht : pkt.buf 0 = aodvRrep) (ttl : Int) :
    ∀ c ∈ rrepCalls e s pkt.buf pkt.len pkt.src ttl, c.Sound := by
  intro c hc
  rw [rrepCalls] at hc
  dsimp only at hc
  split at hc
  · exact absurd hc List.not_mem_nil
  next hlen =>
    split at hc
    · exact absurd hc List.not_mem_nil
    next hne =>
      cases hroute : rrepRoute e s (rrepOf pkt.buf) pkt.src with
      | none =>
          rw [hroute] at hc
          exact absurd hc List.not_mem_nil
      | some o =>
          obtain ⟨s₁, p, wasRepair, wasHopcnt⟩ := o
          have hlen' : rrepSize ≤ pkt.len := Nat.le_of_not_lt hlen
          obtain ⟨hstep, hp, hkeep⟩ := coarse_rrepRoute (rfl : Event.recv pkt = _) ht hlen' hne hroute
          obtain ⟨hdest, hkeys⟩ := rrepRoute_keys hs hroute
          have hs₁ := (coarse_sound hstep hs).wellFormed
          rw [hroute] at hc
          dsimp only at hc
          have hack : Kept s₁ (if (rrepOf pkt.buf).a then rrepAnswerAck e s₁ p else s₁) := by
            split
            · exact (Kept.write s₁ _).trans (Kept.socketSend e _ _ _ _ _)
            · exact Kept.refl
          have hbuf : (if (rrepOf pkt.buf).a then
                store pkt.buf 1 (pkt.buf 1 &&& ~~~(bit true 1)) else pkt.buf) = pkt.buf ∨
              (if (rrepOf pkt.buf).a then
                store pkt.buf 1 (pkt.buf 1 &&& ~~~(bit true 1)) else pkt.buf) =
                  store pkt.buf 1 (pkt.buf 1 &&& ~~~(bit true 1)) := by
            split
            · exact .inr rfl
            · exact .inl rfl
          generalize (if (rrepOf pkt.buf).a then rrepAnswerAck e s₁ p else s₁) = s₂ at hc hack
          generalize (if (rrepOf pkt.buf).a then
            store pkt.buf 1 (pkt.buf 1 &&& ~~~(bit true 1)) else pkt.buf) = buf at hc hbuf
          have hmsg : (rrepOf buf).origAddr = (rrepOf pkt.buf).origAddr ∧
              (rrepOf buf).destAddr = (rrepOf pkt.buf).destAddr ∧ buf 0 = aodvRrep := by
            rcases hbuf with rfl | rfl
            · exact ⟨rfl, rfl, ht⟩
            · obtain ⟨horig, hdest⟩ := rrepOf_flags pkt.buf (pkt.buf 1 &&& ~~~(bit true 1))
              exact ⟨horig, hdest, (store_apply_of_ne _ _ _ _ (by decide)).trans ht⟩
          split at hc
          · exact absurd hc List.not_mem_nil
          · cases hrev : rtTableCheck s.rtTbl (rrepOf pkt.buf).origAddr with
            | none =>
                rw [hrev] at hc
                exact absurd hc List.not_mem_nil
            | some r =>
                obtain ⟨hr, hd⟩ := rtTableCheck_some hrev
                rw [hrev] at hc
                dsimp only at hc
                split at hc
                next hv =>
                  rw [List.mem_singleton.1 hc]
                  refine ⟨hack.wellFormed hs₁, ?_, ?_, hv, ?_, ?_, hmsg.2.2, hlen'⟩
                  · exact (hack.keys.linked r).2 (hkeep r hr)
                  · exact (hack.keys.linked p).2 hp
                  · rw [hmsg.1, ← hd]
                    exact (hack.keys.destAddr r).trans (hkeys r hr)
                  · rw [hmsg.2.1, ← hdest]
                    exact hack.keys.destAddr p
                · exact absurd hc List.not_mem_nil

theorem sound_forwardCalls (hs : WellFormed s) : ∀ c ∈ forwardCalls e s pkt, c.Sound := by
  intro c hc
  rw [forwardCalls] at hc
  cases httl : pkt.ttl with
  | none =>
      rw [httl] at hc
      exact absurd hc List.not_mem_nil
  | some ttl =>
      rw [httl] at hc
      dsimp only at hc
      split at hc
      next h => exact sound_rrepCalls (wellFormed_neighborAdd hs h.1) h.2.1 _ c hc
      · exact absurd hc List.not_mem_nil

end Datagrams

end Aodv.Requests
