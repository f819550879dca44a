import Aodv.Circular
import Aodv.ReceivedRerr

namespace Aodv.RreqOutcome

open Lib.Bytes Requests HashTable ReceivedRerr

/-- A call of rreq_forward: the state it is made in, and its arguments. -/
structure RelayCall where
  s : Daemon
  buf : Buf
  len : Nat
  ttl : Int

namespace RelayCall

variable (e : Env) (c : RelayCall)

/-- The state in which the RREQ is handed to aodv_socket_send. -/
def handed : Daemon :=
  let s := aodvSocketQueueMsg c.s c.buf c.len
  { s with sendBuf := store s.sendBuf 3 (s.sendBuf 3 + 1) }

def said : Obs :=
  .socketSend (.queued (take (store c.buf 3 (c.buf 3 + 1)) c.len)) aodvBroadcast c.len c.ttl
    (sendOutcome e c.handed aodvBroadcast c.len).sent

end RelayCall

def passOnBuf (s : Daemon) (buf : Buf) (m : RREQ) (fwd : Option Ptr) : Buf :=
  match fwd with
  | none => buf
  | some f =>
      if (s.rt f).flags.inetDest = false ∧ BitVec.slt m.destSeqno (s.rt f).destSeqno then
        storeBE buf 12 (s.rt f).destSeqno
      else buf

def passOnCalls (s : Daemon) (buf : Buf) (len : Nat) (m : RREQ) (fwd : Option Ptr) (ttl : Int) :
    List RelayCall :=
  if 1 < ttl then [⟨s, passOnBuf s buf m fwd, len, ttl - 1⟩] else []

def routeRelays (s : Daemon) (buf : Buf) (len : Nat) (m : RREQ) (ttl : Int) : List RelayCall :=
  let fwd := rtTableCheck s.rtTbl m.destAddr
  match fwd with
  | none => passOnCalls s buf len m fwd ttl
  | some f =>
      if (s.rt f).state = .valid ∧ m.d = false then
        let s := s.tock
        if (s.rt f).destSeqno ≠ 0 ∧ BitVec.sle m.destSeqno (s.rt f).destSeqno then []
        else passOnCalls s buf len m fwd ttl
      else passOnCalls s buf len m fwd ttl

def rreqRelays (e : Env) (s : Daemon) (buf : Buf) (len : Nat) (src : Addr) (ttl : Int) :
    List RelayCall :=
  let m := rreqOf buf
  if m.origAddr = s.host.ipaddr then []
  else if len < rreqSize then []
  else if (rreqBlacklistCheck s src).isSome then []
  else if (rreqRecordCheck s m.origAddr m.rreqId).isSome then []
  else
    let s := s.observe (.rreqAccepted m src)
    let s := rreqRecordInsert e s m.origAddr m.rreqId
    match rreqReverse e s m src with
    | (s, none) =>
        if m.destAddr = s.host.ipaddr then []
        else passOnCalls s buf len m (rtTableCheck s.rtTbl m.destAddr) ttl
    | (s, some _) =>
        if m.destAddr = s.host.ipaddr then [] else routeRelays s buf len m ttl

section History

variable {e : Env} {s s' : Daemon} {buf : Buf} {len : Nat} {m : RREQ}

def isRelay : Obs → Bool
  | .socketSend (.queued bytes) .. => decide (bytes.head? = some aodvRreq)
  | _ => false

/-- The RREQs in the history that are passed on, the youngest first. -/
def relays (s : Daemon) : List Obs := s.trace.filter isRelay

theorem relays_said (h : Said (fun o => isRelay o = false) s s') : relays s' = relays s := by
  obtain ⟨l, hl, ho⟩ := h
  rw [relays, hl, List.filter_append, List.filter_eq_nil_iff.2 (by simpa using ho)]
  rfl

theorem mute_relay {o : Obs} (h : isPassed o = false) : isRelay o = false := by
  cases o with
  | socketSend msg => cases msg <;> first | rfl | cases h
  | _ => rfl

theorem passOnBuf_type (s : Daemon) (buf : Buf) (m : RREQ) (fwd : Option Ptr) :
    passOnBuf s buf m fwd 0 = buf 0 := by
  cases fwd with
  | none => rfl
  | some f =>
      unfold passOnBuf
      dsimp only
      split
      · exact storeBE_apply_of_disjoint _ _ _ _ (by decide)
      · rfl

theorem isRelay_said {c : RelayCall} (ht : c.buf 0 = aodvRreq) (hlen : 0 < c.len) :
    isRelay (c.said e) = true := by
  rw [RelayCall.said, isRelay, head_take _ hlen, store_apply_of_ne _ _ _ _ (by decide), ht]
  decide

theorem relays_passOn (ht : buf 0 = aodvRreq) (hlen : 0 < len) (m : RREQ) (fwd : Option Ptr)
    (ttl : Int) : relays (rreqPassOn e s buf len m fwd ttl) =
      (passOnCalls s buf len m fwd ttl).map (RelayCall.said e) ++ relays s := by
  have hcall : rreqPassOn e s buf len m fwd ttl =
      if 1 < ttl then rreqForward e s (passOnBuf s buf m fwd) len (ttl - 1) else s := by
    unfold rreqPassOn
    cases fwd <;> rfl
  rw [hcall, passOnCalls]
  split
  · have hrelay := isRelay_said (e := e) (c := ⟨s, passOnBuf s buf m fwd, len, ttl - 1⟩)
      ((passOnBuf_type s buf m fwd).trans ht) hlen
    exact List.filter_cons_of_pos hrelay
  · rfl

theorem relays_send (c : SendCall) : relays (c.after e) = relays c.s := by
  have hunidir := relays_said ((mute_unidir (e := e) (s := c.s) c.rev).mono fun _ => mute_relay)
  unfold SendCall.after rrepSend
  cases c.fwd with
  | none => exact hunidir
  | some f =>
      dsimp only
      rw [relays, trace_precursorAdd, trace_precursorAdd]
      exact hunidir

theorem relays_answer (m : RREQ) (rev fwd : Ptr) (now : Timeval) :
    relays (rreqAnswer e s m rev fwd now) = relays s := by
  have hwrite (s : Daemon) (lifetime : U32) :
      relays (gratuitousCall s rev fwd lifetime).s = relays s := rfl
  have hfirst : relays ((answerCall e s rev fwd now).after e) = relays s := by
    rw [relays_send]
    rfl
  rw [rreqAnswer_eq]
  split
  · rw [relays_send, secondCall, hwrite, hfirst]
  · exact hfirst

theorem relays_route (ht : buf 0 = aodvRreq) (hlen : 0 < len) (m : RREQ) (rev : Ptr) (ttl : Int) :
    relays (rreqRoute e s buf len m rev ttl) =
      (routeRelays s buf len m ttl).map (RelayCall.said e) ++ relays s := by
  rw [rreqRoute, routeRelays]
  cases rtTableCheck s.rtTbl m.destAddr with
  | none => exact relays_passOn ht hlen m none ttl
  | some f =>
      dsimp only
      by_cases hv : (s.rt f).state = .valid ∧ m.d = false
      · rw [if_pos hv, if_pos hv]
        by_cases hq : (s.tock.rt f).destSeqno ≠ 0 ∧ BitVec.sle m.destSeqno (s.tock.rt f).destSeqno
        · rw [if_pos hq, if_pos hq]
          exact relays_answer m rev f _
        · rw [if_neg hq, if_neg hq]
          exact relays_passOn ht hlen m (some f) ttl
      · rw [if_neg hv, if_neg hv]
        exact relays_passOn ht hlen m (some f) ttl

theorem relays_rreq (ht : buf 0 = aodvRreq) (len : Nat) (src : Addr) (ttl : Int) :
    relays (rreqProcess e s buf len src ttl) =
      (rreqRelays e s buf len src ttl).map (RelayCall.said e) ++ relays s := by
  rw [rreqProcess, rreqRelays]
  dsimp only
  split
  · rfl
  · split
    · rfl
    next hlen =>
      split
      · rfl
      · split
        · rfl
        · have hlen' : 0 < len := Nat.lt_of_lt_of_le (by decide) (Nat.le_of_not_lt hlen)
          have hrev := relays_said ((mute_accept (e := e) (s := s) (rreqOf buf) src).mono
            fun _ => mute_relay)
          generalize rreqReverse e (rreqRecordInsert e (s.observe (.rreqAccepted (rreqOf buf) src))
            (rreqOf buf).origAddr (rreqOf buf).rreqId) (rreqOf buf) src = o at hrev
          obtain ⟨s', _ | rev⟩ := o
          · dsimp only at hrev ⊢
            rw [rreqUnrouted]
            split
            · exact hrev
            · rw [relays_passOn ht hlen', hrev]
          · dsimp only at hrev ⊢
            split
            · rw [rreqForUs_eq, relays_send]
              exact hrev
            · rw [relays_route ht hlen', hrev]

end History

/-- There is an entry p for d, and rt_table_check can find it. -/
structure Holds (s : Daemon) (d : Addr) (p : Ptr) : Prop where
  full : ¬ Full s.rtTbl
  linked : Linked s.rtTbl p
  dest : (s.rt p).destAddr = d

/-- The table has an answer to the RREQ, and the d flag permits it. -/
def Answerable (s : Daemon) (m : RREQ) : Prop :=
  m.d = false ∧ ∃ p, Holds s m.destAddr p ∧ (s.rt p).state = .valid ∧ (s.rt p).destSeqno ≠ 0 ∧
    BitVec.sle m.destSeqno (s.rt p).destSeqno

structure Tells (c : SendCall) (subject dest : Addr) : Prop where
  subject : c.rrep.destAddr = subject
  linked : Linked c.s.rtTbl c.rev
  dest : (c.s.rt c.rev).destAddr = dest

/-- The originator is told about the destination, and if the g flag asks for it
the destination about the originator. -/
def Replied (m : RREQ) (calls : List SendCall) : Prop :=
  ∃ c, Tells c m.destAddr m.origAddr ∧
    if m.g then ∃ c', Tells c' m.origAddr m.destAddr ∧ calls = [c, c'] else calls = [c]

/-- The largest of the number asked for and those of the entries for the destination
that are no Internet destinations. -/
structure Largest (s : Daemon) (m : RREQ) (seqno : U32) : Prop where
  known : seqno = m.destSeqno ∨ ∃ p, Holds s m.destAddr p ∧ (s.rt p).flags.inetDest = false ∧
    seqno = (s.rt p).destSeqno
  asked : BitVec.sle m.destSeqno seqno
  held : ∀ p, Holds s m.destAddr p → (s.rt p).flags.inetDest = false →
    BitVec.sle (s.rt p).destSeqno seqno

structure PassesOn (s : Daemon) (pkt : Packet) (ttl : Int) (c : RelayCall) : Prop where
  ttl : c.ttl = ttl - 1
  len : c.len = pkt.len
  destSeqno : Largest s (rreqOf pkt.buf) (rreqOf c.buf).destSeqno
  others : ∀ i, i < 12 ∨ 16 ≤ i → c.buf i = pkt.buf i

def Relayed (s : Daemon) (pkt : Packet) (ttl : Int) (calls : List RelayCall) : Prop :=
  if 1 < ttl then ∃ c, PassesOn s pkt ttl c ∧ calls = [c] else calls = []

/-- The state in which rreq_process looks the destination up. -/
def reversed (e : Env) (s : Daemon) (pkt : Packet) : Daemon :=
  (rreqReverse e (recorded e s pkt) (rreqOf pkt.buf) pkt.src).1

section Outcome

variable {e : Env} {s s' : Daemon} {pkt : Packet} {m : RREQ} {p rev : Ptr} {d : Addr}

theorem holds_iff (hs : WellFormed s) : Holds s d p ↔ rtTableCheck s.rtTbl d = some p := by
  constructor
  · intro h
    exact (rtTableCheck_eq_some hs.table h.full).2 ⟨h.linked, h.dest⟩
  · intro h
    have hfull : ¬ Full s.rtTbl := by
      intro hfull
      rw [rtTableCheck, if_pos (numEntries_full hs.table hfull)] at h
      cases h
    obtain ⟨hl, hd⟩ := rtTableCheck_some h
    exact ⟨hfull, hl, hd⟩

theorem answerable_iff (hs : WellFormed s) : Answerable s m ↔ ∃ f, answersFrom s m = some f := by
  simp only [Answerable, holds_iff hs, answersFrom_some]
  constructor
  · rintro ⟨hd, f, hf, hv, hn, hle⟩
    exact ⟨f, hf, hv, hd, hn, hle⟩
  · rintro ⟨f, hf, hv, hd, hn, hle⟩
    exact ⟨hd, f, hf, hv, hn, hle⟩

theorem replied_answers (hrev : Linked s.rtTbl rev)
    (hd : (s.rt rev).destAddr = m.origAddr) {f : Ptr}
    (hf : rtTableCheck s.rtTbl m.destAddr = some f) (now : Timeval) :
    Replied m (answerCalls e s m rev f now) := by
  obtain ⟨hlf, hdf⟩ := rtTableCheck_some hf
  refine ⟨answerCall e s rev f now, ⟨hdf, hrev, hd⟩, ?_⟩
  have hkeys : SameKeys s.rtTbl ((answerCall e s rev f now).after e).rtTbl :=
    (kept_after (e := e) (answerCall e s rev f now)).keys
  have hsecond : Tells (secondCall e s rev f now) m.origAddr m.destAddr := by
    rw [secondCall]
    generalize (answerCall e s rev f now).after e = s₁ at hkeys
    exact ⟨(hkeys.destAddr rev).trans hd, (hkeys.linked f).2 hlf, (hkeys.destAddr f).trans hdf⟩
  rw [answerCalls]
  split
  · exact ⟨_, hsecond, rfl⟩
  · rfl

/-- The call is made with the table the destination was looked up in. -/
theorem relayed_passOn (hs : WellFormed s) (htbl : s'.rtTbl = s.rtTbl) (ttl : Int) :
    Relayed s pkt ttl (passOnCalls s' pkt.buf pkt.len (rreqOf pkt.buf)
      (rtTableCheck s.rtTbl (rreqOf pkt.buf).destAddr) ttl) := by
  have hrt (q : Ptr) : s'.rt q = s.rt q := by simp only [Daemon.rt, htbl]
  have hself (x : U32) : BitVec.sle x x = true := BitVec.sle_iff_toInt_le.2 (Int.le_refl _)
  rw [Relayed, passOnCalls]
  split
  · refine ⟨_, ⟨rfl, rfl, ?_, ?_⟩, rfl⟩
    · cases hf : rtTableCheck s.rtTbl (rreqOf pkt.buf).destAddr with
      | none =>
          refine ⟨.inl rfl, hself _, fun p hp _ => ?_⟩
          rw [holds_iff hs, hf] at hp
          cases hp
      | some f =>
          have honly (p : Ptr) (hp : Holds s (rreqOf pkt.buf).destAddr p) : p = f := by
            rw [holds_iff hs, hf] at hp
            cases hp
            rfl
          unfold passOnBuf
          dsimp only
          rw [hrt]
          split
          next hlarger =>
            rw [rreqOf_destSeqno]
            refine ⟨.inr ⟨f, (holds_iff hs).2 hf, hlarger.1, rfl⟩, ?_, fun p hp _ => ?_⟩
            · exact BitVec.sle_iff_toInt_le.2 (Int.le_of_lt (BitVec.slt_iff_toInt_lt.1 hlarger.2))
            · rw [honly p hp]
              exact hself _
          next hlarger =>
            refine ⟨.inl rfl, hself _, fun p hp hinet => ?_⟩
            rw [honly p hp] at hinet ⊢
            rw [BitVec.sle_eq_not_slt, Bool.not_eq_true']
            exact Bool.eq_false_iff.2 fun hlt => hlarger ⟨hinet, hlt⟩
    · intro i hi
      cases rtTableCheck s.rtTbl (rreqOf pkt.buf).destAddr with
      | none => rfl
      | some f =>
          unfold passOnBuf
          dsimp only
          split
          · exact storeBE_apply_of_disjoint _ _ _ _ (by omega)
          · rfl
  · rfl

theorem route_answered (h : answersFrom s m ≠ none) (buf : Buf) (len : Nat) (ttl : Int) :
    routeRelays s buf len m ttl = [] := by
  obtain ⟨f, hf⟩ := Option.ne_none_iff_exists'.1 h
  obtain ⟨hc, hv, hd, hq⟩ := answersFrom_some.1 hf
  have hq' : (s.tock.rt f).destSeqno ≠ 0 ∧ BitVec.sle m.destSeqno (s.tock.rt f).destSeqno = true := hq
  rw [routeRelays, hc]
  dsimp only
  rw [if_pos ⟨hv, hd⟩, if_pos hq']

theorem route_unanswered (h : answersFrom s m = none) (buf : Buf) (len : Nat) (ttl : Int) :
    ∃ s', s'.rtTbl = s.rtTbl ∧ routeRelays s buf len m ttl =
      passOnCalls s' buf len m (rtTableCheck s.rtTbl m.destAddr) ttl := by
  rw [routeRelays]
  cases hc : rtTableCheck s.rtTbl m.destAddr with
  | none => exact ⟨s, rfl, rfl⟩
  | some f =>
      dsimp only
      split
      next hv =>
        rw [if_neg]
        · exact ⟨s.tock, rfl, rfl⟩
        · intro hq
          rw [answersFrom_some.2 ⟨hc, hv.1, hv.2, hq⟩] at h
          cases h
      · exact ⟨s, rfl, rfl⟩

theorem accepted_outcome (hs : WellFormed s) (hrev : Linked s.rtTbl rev)
    (horig : (s.rt rev).destAddr = (rreqOf pkt.buf).origAddr)
    (hne : (rreqOf pkt.buf).destAddr ≠ s.host.ipaddr) (ttl : Int) :
    (Answerable s (rreqOf pkt.buf) →
        Replied (rreqOf pkt.buf) (acceptedCalls e s (rreqOf pkt.buf) rev) ∧
          routeRelays s pkt.buf pkt.len (rreqOf pkt.buf) ttl = []) ∧
      (¬ Answerable s (rreqOf pkt.buf) → acceptedCalls e s (rreqOf pkt.buf) rev = [] ∧
        Relayed s pkt ttl (routeRelays s pkt.buf pkt.len (rreqOf pkt.buf) ttl)) := by
  rw [answerable_iff hs, accepted_answers hne]
  constructor
  · rintro ⟨f, hf⟩
    have hanswer := answersFrom_some.1 hf
    refine ⟨?_, route_answered ?_ _ _ _⟩
    · rw [hf]
      exact replied_answers (s := s.tock) hrev horig hanswer.1 _
    · rw [hf]
      exact Option.some_ne_none f
  · intro hno
    have hnone : answersFrom s (rreqOf pkt.buf) = none :=
      Option.eq_none_iff_forall_ne_some.2 fun f hf => hno ⟨f, hf⟩
    obtain ⟨s', htbl, heq⟩ := route_unanswered hnone pkt.buf pkt.len ttl
    rw [hnone, heq]
    exact ⟨rfl, relayed_passOn hs htbl ttl⟩

theorem relays_accepted (h : Accepts s pkt) (ttl : Int) :
    rreqRelays e s pkt.buf pkt.len pkt.src ttl =
      match rreqReverse e (recorded e s pkt) (rreqOf pkt.buf) pkt.src with
      | (s, none) =>
          if (rreqOf pkt.buf).destAddr = s.host.ipaddr then []
          else passOnCalls s pkt.buf pkt.len (rreqOf pkt.buf)
            (rtTableCheck s.rtTbl (rreqOf pkt.buf).destAddr) ttl
      | (s, some _) =>
          if (rreqOf pkt.buf).destAddr = s.host.ipaddr then []
          else routeRelays s pkt.buf pkt.len (rreqOf pkt.buf) ttl := by
  have hlen : ¬ pkt.len < rreqSize := Nat.not_lt.2 h.length
  simp only [rreqRelays, if_neg h.foreign, if_neg hlen, h.blacklist, h.new]
  rfl

theorem reverse_none {src : Addr} (h : rreqReverse e s m src = (s', none)) : s' = s := by
  rw [rreqReverse] at h
  dsimp only at h
  cases hc : rtTableCheck s.rtTbl m.origAddr with
  | none =>
      rw [hc] at h
      dsimp only at h
      obtain hno | ⟨-, hcase⟩ := rtTableInsert_cases e s m.origAddr src (m.hopcnt.setWidth 32 + 1)
        m.origSeqno (rreqLife (m.hopcnt.setWidth 32 + 1)) .valid .zero
      · rw [hno] at h
        exact (Prod.mk.inj h).1.symm
      · rw [hcase] at h
        cases (Prod.mk.inj h).2
  | some p =>
      rw [hc] at h
      dsimp only at h
      split at h <;> cases (Prod.mk.inj h).2

theorem reverse_full (hs : WellFormed s) (hfull : Full s.rtTbl) (hp : Linked s.rtTbl p)
    (hd : (s.rt p).destAddr = m.origAddr) (src : Addr) : rreqReverse e s m src = (s, none) := by
  have hnone : rtTableCheck s.rtTbl m.origAddr = none := by
    rw [rtTableCheck, if_pos (numEntries_full hs.table hfull)]
  obtain ⟨i, hi⟩ := hp
  have hbucket : i = hashing m.origAddr := by
    rw [← hd]
    exact ((hs.table.bucket i p hi).1).symm
  rw [rreqReverse, hnone]
  dsimp only
  rw [rtTableInsert, if_pos]
  exact List.any_eq_true.2 ⟨p, hbucket ▸ hi, decide_eq_true hd⟩

/-- An accepted RREQ for another node is answered or passed on, never both, and
what is done then is all in the history. -/
theorem one_outcome (hs : WellFormed s) (h : Accepts s pkt)
    (hne : (rreqOf pkt.buf).destAddr ≠ s.host.ipaddr) (ttl : Int) :
    ((Answerable (reversed e s pkt) (rreqOf pkt.buf) →
        Replied (rreqOf pkt.buf) (rreqCalls e s pkt.buf pkt.len pkt.src) ∧
          rreqRelays e s pkt.buf pkt.len pkt.src ttl = []) ∧
      (¬ Answerable (reversed e s pkt) (rreqOf pkt.buf) →
        rreqCalls e s pkt.buf pkt.len pkt.src = [] ∧
          Relayed (reversed e s pkt) pkt ttl (rreqRelays e s pkt.buf pkt.len pkt.src ttl))) ∧
      rreps (rreqProcess e s pkt.buf pkt.len pkt.src ttl) =
        ((rreqCalls e s pkt.buf pkt.len pkt.src).map (SendCall.said e)).reverse ++ rreps s ∧
      relays (rreqProcess e s pkt.buf pkt.len pkt.src ttl) =
        (rreqRelays e s pkt.buf pkt.len pkt.src ttl).map (RelayCall.said e) ++ relays s := by
  refine ⟨?_, rreps_rreq h.type _ _ _, relays_rreq h.type _ _ _⟩
  have hsound := coarse_sound (e := e)
    (.accept (rfl : Event.recv pkt = _) h.type h.foreign h.length h.new) hs
  change Sound s (rreqReverse e (recorded e s pkt) (rreqOf pkt.buf) pkt.src).1 at hsound
  rw [reversed, calls_accepted h, relays_accepted h]
  obtain ⟨s₁, o, hrev⟩ : ∃ s₁ o,
      rreqReverse e (recorded e s pkt) (rreqOf pkt.buf) pkt.src = (s₁, o) := ⟨_, _, rfl⟩
  rw [hrev] at hsound ⊢
  have hne₁ : (rreqOf pkt.buf).destAddr ≠ s₁.host.ipaddr := by rwa [hsound.ipaddr]
  cases o with
  | some rev =>
      dsimp only
      rw [if_neg hne₁]
      exact accepted_outcome hsound.wellFormed (linked_reverse hrev) (dest_reverse hrev) hne₁ ttl
  | none =>
      -- the table is full, so nothing is found in it
      dsimp only
      rw [if_neg hne₁]
      have hfull : Full s₁.rtTbl := by
        by_contra hfull
        rw [reverse_none hrev] at hfull
        obtain ⟨s₂, rev, hsome⟩ :=
          reverse_some (e := e) (wellFormed_recorded e pkt hs) hfull (rreqOf pkt.buf) pkt.src
        rw [hsome] at hrev
        cases (Prod.mk.inj hrev).2
      constructor
      · rintro ⟨-, p, hp, -⟩
        exact absurd hfull hp.full
      · intro _
        exact ⟨rfl, relayed_passOn hsound.wellFormed rfl ttl⟩

end Outcome

def question : Packet :=
  .of (.rreq ⟨false, false, true, false, false, 0, 7, 0x0300000a, 5, 0x0400000a, 9⟩) 0x0400000a
    aodvBroadcast 5 (fits_rreq _)

theorem one_outcome_gratuitous :
    Replied (rreqOf question.buf) (rreqCalls plain boundary question.buf question.len question.src) ∧
      rreqRelays plain boundary question.buf question.len question.src 5 = [] := by
  have hpkt : Accepts boundary question := by
    constructor <;> decide +kernel
  have hw : WellFormed (reversed plain boundary question) :=
    (coarse_sound (e := plain) (.accept (rfl : Event.recv question = _) hpkt.type hpkt.foreign
      hpkt.length hpkt.new) wellFormed_boundary).wellFormed
  have hyes : Answerable (reversed plain boundary question) (rreqOf question.buf) :=
    (answerable_iff hw).2 ⟨2, by decide +kernel⟩
  exact (one_outcome wellFormed_boundary hpkt (by decide +kernel) 5).1.1 hyes

/-- In a table with an entry for every address there is a fresh route to the
destination, but nothing is found. -/
theorem full_table_unanswered : ¬ ∀ (e : Env) (s : Daemon) (pkt : Packet), WellFormed s →
    Accepts s pkt → (rreqOf pkt.buf).destAddr ≠ s.host.ipaddr → (rreqOf pkt.buf).d = false →
    (∃ p, Linked (reversed e s pkt).rtTbl p ∧
      ((reversed e s pkt).rt p).destAddr = (rreqOf pkt.buf).destAddr ∧
      ((reversed e s pkt).rt p).state = .valid ∧ ((reversed e s pkt).rt p).destSeqno ≠ 0 ∧
      BitVec.sle (rreqOf pkt.buf).destSeqno ((reversed e s pkt).rt p).destSeqno) →
    rreqCalls e s pkt.buf pkt.len pkt.src ≠ [] := by
  intro hall
  obtain ⟨s, ds, honehop, hfull, hroute⟩ := full_one_hop 5
  have hs := honehop.wellFormed
  have hpkt : Accepts s question := by
    constructor
    · decide +kernel
    · rw [honehop.ipaddr]
      decide +kernel
    · decide +kernel
    · rw [rreqBlacklistCheck, honehop.blacklists]
      rfl
    · rw [rreqRecordCheck, honehop.records]
      rfl
  obtain ⟨htbl, -⟩ := recorded_frame (e := wide) hpkt
  have hrt (q : Ptr) : (recorded wide s question).rt q = s.rt q := by simp only [Daemon.rt, htbl]
  obtain ⟨o, ho, horig⟩ := hroute 0x0400000a
  have hnone : rreqReverse wide (recorded wide s question) (rreqOf question.buf) question.src =
      (recorded wide s question, none) := by
    refine reverse_full (p := o) (wellFormed_recorded wide question hs) ?_ ?_ ?_ _
    · rwa [htbl]
    · rwa [htbl]
    · rw [hrt, horig]
      decide +kernel
  obtain ⟨p, hp, hdest⟩ := hroute 0x0300000a
  refine hall wide s question hs hpkt ?_ (by decide +kernel) ⟨p, ?_⟩ ?_
  · rw [honehop.ipaddr]
    decide +kernel
  · rw [reversed, hnone, hrt, hdest, htbl]
    exact ⟨hp, by decide +kernel, rfl, by decide, by decide +kernel⟩
  · rw [calls_accepted hpkt, hnone]

end Aodv.RreqOutcome
