import Aodv.Contacts
import Aodv.Relays
import Aodv.WireFormat

namespace Aodv.Mesh

open Lib.Bytes Requests WireFormat
open Relation

def Named (V : Addr → Addr → Prop) (d : Addr) : Prop := ∃ n, V n d

/-- What whoever reads the datagram is told about: an RREQ is one of its sender's own
or names a node of A, an RREP, which goes to one neighbour, names its sender or a
node that is on a route. -/
structure Names (D : Addr → Prop) (V : Addr → Addr → Prop) (A : Addr → Prop) (own : Addr)
    (msg : Msg) (dest : Addr) (b : Buf) : Prop where
  rreq : b 0 = aodvRreq →
    (rreqOf b).origAddr = own ∧ msg = .rreq (rreqOf b) ∨ A (rreqOf b).origAddr
  rrep : b 0 = aodvRrep → D dest ∧ ((rrepOf b).destAddr = own ∨ Named V (rrepOf b).destAddr)
  hello : b 0 ≠ aodvHello

/-- What is sent goes to everyone or to a node of D. -/
def Proper (D : Addr → Prop) (V : Addr → Addr → Prop) (A : Addr → Prop) (own : Addr) : Obs → Prop
  | .socketSend msg dest _ _ sent => (dest = aodvBroadcast ∨ D dest) ∧
      ∀ bytes, sent = some bytes →
        ∀ b, ReceivedBytes.Received (bytes.take receBufSize) b → Names D V A own msg dest b
  | _ => True

def isSend : Obs → Bool
  | .socketSend .. => true
  | _ => false

def sends (s : Daemon) : Nat := s.trace.countP isSend

abbrev Mute (s s' : Daemon) : Prop := Said (fun o => isSend o = false) s s'

/-- At most n datagrams are sent, and they are proper ones. -/
structure Speaks (D : Addr → Prop) (V : Addr → Addr → Prop) (A : Addr → Prop) (own : Addr)
    (n : Nat) (s s' : Daemon) : Prop where
  said : Said (Proper D V A own) s s'
  count : sends s' ≤ sends s + n

section Sends

variable {D D' : Addr → Prop} {V V' : Addr → Addr → Prop} {A A' : Addr → Prop} {own : Addr}
  {e : Env} {s s' s'' : Daemon} {n k : Nat} {p q : Ptr} {buf : Buf} {b : RerrBuild}

theorem Names.mono {msg : Msg} {dest : Addr} {b : Buf} (h : Names D V A own msg dest b)
    (hD : ∀ a, D a → D' a) (hV : ∀ n d, V n d → V' n d) (hA : ∀ d, A d → A' d) :
    Names D' V' A' own msg dest b where
  rreq ht := (h.rreq ht).imp_right (hA _)
  rrep ht := ⟨hD _ (h.rrep ht).1, (h.rrep ht).2.imp_right fun ⟨n, hn⟩ => ⟨n, hV n _ hn⟩⟩
  hello := h.hello

theorem Proper.mono {o : Obs} (h : Proper D V A own o) (hD : ∀ a, D a → D' a)
    (hV : ∀ n d, V n d → V' n d) (hA : ∀ d, A d → A' d) : Proper D' V' A' own o := by
  cases o with
  | socketSend msg dest len ttl sent =>
      exact ⟨h.1.imp_right (hD dest), fun bytes hsent b hb => (h.2 bytes hsent b hb).mono hD hV hA⟩
  | _ => trivial

theorem proper_mute {o : Obs} (h : isSend o = false) : Proper D V A own o := by
  cases o with
  | socketSend => cases h
  | _ => trivial

theorem sends_mute (h : Mute s s') : sends s' = sends s := by
  obtain ⟨l, hl, ho⟩ := h
  have hnone : l.countP isSend = 0 := by
    rw [List.countP_eq_zero]
    intro o hmem hs
    rw [ho o hmem] at hs
    cases hs
  rw [sends, hl, List.countP_append, hnone, Nat.zero_add]
  rfl

namespace Speaks

theorem mute (h : Mute s s') : Speaks D V A own n s s' where
  said := h.mono fun _ => proper_mute
  count := by
    rw [sends_mute h]
    exact Nat.le_add_right _ n

theorem same (h : s'.trace = s.trace) : Speaks D V A own n s s' := .mute (.same h)

theorem trans (h : Speaks D V A own n s s') (h' : Speaks D V A own k s' s'') :
    Speaks D V A own (n + k) s s'' := by
  refine ⟨h.said.trans h'.said, ?_⟩
  have hn := h.count
  have hk := h'.count
  omega

theorem mono (h : Speaks D V A own n s s') (hn : n ≤ k) : Speaks D V A own k s s' := by
  refine ⟨h.said, ?_⟩
  have hcount := h.count
  omega

theorem after (h : Speaks D V A own n s' s'') (hm : Mute s s') : Speaks D V A own n s s'' := by
  have hfirst : Speaks D V A own 0 s s' := .mute hm
  have hall := hfirst.trans h
  rwa [Nat.zero_add] at hall

theorem before (h : Speaks D V A own n s s') (hm : Mute s' s'') : Speaks D V A own n s s'' := by
  have hlast : Speaks D V A own 0 s' s'' := .mute hm
  exact h.trans hlast

theorem send (msg : Msg) {dest : Addr} (len ttl : Int) (hdest : dest = aodvBroadcast ∨ D dest)
    (h : ∀ b, (∀ i, i < len.toNat → i < receBufSize → b i = s.sendBuf i) →
      Names D V A own msg dest b) :
    Speaks D V A own 1 s (aodvSocketSend e s msg dest len ttl) where
  said := by
    refine .one rfl ⟨hdest, fun bytes hsent b hb => ?_⟩
    obtain ⟨rfl, -⟩ := sendOutcome_sent e s dest len.toNat bytes hsent
    apply h b
    intro i hi hi'
    have hlt : i < ((take s.sendBuf len.toNat).take receBufSize).length := by
      rw [List.length_take, take_length]
      exact lt_min hi' hi
    rw [hb.byte hlt, List.getElem_take]
    simp [take]
  count := by
    have hone : sends (aodvSocketSend e s msg dest len ttl) = sends s + 1 :=
      List.countP_cons_of_pos rfl
    rw [hone]

end Speaks

theorem names_other (h : buf 0 = aodvRerr ∨ buf 0 = aodvRrepAck) {msg : Msg} {dest : Addr} :
    Names D V A own msg dest buf := by
  have hne : buf 0 ≠ aodvRreq ∧ buf 0 ≠ aodvRrep ∧ buf 0 ≠ aodvHello := by
    rcases h with h | h
    all_goals
      rw [h]
      decide
  exact ⟨fun ht => absurd ht hne.1, fun ht => absurd ht hne.2.1, hne.2.2⟩

theorem rerr_speaks (ht : s.sendBuf 0 = aodvRerr) (m : RERR) {dest : Addr}
    (hdest : dest = aodvBroadcast ∨ D dest) :
    Speaks D V A own 1 s (aodvSocketSend e s (.rerr m) dest (rerrCalcSize (s.sendBuf 3)) 1) := by
  apply Speaks.send _ _ _ hdest
  intro b hb
  apply names_other
  left
  rw [hb 0 (by rw [rerrCalcSize]; omega) (by decide)]
  exact ht

theorem mute_nl {o : Obs} (h : NlObs o) : isSend o = false := by
  cases h <;> rfl

theorem mute_route {o : Obs} (h : RouteObs o) : isSend o = false := by
  cases h <;> rfl

theorem admits_mute : Admits fun o => isSend o = false := .of_nl fun _ => mute_nl

theorem mute_invalidate (e : Env) (s : Daemon) (p : Ptr) : Mute s (rtTableInvalidate e s p) :=
  (invalidate_said e s p).mono fun _ => mute_route

/-- The RERR that the loops build is for everyone or for a node of D. Nothing is
sent yet, and as long as no RERR is begun the send buffer is left alone. -/
structure Draft (D : Addr → Prop) (V : Addr → Addr → Prop) (s : Daemon) (b : RerrBuild) : Prop where
  building : Building b
  mute : Mute s b.s
  met : AllMet D V b.s
  unicast : b.unicast = 0 ∨ D b.unicast
  buf : b.rerr = none → b.s.sendBuf = s.sendBuf

namespace Draft

theorem start (h : AllMet D V s) : Draft D V s ⟨s, none, 0⟩ where
  building := by rintro m ⟨⟩
  mute := .same rfl
  met := h
  unicast := .inl rfl
  buf := fun _ => rfl

theorem move (h : Draft D V s b) (hm : Mute b.s s') (hmet : AllMet D V s')
    (hbuf : s'.sendBuf = b.s.sendBuf) : Draft D V s { b with s := s' } where
  building := h.building.same rfl hbuf
  mute := h.mute.trans hm
  met := hmet
  unicast := h.unicast
  buf := fun hr => hbuf.trans (h.buf hr)

theorem down (h : Draft D V s b) (hp : Linked b.s.rtTbl p) :
    Draft D V s { b with s := rtTableInvalidate e b.s p } :=
  h.move (mute_invalidate e b.s p) (h.met.lb (lb_invalidate e hp)) (sendBuf_invalidate e b.s p)

theorem destroy (h : Draft D V s b) (p : Ptr) :
    Draft D V s { b with s := precursorListDestroy b.s p } :=
  h.move (.same rfl) (h.met.destroy p) rfl

theorem list (h : Draft D V s b) (n : Bool) (hp : Linked b.s.rtTbl p) :
    Draft D V s (rerrList b n p) where
  building := (turn_list (e := plain) h.building n hp).building
  mute := h.mute.trans (.same (trace_rerrList b n p))
  met := h.met.same (tbl_rerrList b n p)
  unicast := by
    rw [rerrList]
    cases b.rerr with
    | none =>
        dsimp only
        split
        next hone => exact .inr ((h.met p hp).first hone)
        · exact h.unicast
    | some m =>
        dsimp only
        split
        · exact .inl rfl
        · exact h.unicast
  buf := by
    rw [rerrList]
    cases b.rerr with
    | none => rintro ⟨⟩
    | some m => rintro ⟨⟩

theorem linked_down {p q : Ptr} (hp : Linked s.rtTbl p) (hq : Linked s.rtTbl q) :
    Linked (rtTableInvalidate e s p).rtTbl q := ((kept_invalidate e hp).keys.linked q).2 hq

theorem breakStep (h : Draft D V s b) (p : Ptr) (hq : Linked b.s.rtTbl q) :
    Draft D V s (linkBreakStep e p b q) := by
  rw [linkBreakStep]
  split
  · dsimp only
    split
    · have hmark : Draft D V s { b with s := markRepair b.s q } :=
        h.move (.same rfl) (h.met.setRt rfl) rfl
      exact hmark.down (((kept_markRepair b.s q).keys.linked q).2 hq)
    · have hdown : Draft D V s { b with s := rtTableInvalidate e b.s q } := h.down hq
      split
      · exact (hdown.list false (linked_down hq hq)).destroy q
      · exact hdown.destroy q
  · exact h

theorem breakLoop (h : Draft D V s b) (p : Ptr) (l : List Ptr) (hl : ∀ q ∈ l, Linked b.s.rtTbl q) :
    Draft D V s (l.foldl (linkBreakStep e p) b) := by
  induction l generalizing b with
  | nil => exact h
  | cons q l ih =>
      have hq := hl q List.mem_cons_self
      have hturn := turn_linkBreakStep e p h.building hq
      refine ih (h.breakStep p hq) fun q' hq' => ?_
      exact linked_of_lb hturn.steps (hl q' (List.mem_cons_of_mem q hq'))

theorem breakSelf (h : AllMet D V s) (hp : Linked s.rtTbl p) :
    Draft D V s (linkBreakSelf e s p) := by
  have hdown : Draft D V s ⟨rtTableInvalidate e s p, none, 0⟩ := (Draft.start h).down hp
  have hp' : Linked (rtTableInvalidate e s p).rtTbl p := linked_down hp hp
  rw [linkBreakSelf]
  dsimp only
  split
  · have hlist := hdown.list false hp'
    split
    · exact hlist
    · exact hlist.destroy p
  · split
    · exact hdown
    · exact hdown.destroy p

end Draft

theorem linkBreak_speaks (h : AllMet D V s) (hp : Linked s.rtTbl p) :
    Speaks D V A own 1 s (neighborLinkBreak e s p) ∧
      ((neighborLinkBreak e s p).sendBuf = s.sendBuf ∨
        (neighborLinkBreak e s p).sendBuf 0 = aodvRerr) := by
  rw [neighborLinkBreak]
  split
  · exact ⟨.same rfl, .inl rfl⟩
  · have hself : Draft D V s (linkBreakSelf e s p) := .breakSelf h hp
    have hloop : Draft D V s _ := hself.breakLoop (e := e) p (linkBreakSelf e s p).s.linked
      fun q hq => (mem_entries _ q).1 hq
    dsimp only
    generalize (linkBreakSelf e s p).s.linked.foldl (linkBreakStep e p)
      (linkBreakSelf e s p) = b at hloop
    rw [linkBreakSend]
    cases hr : b.rerr with
    | none => exact ⟨.mute hloop.mute, .inl (hloop.buf hr)⟩
    | some m =>
        have ht := (hloop.building m hr).type
        refine ⟨(rerr_speaks ht m ?_).after hloop.mute, .inr ht⟩
        split
        next hne => exact .inr (hloop.unicast.resolve_left hne)
        · exact .inl rfl

theorem mute_insert (e : Env) (s : Daemon) (dest next : Addr) (hops seqno lifetime : U32)
    (state : RtState) (flags : RtFlags) :
    Mute s (rtTableInsert e s dest next hops seqno lifetime state flags).1 :=
  insert_told admits_mute e s rfl

theorem updateBreak_speaks (h : AllMet D V s) (hp : Linked s.rtTbl p) (hops : U32) :
    Speaks D V A own 1 s (updateBreak e s p hops) := by
  rw [updateBreak]
  dsimp only
  split
  · have hclear : AllMet D V (s.setRt p { s.rt p with lastHelloTime := ⟨0, 0⟩, helloCnt := 0 }) :=
      h.setRt rfl
    have hpop : AllMet D V (pop (s.setRt p { s.rt p with lastHelloTime := ⟨0, 0⟩, helloCnt := 0 })
        (.helloTimer p)) := hclear.same rfl
    exact (linkBreak_speaks hpop hp).1.after (.same rfl)
  · exact .same rfl

theorem mute_begin (e : Env) (s : Daemon) (p : Ptr) (next : Addr) (hops seqno lifetime : U32)
    (state : RtState) (flags : RtFlags) :
    Mute s (updateBegin e (s.observe (.rtUpdate p (s.rt p) next hops seqno lifetime state flags)) p
      next hops lifetime state flags).1 := by
  have hobs : Mute s (s.observe (.rtUpdate p (s.rt p) next hops seqno lifetime state flags)) :=
    .one rfl rfl
  exact hobs.trans (updateBegin_told admits_mute e _ p next hops lifetime state flags)

theorem update_speaks (h : AllMet D V s) (hp : Linked s.rtTbl p) (next : Addr)
    (hops seqno lifetime : U32) (state : RtState) (flags : RtFlags) :
    Speaks D V A own 1 s (rtTableUpdate e s p next hops seqno lifetime state flags) := by
  let s₀ := s.observe (.rtUpdate p (s.rt p) next hops seqno lifetime state flags)
  have hobs : AllMet D V s₀ := h.same rfl
  have hp₁ := ((kept_updateBegin e s₀ p next hops lifetime state flags).keys.linked p).2 hp
  have hbreak : Speaks D V A own 1 _ _ := updateBreak_speaks (e := e)
    (hobs.start (e := e) p next hops lifetime state flags) hp₁ hops
  rw [rtTableUpdate]
  dsimp only
  exact (hbreak.after (mute_begin e s p next hops seqno lifetime state flags)).before
    (.same (updateFinish_trace e _ p next hops seqno lifetime state _))

theorem mute_updateOne (e : Env) (s : Daemon) (p : Ptr) (next : Addr) (seqno lifetime : U32)
    (state : RtState) (flags : RtFlags) :
    Mute s (rtTableUpdate e s p next 1 seqno lifetime state flags) := by
  have hnone (s : Daemon) : updateBreak e s p 1 = s := by
    rw [updateBreak]
    exact if_neg fun hlt => absurd hlt.1 (by decide)
  rw [rtTableUpdate]
  dsimp only
  rw [hnone]
  exact (mute_begin e s p next 1 seqno lifetime state flags).trans
    (.same (updateFinish_trace e _ p next 1 seqno lifetime state _))

theorem mute_refresh (e : Env) (s : Daemon) (p : Ptr) (now : Timeval) :
    Mute s (neighborRefresh e s p now) := .same (Mesh.trace_neighborRefresh e s p now)

theorem mute_neighborAdd (e : Env) (s : Daemon) (src : Addr) : Mute s (neighborAdd e s src) := by
  rw [neighborAdd]
  dsimp only
  cases rtTableCheck s.tock.rtTbl src with
  | none =>
      have hins : Mute s _ := mute_insert e s.tock src src 1 0 (u32 activeRouteTimeout) .valid .zero
      dsimp only
      obtain ⟨s₁, o, hi⟩ : ∃ s₁ o,
          rtTableInsert e s.tock src src 1 0 (u32 activeRouteTimeout) .valid .zero =
            (s₁, o) := ⟨_, _, rfl⟩
      rw [hi] at hins ⊢
      cases o with
      | none => exact hins
      | some p => exact hins.trans (mute_refresh e s₁ p _)
  | some p =>
      dsimp only
      split
      · exact .same rfl
      · have hupdate : Mute s _ := mute_updateOne e s.tock p src (s.tock.rt p).destSeqno
          (u32 activeRouteTimeout) .valid (s.tock.rt p).flags
        exact hupdate.trans (mute_refresh e _ p _)

theorem mute_hello (e : Env) (s : Daemon) (buf : Buf) : Mute s (helloProcess e s buf) := by
  rw [helloProcess]
  dsimp only
  generalize (if e.receiveNHellos ≠ 0 then RtState.invalid else RtState.valid) = state
  generalize u32 (allowedHelloLoss * helloInterval + routeTimeoutSlack) = timeout
  cases rtTableCheck s.tock.rtTbl (rrepOf buf).destAddr with
  | none =>
      have hins : Mute s _ := mute_insert e s.tock (rrepOf buf).destAddr (rrepOf buf).destAddr 1
        (rrepOf buf).destSeqno timeout state .zero
      dsimp only
      obtain ⟨s₁, o, hi⟩ : ∃ s₁ o,
          rtTableInsert e s.tock (rrepOf buf).destAddr (rrepOf buf).destAddr 1
            (rrepOf buf).destSeqno timeout state .zero = (s₁, o) := ⟨_, _, rfl⟩
      rw [hi] at hins ⊢
      cases o with
      | none => exact hins
      | some p => exact hins.trans (.same rfl)
  | some p =>
      dsimp only
      rw [helloKnown]
      dsimp only
      split
      · exact .same rfl
      · split
        · exact .same rfl
        · have hupdate : Mute s _ := mute_updateOne e s.tock p (rrepOf buf).destAddr
            (rrepOf buf).destSeqno timeout .valid (s.tock.rt p).flags
          exact hupdate.trans (.same rfl)

theorem Draft.report (h : Draft D V s b) (n : Bool) (hp : Linked b.s.rtTbl p) :
    Draft D V s (rerrReport b n p) := by
  rw [rerrReport]
  split
  · have hlist := h.list n hp
    split
    · exact hlist.destroy p
    · exact hlist
  · split
    · exact h.destroy p
    · exact h

theorem Draft.rerrStep (h : Draft D V s b) (n : Bool) (src : Addr) (udest : Addr × U32) :
    Draft D V s (rerrStep e n src b udest) := by
  rw [Aodv.rerrStep]
  cases hhit : rerrHits b.s src udest with
  | none => exact h
  | some p =>
      obtain ⟨hp, -⟩ := rerrHits_some hhit
      dsimp only
      have hdown : Draft D V s { b with s := if n then b.s else rtTableInvalidate e b.s p } ∧
          Linked (if n then b.s else rtTableInvalidate e b.s p).rtTbl p := by
        split
        · exact ⟨h, hp⟩
        · exact ⟨h.down hp, Draft.linked_down hp hp⟩
      generalize (if n then b.s else rtTableInvalidate e b.s p) = s₁ at hdown
      obtain ⟨hdown, hp₁⟩ := hdown
      have hobs : AllMet D V (s₁.observe (.rerrSeqno p (s₁.rt p) udest.2)) := hdown.met.same rfl
      let s₂ := (s₁.observe (.rerrSeqno p (s₁.rt p) udest.2)).setRt p
        { s₁.rt p with destSeqno := udest.2 }
      have hset : Draft D V s { b with s := s₂ } := hdown.move (.one rfl rfl) (hobs.setRt rfl) rfl
      have hp₂ : Linked s₂.rtTbl p := hp₁
      exact hset.report n hp₂

theorem Draft.rerrLoop (h : Draft D V s b) (n : Bool) (src : Addr) (l : List (Addr × U32)) :
    Draft D V s (l.foldl (Aodv.rerrStep e n src) b) := by
  induction l generalizing b with
  | nil => exact h
  | cons u l ih => exact ih (h.rerrStep n src u)

theorem rerrProcess_speaks (h : AllMet D V s) (buf : Buf) (len : Nat) (src : Addr) :
    Speaks D V A own 1 s (rerrProcess e s buf len src) := by
  rw [rerrProcess]
  split
  · exact .same rfl
  · have hloop : Draft D V s _ :=
      (Draft.start h).rerrLoop (e := e) ((buf 1).getLsbD 0) src (listed buf)
    dsimp only
    generalize
      (listed buf).foldl (Aodv.rerrStep e ((buf 1).getLsbD 0) src) ⟨s, none, 0⟩ = b at hloop
    rw [rerrReply]
    cases hr : b.rerr with
    | none => exact .mute hloop.mute
    | some m =>
        have ht := (hloop.building m hr).type
        dsimp only
        split
        next hne =>
          cases rtTableCheck b.s.rtTbl b.unicast with
          | none => exact .mute hloop.mute
          | some q =>
              exact (rerr_speaks ht m (.inr (hloop.unicast.resolve_left hne))).after hloop.mute
        · exact (rerr_speaks ht m (.inl rfl)).after hloop.mute

theorem rreqSend_speaks (e : Env) (s : Daemon) (dest : Addr) (seqno : U32) (ttl : Int)
    (flags : U8) :
    Speaks D V A s.host.ipaddr 1 s (rreqSend e s dest seqno ttl flags) := by
  rw [rreqSend]
  split
  · let m : RREQ := (rreqCreate s flags dest seqno s.host.ipaddr).2
    have hcreate : Mute s (rreqCreate s flags dest seqno s.host.ipaddr).1 := .same rfl
    refine (Speaks.send _ _ _ (.inl rfl) fun b hb => ?_).after hcreate
    have hagree : ReceivedBytes.Agree rreqSize b (rreqBuf m) :=
      fun i hi => hb i hi (Nat.lt_of_lt_of_le hi (by decide))
    have hread : rreqOf b = m := (ReceivedBytes.rreqOf_congr hagree (Nat.le_refl _)).trans
      (rreqOf_rreqBuf m)
    have ht : b 0 = aodvRreq := (hagree 0 (by decide)).trans (rreqBuf_head m (by decide))
    refine ⟨fun _ => .inl ⟨?_, ?_⟩, fun hrrep => ?_, ?_⟩
    · rw [hread]
      rfl
    · exact congrArg Msg.rreq hread.symm
    · rw [ht] at hrrep
      exact absurd hrrep (by decide)
    · rw [ht]
      decide
  · exact .same rfl

theorem mute_seekRefresh (e : Env) (s : Daemon) (p : Ptr) (now : Timeval) :
    Mute s (seekRefresh e s p now) := by
  obtain ⟨q, k, heq⟩ := seekRefresh_eq e s p now
  rw [heq]
  exact .same rfl

theorem host_seekRefresh (e : Env) (s : Daemon) (p : Ptr) (now : Timeval) :
    (seekRefresh e s p now).host = s.host := by
  obtain ⟨q, k, heq⟩ := seekRefresh_eq e s p now
  rw [heq]

theorem discovery_speaks (e : Env) (s : Daemon) (dest : Addr) (flags : U8) :
    Speaks D V A s.host.ipaddr 1 s (rreqRouteDiscovery e s dest flags) := by
  have hsend (s : Daemon) (seqno : U32) (ttl : Int) (found : Option RtEntry) :
      Speaks D V A s.host.ipaddr 1 s (discoverySend e s dest seqno ttl flags found) :=
    (rreqSend_speaks e s dest seqno ttl flags).before (.one rfl rfl)
  rw [rreqRouteDiscovery]
  dsimp only
  cases seekListCheck s.tock dest with
  | some q => exact .same rfl
  | none =>
      cases rtTableCheck s.tock.rtTbl dest with
      | none => exact (hsend s.tock _ _ _).after (.same rfl)
      | some p =>
          have hrest : Speaks D V A _ 1 _ _ := hsend (seekRefresh e s.tock p (e.clock s.tick))
            (s.tock.rt p).destSeqno (if e.expandingRingSearch then
              ((s.tock.rt p).hopcnt.toNat : Int) + ttlIncrement else netDiameter)
            (some (s.tock.rt p))
          rw [host_seekRefresh] at hrest
          exact hrest.after (mute_seekRefresh e s.tock p _)

theorem localRepair_speaks (e : Env) (s : Daemon) (p : Ptr) (src : Addr) :
    Speaks D V A s.host.ipaddr 1 s (rreqLocalRepair e s p src) := by
  rw [rreqLocalRepair]
  split
  · exact .same rfl
  · split
    · exact .same rfl
    · dsimp only
      have hstart : Mute s (repairStart s.tock p) := .one rfl rfl
      have hrefresh := hstart.trans (mute_seekRefresh e (repairStart s.tock p) p (e.clock s.tick))
      have hhost := host_seekRefresh e (repairStart s.tock p) p (e.clock s.tick)
      generalize seekRefresh e (repairStart s.tock p) p (e.clock s.tick) = s₁ at hrefresh hhost
      have hsend : Speaks D V A s₁.host.ipaddr 1 s₁ _ :=
        rreqSend_speaks e s₁ (s₁.rt p).destAddr (s₁.rt p).destSeqno (repairTtl s p src) 0
      rw [hhost] at hsend
      rw [repairSend]
      apply Speaks.after _ hrefresh
      exact hsend.before (.same rfl)

theorem expire_speaks (h : AllMet D V s) (hp : Linked s.rtTbl p) :
    Speaks D V A own 1 s (routeExpireTimeout e s p) := by
  rw [routeExpireTimeout]
  split
  · exact (linkBreak_speaks h hp).1
  · exact .mute ((mute_invalidate e s p).trans (.same rfl))

theorem type_create (s : Daemon) (n : Bool) (dest : Addr) (seqno : U32) :
    (rerrCreate s n dest seqno).1.sendBuf 0 = aodvRerr := (written_create s n dest seqno).type

theorem rerrTarget_met (h : AllMet D V s) (src : Addr) {s₁ : Daemon} (htbl : s₁.rtTbl = s.rtTbl) :
    rerrTarget s₁ (rtTableCheck s.rtTbl src) = aodvBroadcast ∨
      D (rerrTarget s₁ (rtTableCheck s.rtTbl src)) := by
  cases hc : rtTableCheck s.rtTbl src with
  | none => exact .inl rfl
  | some r =>
      have hl := (rtTableCheck_some hc).1
      rw [rerrTarget]
      split
      · right
        rw [Daemon.rt, htbl]
        exact (h r hl).hop
      · exact .inl rfl

theorem sendRerr_speaks (h : AllMet D V s) (src dest : Addr) :
    Speaks D V A own 1 s (sendRerr e s src dest) := by
  have hfor : Mute s (rerrFor e s dest).1 ∧ (rerrFor e s dest).1.sendBuf 0 = aodvRerr ∧
      (rerrFor e s dest).1.rtTbl = s.rtTbl := by
    rw [rerrFor]
    cases rtTableCheck s.rtTbl dest with
    | none => exact ⟨.same rfl, type_create s false dest 0, rfl⟩
    | some f =>
        have ht := type_create s false (s.rt f).destAddr (s.rt f).destSeqno
        obtain ⟨q, k, heq⟩ := updateTimeout_eq e
          (rerrCreate s false (s.rt f).destAddr (s.rt f).destSeqno).1 f (u32 deletePeriod)
        dsimp only
        rw [heq]
        exact ⟨.same rfl, ht, rfl⟩
  obtain ⟨hmute, ht, htbl⟩ := hfor
  rw [sendRerr]
  dsimp only
  have hsend : Speaks D V A own 1 s _ := (rerr_speaks (e := e) ht (rerrFor e s dest).2
    (rerrTarget_met h src htbl)).after hmute
  split
  · exact hsend.before (.same rfl)
  · exact hsend

theorem kernel_speaks (h : AllMet D V s) (m : KernelMsg) :
    Speaks D V A s.host.ipaddr 1 s (nlKaodvCallback e s m) := by
  have hdone := kernel_ledTo e s m
  generalize nlKaodvCallback e s m = s' at hdone
  cases hdone with
  | nothing => exact .same rfl
  | expire hp => exact expire_speaks h hp
  | discover dest => exact discovery_speaks e s dest 0
  | repair src => exact localRepair_speaks e s _ src
  | refresh hrun => exact .mute (Mesh.refreshes_said hrun)
  | report src dest => exact sendRerr_speaks h src dest

theorem repairTimeout_speaks (h : AllMet D V s) (hp : Linked s.rtTbl p) :
    Speaks D V A own 1 s (localRepairTimeout e s p) := by
  have hclear : AllMet D V (s.setRt p { s.rt p with
      flags := { (s.rt p).flags with repair := false } }) := h.setRt rfl
  have hover : AllMet D V (repairOver e s p) := hclear.same rfl
  have hmute : Mute s (repairOver e s p) :=
    (delRoute_said e (s.setRt p _) _ _ _).mono fun _ => mute_nl
  have hp' : Linked (repairOver e s p).rtTbl p := hp
  have hreport : Speaks D V A own 1 (repairOver e s p) (repairReport e (repairOver e s p) p) := by
    rw [repairReport]
    dsimp only
    split
    · refine (rerr_speaks (type_create _ _ _ _) _ ?_).after (.same rfl)
      split
      next hone => exact .inr ((hover p hp').first hone)
      · exact .inl rfl
    · exact .same rfl
  rw [localRepairTimeout]
  exact (hreport.after hmute).before (.same rfl)

theorem helloTimeout_speaks (h : AllMet D V s) (hp : Linked s.rtTbl p) :
    Speaks D V A own 1 s (helloTimeout e s p) := by
  have htock : AllMet D V s.tock := h.same rfl
  rw [helloTimeout]
  dsimp only
  split
  · split
    · have hmark : AllMet D V (markRepair s.tock p) := htock.setRt rfl
      exact (linkBreak_speaks hmark hp).1.after (.same rfl)
    · exact (linkBreak_speaks htock hp).1.after (.same rfl)
  · exact .same rfl

theorem seekGiveUp_speaks (h : AllMet D V s) (q : Ptr) :
    Speaks D V A own 1 s (seekGiveUp e s q) := by
  have hfail : Mute s (s.observe (.discoveryFailed q)) := .one rfl rfl
  have hnone := hfail.trans ((noRoute_said e (s.observe (.discoveryFailed q))
    (s.seek q).destAddr).mono fun _ => mute_nl)
  obtain ⟨s₁, heq⟩ : ∃ s₁, seekListRemove (nlSendNoRouteFoundMsg e
    (s.observe (.discoveryFailed q)) (s.seek q).destAddr) (some q) = s₁ := ⟨_, rfl⟩
  have hmute : Mute s s₁ := by
    rw [← heq]
    exact hnone.trans (.same rfl)
  have hmet : AllMet D V s₁ := by
    rw [← heq]
    exact h.same rfl
  rw [seekGiveUp]
  rw [heq]
  cases hc : rtTableCheck s₁.rtTbl (s.seek q).destAddr with
  | none => exact .mute hmute
  | some p =>
      dsimp only
      split
      · exact (repairTimeout_speaks hmet (rtTableCheck_some hc).1).after hmute
      · exact .mute hmute

theorem discoveryTimeout_speaks (h : AllMet D V s) (q : Ptr) :
    Speaks D V A s.host.ipaddr 1 s (routeDiscoveryTimeout e s q) := by
  have htock : AllMet D V s.tock := h.same rfl
  rw [routeDiscoveryTimeout]
  split
  · have hrearm : (seekRearm e s.tock q).host = s.host ∧
        (seekRearm e s.tock q).trace = s.trace := by
      rw [seekRearm]
      dsimp only
      split <;> exact ⟨rfl, rfl⟩
    obtain ⟨k, n, heq⟩ := refreshSought_eq e (seekRearm e s.tock q) (s.tock.seek q).destAddr
      (e.clock s.tick)
    rw [seekAgain, heq, seekSend]
    have hsend : Speaks D V A (seekRearm e s.tock q).host.ipaddr 1 _ _ :=
      rreqSend_speaks e { seekRearm e s.tock q with timers := k, tick := n }
        (((seekRearm e s.tock q).seek q).destAddr) ((seekRearm e s.tock q).seek q).destSeqno
        ((seekRearm e s.tock q).seek q).ttl ((seekRearm e s.tock q).seek q).flags
    rw [hrearm.1] at hsend
    exact (hsend.before (.one rfl rfl)).after (.same hrearm.2)
  · exact (seekGiveUp_speaks htock q).after (.same rfl)

theorem fire_speaks (h : AllMet D V s) (hs : WellFormed s) {t : TimerId} (ht : Pending s.timers t) :
    Speaks D V A s.host.ipaddr 1 s (fire e s t) := by
  have hpop : Mute s (pop s t) := .same rfl
  have hmet : AllMet D V (pop s t) := h.same rfl
  have hdone := fire_handled e hs ht
  generalize fire e s t = s' at hdone
  cases hdone with
  | expire hp => exact (expire_speaks hmet hp).after hpop
  | repair hp => exact (repairTimeout_speaks hmet hp).after hpop
  | delete => exact .mute (hpop.trans ((delete_said e _ _).mono fun _ => mute_nl))
  | hello hp => exact (helloTimeout_speaks hmet hp).after hpop
  | seek => exact (discoveryTimeout_speaks hmet _).after hpop
  | ack =>
      refine .same ?_
      rw [rrepAckTimeout, rreqBlacklistInsert]
      split <;> rfl
  | record | blacklist => exact .same rfl
  | log =>
      refine .same ?_
      rw [printRtTable]
      split <;> rfl

theorem drain_speaks (n : Nat) (h : AllMet D V s) (hs : WellFormed s) :
    Speaks D V A s.host.ipaddr n s (drain e n s) := by
  induction n generalizing s with
  | zero => exact .same rfl
  | succ n ih =>
      rw [drain]
      cases hq : s.timers.exptq with
      | nil => exact .same rfl
      | cons t rest =>
          have ht : Pending s.timers t := by
            right
            rw [hq]
            exact List.mem_cons_self
          have hrun : ReflTransGen (Coarse e .age) s (fire e s t) := coarses_fire hs ht
          have hsound := coarses_sound hrun hs
          have hmet : AllMet D V (fire e s t) := h.coarses hs (by rintro _ ⟨⟩) hrun
          have hrest := ih hmet hsound.wellFormed
          rw [hsound.ipaddr] at hrest
          exact ((fire_speaks h hs ht).trans hrest).mono (Nat.le_of_eq (Nat.add_comm 1 n))

theorem unidir_speaks (h : AllMet D V s) (hs : WellFormed s) (hrev : Linked s.rtTbl p) :
    Speaks D V A own 1 s (rrepUnidir e s p) ∧
      ((rrepUnidir e s p).sendBuf = s.sendBuf ∨ (rrepUnidir e s p).sendBuf 0 = aodvRerr) ∧
      AllMet D V (rrepUnidir e s p) := by
  have hrun : ReflTransGen (Quiet e .age) s (rrepUnidir e s p) := (quiets_rrepUnidir hs hrev).1
  have hafter := h.quiets hs hrun
  rw [rrepUnidir] at hafter ⊢
  split at hafter
  next hu =>
    rw [if_pos hu]
    cases hn : rtTableCheck s.rtTbl (s.rt p).nextHop with
    | none => exact ⟨.same rfl, .inl rfl, h⟩
    | some n =>
        rw [hn] at hafter
        dsimp only at hafter ⊢
        split at hafter
        next hv =>
          rw [if_pos hv]
          let s₁ := s.observe (.unidirBreak (linkBreakReports s n))
          let s₂ := s₁.setRt n { s.rt n with flags := { (s.rt n).flags with unidir := true } }
          have hobs : AllMet D V s₁ := h.same rfl
          have hset : AllMet D V s₂ := hobs.setRt rfl
          have hpop : AllMet D V (pop s₂ (.helloTimer n)) := hset.same rfl
          have hmute : Mute s (pop s₂ (.helloTimer n)) := .one rfl rfl
          obtain ⟨hsaid, hbuf⟩ : Speaks D V A own 1 _ _ ∧ _ :=
            linkBreak_speaks (e := e) hpop (rtTableCheck_some hn).1
          exact ⟨(hsaid.after hmute).before (.same rfl), hbuf, hafter⟩
        next hv =>
          rw [if_neg hv]
          exact ⟨.same rfl, .inl rfl, h⟩
  next hu =>
    rw [if_neg hu]
    exact ⟨.same rfl, .inl rfl, h⟩

theorem names_rrep {m : RREP} {msg : Msg} {dest : Addr}
    (hagree : ReceivedBytes.Agree rrepSize buf (rrepBuf m))
    (hdest : D dest) (hm : m.destAddr = own ∨ Named V m.destAddr) :
    Names D V A own msg dest buf := by
  have hread : rrepOf buf = m := (ReceivedBytes.rrepOf_congr hagree (Nat.le_refl _)).trans
    (rrepOf_rrepBuf m)
  have ht : buf 0 = aodvRrep := (hagree 0 (by decide)).trans (rrepBuf_head m (by decide))
  refine ⟨fun hrreq => ?_, fun _ => ⟨hdest, ?_⟩, ?_⟩
  · rw [ht] at hrreq
    exact absurd hrreq (by decide)
  · rw [hread]
    exact hm
  · rw [ht]
    decide

/-- What leaves in place of an RREP is that RREP, or the RERR of a link break
that has been written over it. -/
theorem rrepSend_speaks (h : AllMet D V s) (hs : WellFormed s) (hrev : Linked s.rtTbl p) {m : RREP}
    (fwd : Option Ptr) (hbuf : s.sendBuf = rrepBuf m) (hm : m.destAddr = own ∨ Named V m.destAddr) :
    Speaks D V A own 2 s (rrepSend e s m p fwd rrepSize) := by
  obtain ⟨hsaid, hkeep, hmet⟩ : Speaks D V A own 1 s _ ∧ _ := unidir_speaks (e := e) h hs hrev
  have hhop := (hmet p (((kept_rrepUnidir e).keys.linked p).2 hrev)).hop
  have hsend : Speaks D V A own 1 (rrepUnidir e s p) (aodvSocketSend e (rrepUnidir e s p) (.rrep m)
      ((rrepUnidir e s p).rt p).nextHop rrepSize maxTtl) := by
    apply Speaks.send _ _ _ (.inr hhop)
    intro b hb
    rcases hkeep with hsame | ht
    · refine names_rrep (fun i hi => ?_) hhop hm
      rw [hb i hi (Nat.lt_of_lt_of_le hi (by decide)), hsame, hbuf]
    · apply names_other
      left
      rw [hb 0 (by decide) (by decide)]
      exact ht
  have hboth := hsaid.trans hsend
  cases fwd with
  | none => exact hboth
  | some f =>
      refine hboth.before (.same ?_)
      exact (Requests.trace_precursorAdd _ _).trans (Requests.trace_precursorAdd _ _)

theorem met_rrepSend (h : AllMet D V s) (hs : WellFormed s) (hrev : Linked s.rtTbl p) (m : RREP)
    (fwd : Option Ptr) (hfwd : ∀ f, fwd = some f → Linked s.rtTbl f) (len : Int) :
    AllMet D V (rrepSend e s m p fwd len) := by
  obtain ⟨-, -, hmet⟩ : Speaks D V (fun _ => True) s.host.ipaddr 1 s _ ∧ _ :=
    unidir_speaks (e := e) h hs hrev
  let s₁ :=
    aodvSocketSend e (rrepUnidir e s p) (.rrep m) ((rrepUnidir e s p).rt p).nextHop len maxTtl
  have hsent : AllMet D V s₁ := hmet.same rfl
  have hkept : Kept s s₁ := (kept_rrepUnidir e).trans (Kept.socketSend e _ _ _ _ _)
  cases fwd with
  | none => exact hsent
  | some f =>
      have hadd := kept_precursorAdd s₁ f (s₁.rt p).nextHop
      have hfirst : AllMet D V (precursorAdd s₁ f (s₁.rt p).nextHop) :=
        hsent.precursor f ((hkept.keys.linked p).2 hrev)
      exact hfirst.precursor p (((hkept.trans hadd).keys.linked f).2 (hfwd f rfl))

theorem reply_speaks (h : AllMet D V s) (hs : WellFormed s) (hrev : Linked s.rtTbl p) {m : RREP}
    (fwd : Option Ptr) (hm : m.destAddr = own ∨ Named V m.destAddr) :
    Speaks D V A own 2 s (rrepSend e { s with sendBuf := rrepBuf m } m p fwd rrepSize) := by
  have hwrite : AllMet D V { s with sendBuf := rrepBuf m } := h.same rfl
  have hsend : Speaks D V A own 2 { s with sendBuf := rrepBuf m } _ :=
    rrepSend_speaks (e := e) hwrite ((Kept.write s _).wellFormed hs) hrev fwd rfl hm
  exact hsend.after (.same rfl)

theorem forUs_speaks (h : AllMet D V s) (hs : WellFormed s) (hrev : Linked s.rtTbl p) (m : RREQ) :
    Speaks D V A s.host.ipaddr 2 s (rreqForUs e s m p) := by
  let s₁ : Daemon := { s.observe (.rreqForUs s.host.seqno m.destSeqno) with
    host := { s.host with seqno := ownSeqno s.host.seqno m.destSeqno } }
  have hmute : Mute s s₁ := .one rfl rfl
  have hmet : AllMet D V s₁ := h.same rfl
  have hws : WellFormed s₁ := by
    have hobs := (Kept.observe s (.rreqForUs s.host.seqno m.destSeqno)).wellFormed hs
    exact ⟨hobs.table, hobs.coherent, hobs.owned, hobs.armed, hobs.fits, hobs.seekBelow,
      hobs.seekNodup, hobs.seekDests, hobs.seekSane, hobs.recordBelow, hobs.blacklistBelow,
      hobs.enabled⟩
  have hreply {m : RREP} (hm : m.destAddr = s.host.ipaddr) : Speaks D V A s.host.ipaddr 2 s₁
      (rrepSend e { s₁ with sendBuf := rrepBuf m } m p none rrepSize) :=
    reply_speaks hmet hws hrev none (.inl hm)
  simp only [rreqForUs, rrepCreate_eq]
  apply Speaks.after _ hmute
  exact hreply rfl

def answerMost (m : RREQ) : Nat := if m.g then 4 else 2

theorem two_le_answerMost (m : RREQ) : 2 ≤ answerMost m := by
  rw [answerMost]
  split <;> decide

theorem answer_speaks (h : AllMet D V s) (hs : WellFormed s) {rev fwd : Ptr}
    (hrev : Linked s.rtTbl rev) (hfwd : Linked s.rtTbl fwd) (m : RREQ) (now : Timeval) :
    Speaks D V A own (answerMost m) s (rreqAnswer e s m rev fwd now) := by
  let s₁ := s.observe (.answer (s.timer (.rtTimer fwd)).timeout now)
  have hmute : Mute s s₁ := .one rfl rfl
  have hmet : AllMet D V s₁ := h.same rfl
  have hkept := Kept.observe s (.answer (s.timer (.rtTimer fwd)).timeout now)
  have hws : WellFormed s₁ := hkept.wellFormed hs
  have hfirst (r : RREP) (hr : Named V r.destAddr) : Speaks D V A own 2 s₁
      (rrepSend e { s₁ with sendBuf := rrepBuf r } r rev (some fwd) rrepSize) :=
    reply_speaks hmet hws hrev (some fwd) (.inr hr)
  -- the second RREP goes the other way, from the state the first one leaves
  have hsecond (r : RREP) {s₂ : Daemon} (h₂ : s₂ = rrepSend e { s₁ with sendBuf := rrepBuf r } r rev
      (some fwd) rrepSize) (k : RREP) (hk : k.destAddr = (s₂.rt rev).destAddr) :
      Speaks D V A own 2 s₂
        (rrepSend e { s₂ with sendBuf := rrepBuf k } k fwd (some rev) rrepSize) := by
    have hreply := kept_reply e s₁ r rev (some fwd)
    have hwrite : AllMet D V { s₁ with sendBuf := rrepBuf r } := hmet.same rfl
    have hnext := met_rrepSend (e := e) hwrite ((Kept.write s₁ _).wellFormed hws) hrev r
      (some fwd) (by rintro f ⟨⟩; exact hfwd) rrepSize
    rw [← h₂] at hreply hnext
    apply reply_speaks hnext (hreply.wellFormed hws) ((hreply.keys.linked fwd).2 hfwd)
    right
    rw [hk]
    exact ⟨_, (hnext rev ((hreply.keys.linked rev).2 hrev)).route⟩
  simp only [rreqAnswer, rrepCreate_eq, answerMost]
  split
  · apply Speaks.after _ hmute
    exact (hfirst _ ⟨_, (hmet fwd hfwd).route⟩).trans (hsecond _ rfl _ rfl)
  · apply Speaks.after _ hmute
    exact hfirst _ ⟨_, (hmet fwd hfwd).route⟩

theorem queued_byte {b : Buf} {len i : Nat} {v w : U8} (hv : v = w)
    (hb : ∀ i, i < len → i < receBufSize → b i = store (copy s.sendBuf buf len) 3 v i)
    (hi : i < len) (hi' : i < receBufSize) : b i = store buf 3 w i := by
  rw [hb i hi hi', hv]
  simp only [store, copy]
  rw [if_pos hi]

theorem rreqForward_speaks (e : Env) (s : Daemon) {len : Nat} (hlen : rreqSize ≤ len)
    (ht : buf 0 = aodvRreq) (hG : A (rreqOf buf).origAddr) (ttl : Int) :
    Speaks D V A own 1 s (rreqForward e s buf len ttl) := by
  have hqueue : Mute s { s with
      sendBuf := store (copy s.sendBuf buf len) 3 (copy s.sendBuf buf len 3 + 1) } := .same rfl
  have hhops : copy s.sendBuf buf len 3 + 1 = buf 3 + 1 := by
    have h3 : 3 < len := Nat.lt_of_lt_of_le (by decide) hlen
    rw [copy, if_pos h3]
  rw [rreqForward]
  refine (Speaks.send _ _ _ (.inl rfl) fun b hb => ?_).after hqueue
  have hagree : ReceivedBytes.Agree rreqSize b (store buf 3 (buf 3 + 1)) := fun i hi =>
    queued_byte hhops hb (Nat.lt_of_lt_of_le hi hlen) (Nat.lt_of_lt_of_le hi (by decide))
  have hread : rreqOf b = { rreqOf buf with hopcnt := buf 3 + 1 } :=
    (ReceivedBytes.rreqOf_congr hagree (Nat.le_refl _)).trans (Mesh.rreqOf_hopcnt buf _)
  have hfirst : b 0 = aodvRreq := (hagree 0 (by decide)).trans ht
  refine ⟨fun _ => .inr ?_, fun hrrep => ?_, ?_⟩
  · rw [hread]
    exact hG
  · rw [hfirst] at hrrep
    exact absurd hrrep (by decide)
  · rw [hfirst]
    decide

theorem passOn_speaks (e : Env) (s : Daemon) {len : Nat} (hlen : rreqSize ≤ len)
    (ht : buf 0 = aodvRreq) (hG : A (rreqOf buf).origAddr) (m : RREQ) (fwd : Option Ptr)
    (ttl : Int) :
    Speaks D V A own 1 s (rreqPassOn e s buf len m fwd ttl) := by
  unfold rreqPassOn
  split
  · cases fwd with
    | none => exact rreqForward_speaks e s hlen ht hG _
    | some f =>
        dsimp only
        split
        · apply rreqForward_speaks e s hlen
          · rw [storeBE_apply_of_disjoint _ _ _ _ (by decide)]
            exact ht
          · rw [rreqOf_destSeqno]
            exact hG
        · exact rreqForward_speaks e s hlen ht hG _
  · exact .same rfl

theorem route_speaks (h : AllMet D V s) (hs : WellFormed s) (hrev : Linked s.rtTbl p) {len : Nat}
    (hlen : rreqSize ≤ len) (ht : buf 0 = aodvRreq) (hG : A (rreqOf buf).origAddr) (m : RREQ)
    (ttl : Int) : Speaks D V A own (answerMost m) s (rreqRoute e s buf len m p ttl) := by
  have hone (s₁ : Daemon) (fwd : Option Ptr) :
      Speaks D V A own (answerMost m) s₁ (rreqPassOn e s₁ buf len m fwd ttl) :=
    (passOn_speaks e s₁ hlen ht hG m fwd ttl).mono
      (Nat.le_trans (by decide) (two_le_answerMost m))
  have htock : AllMet D V s.tock := h.same rfl
  rw [rreqRoute]
  dsimp only
  cases hf : rtTableCheck s.rtTbl m.destAddr with
  | none => exact hone s none
  | some f =>
      dsimp only
      split
      · apply Speaks.after _ (.same rfl : Mute s s.tock)
        split
        · exact answer_speaks htock ((Kept.tock s).wellFormed hs) hrev (rtTableCheck_some hf).1 m _
        · exact hone s.tock (some f)
      · exact hone s (some f)

theorem reverse_speaks (h : AllMet D V s) (m : RREQ) (src : Addr) :
    Speaks D V A own 1 s (rreqReverse e s m src).1 := by
  rw [rreqReverse]
  cases hc : rtTableCheck s.rtTbl m.origAddr with
  | none => exact .mute (mute_insert e s _ _ _ _ _ _ _)
  | some p =>
      dsimp only
      split
      · exact update_speaks h (rtTableCheck_some hc).1 _ _ _ _ _ _
      · exact .same rfl

/-- The most datagrams that are sent on a datagram. An RREQ or an RREP may also
make a neighbour a farther node, which breaks its link. -/
def most (pkt : Packet) : Nat :=
  if isHello pkt then 0
  else if pkt.buf 0 = aodvRreq then 1 + answerMost (rreqOf pkt.buf)
  else if pkt.buf 0 = aodvRrep then 3
  else if pkt.buf 0 = aodvRerr then 1
  else 0

theorem rreq_speaks {pkt : Packet} (h : AllMet D V s) (hs : WellFormed s) (heard : Heard D V pkt)
    (ht : pkt.buf 0 = aodvRreq) (hG : A (rreqOf pkt.buf).origAddr) (ttl : Int) :
    Speaks D V A s.host.ipaddr (1 + answerMost (rreqOf pkt.buf)) s
      (rreqProcess e s pkt.buf pkt.len pkt.src ttl) := by
  by_cases hacc : Accepts s pkt
  · have hframe := recorded_frame (e := e) hacc
    have hrec : Mute s (recorded e s pkt) := .one hframe.2.2.1 rfl
    have hmet : AllMet D V (recorded e s pkt) := h.same hframe.1
    have hstep : Coarse e (.recv pkt) s _ := .accept rfl ht hacc.foreign hacc.length hacc.new
    have hsound := coarse_sound hstep hs
    have hmet₁ := h.coarses hs (by rintro _ ⟨⟩; exact heard) (.single hstep)
    have hrev : Speaks D V A s.host.ipaddr 1 (recorded e s pkt) _ :=
      reverse_speaks (e := e) hmet (rreqOf pkt.buf) pkt.src
    rw [process_accepted hacc]
    obtain ⟨s₁, o, heq⟩ : ∃ s₁ o, rreqReverse e (recorded e s pkt) (rreqOf pkt.buf) pkt.src =
        (s₁, o) := ⟨_, _, rfl⟩
    rw [recorded] at heq hrev
    rw [heq] at hmet₁ hsound hrev
    rw [recorded, heq]
    have hfirst := hrev.after hrec
    cases o with
    | none =>
        dsimp only
        rw [rreqUnrouted]
        split
        · exact hfirst.mono (Nat.le_add_right 1 _)
        · apply (hfirst.trans (passOn_speaks e s₁ hacc.length ht hG _ _ ttl)).mono
          have htwo := two_le_answerMost (rreqOf pkt.buf)
          omega
    | some rev =>
        have hl : Linked s₁.rtTbl rev := linked_reverse heq
        have hrest : Speaks D V A s.host.ipaddr (answerMost (rreqOf pkt.buf)) s₁
            (rest e s₁ pkt rev ttl) := by
          rw [rest]
          split
          · have hus : Speaks D V A s₁.host.ipaddr 2 s₁ _ :=
              forUs_speaks (e := e) hmet₁ hsound.wellFormed hl (rreqOf pkt.buf)
            rw [hsound.ipaddr] at hus
            exact hus.mono (two_le_answerMost _)
          · exact route_speaks hmet₁ hsound.wellFormed hl hacc.length ht hG _ ttl
        exact hfirst.trans hrest
  · rw [Duplicates.process_refused ht hacc]
    exact .same rfl

theorem askAck_met (h : AllMet D V s) (buf : Buf) (rev : Ptr) :
    Mute s (rrepAskAck e s buf rev).1 ∧ AllMet D V (rrepAskAck e s buf rev).1 ∧
      ∀ i, i ≠ 1 → (rrepAskAck e s buf rev).2 i = buf i := by
  rw [rrepAskAck]
  cases rrepAckNeighbor s rev with
  | none => exact ⟨.same rfl, h, fun _ _ => rfl⟩
  | some n =>
      dsimp only
      split
      · exact ⟨.same rfl, h, fun _ _ => rfl⟩
      · have hset : AllMet D V (s.setRt n { s.rt n with
            flags := { (s.rt n).flags with unidir := true } }) := h.setRt rfl
        exact ⟨.same rfl, hset.same rfl, fun i hi => store_apply_of_ne _ _ _ _ hi⟩

theorem rrepForward_speaks (h : AllMet D V s) (hrev : Linked s.rtTbl p) {len : Nat}
    (hlen : rrepSize ≤ len) (ht : buf 0 = aodvRrep) (hG : Named V (rrepOf buf).destAddr) (fwd : Ptr)
    (ttl : Int) : Speaks D V A own 1 s (rrepForward e s buf len p fwd ttl) := by
  obtain ⟨hmute, hmet, hbytes⟩ := askAck_met (e := e) h buf p
  have hkept := kept_rrepAskAck e buf hrev
  rw [rrepForward]
  generalize rrepAskAck e s buf p = o at hmute hmet hbytes hkept
  obtain ⟨s₁, buf₁⟩ := o
  dsimp only at hmute hmet hbytes hkept ⊢
  have hhop := (hmet p ((hkept.keys.linked p).2 hrev)).hop
  have hsend : Speaks D V A own 1 { s₁ with
      sendBuf := store (copy s₁.sendBuf buf₁ len) 3 (s₁.rt fwd).hopcnt } _ :=
    Speaks.send (e := e) (.queued (take (store buf₁ 3 (s₁.rt fwd).hopcnt) len)) len ttl (.inr hhop)
      fun b hb => by
    have hbyte (i : Nat) (hi : i < rrepSize) : b i = store buf₁ 3 (s₁.rt fwd).hopcnt i :=
      queued_byte rfl hb (Nat.lt_of_lt_of_le hi hlen) (Nat.lt_of_lt_of_le hi (by decide))
    have hsame (i : Nat) (hi : i < rrepSize) (h1 : i ≠ 1) (h3 : i ≠ 3) : b i = buf i := by
      rw [hbyte i hi, store_apply_of_ne _ _ _ _ h3, hbytes i h1]
    have hfirst : b 0 = aodvRrep := (hsame 0 (by decide) (by decide) (by decide)).trans ht
    have hdest : (rrepOf b).destAddr = (rrepOf buf).destAddr :=
      loadLE_congr fun i hi hi' =>
        hsame i (Nat.lt_of_lt_of_le hi' (by decide)) (by omega) (by omega)
    refine ⟨fun hrreq => ?_, fun _ => ⟨hhop, .inr ?_⟩, ?_⟩
    · rw [hfirst] at hrreq
      exact absurd hrreq (by decide)
    · rw [hdest]
      exact hG
    · rw [hfirst]
      decide
  have hqueued : Mute s { s₁ with
      sendBuf := store (copy s₁.sendBuf buf₁ len) 3 (s₁.rt fwd).hopcnt } := hmute.trans (.same rfl)
  refine (hsend.after hqueued).before ?_
  refine Said.trans (.same ?_) (updateTimeout_said e _ p _)
  exact (Requests.trace_precursorAdd _ _).trans (Requests.trace_precursorAdd _ _)

theorem rrepRoute_speaks (h : AllMet D V s) {m : RREP} {src : Addr} {wasRepair : Bool}
    {wasHopcnt : U8}
    (hr : rrepRoute e s m src = some (s', p, wasRepair, wasHopcnt)) : Speaks D V A own 1 s s' := by
  rw [rrepRoute] at hr
  dsimp only at hr
  cases hc : rtTableCheck s.rtTbl m.destAddr with
  | none =>
      rw [hc] at hr
      dsimp only at hr
      have hins : Mute s _ := mute_insert e s m.destAddr src (m.hopcnt.setWidth 32 + 1) m.destSeqno
        m.lifetime .valid .zero
      obtain ⟨s₁, o, hi⟩ : ∃ s₁ o, rtTableInsert e s m.destAddr src (m.hopcnt.setWidth 32 + 1)
          m.destSeqno m.lifetime .valid .zero = (s₁, o) := ⟨_, _, rfl⟩
      rw [hi] at hr hins
      cases o with
      | none => cases hr
      | some q =>
          obtain ⟨rfl, -⟩ := Prod.mk.inj (Option.some.inj hr)
          exact .mute hins
  | some q =>
      rw [hc] at hr
      dsimp only at hr
      split at hr
      · obtain ⟨rfl, -⟩ := Prod.mk.inj (Option.some.inj hr)
        exact update_speaks h (rtTableCheck_some hc).1 _ _ _ _ _ _
      · cases hr

theorem answerAck_speaks (own : Addr) (e : Env) (h : AllMet D V s) (hp : Linked s.rtTbl p) :
    Speaks D V A own 1 s (rrepAnswerAck e s p) ∧ AllMet D V (rrepAnswerAck e s p) := by
  have hsend : Speaks D V A own 1 (rrepAckCreate s) _ :=
    Speaks.send (e := e) .rrepAck nextHopWait maxTtl
    (.inr (h p hp).hop) fun b hb => names_other (.inr (hb 0 (by decide) (by decide)))
  exact ⟨hsend.after (.same rfl), h.same rfl⟩

theorem repaired_speaks (e : Env) (s : Daemon) (p : Ptr) (wasRepair : Bool) (wasHopcnt : U8) :
    Speaks D V A own 1 s (rrepRepaired e s p wasRepair wasHopcnt) := by
  rw [rrepRepaired]
  split
  · dsimp only
    split
    · exact (rerr_speaks (type_create _ _ _ _) _ (.inl rfl)).after (.same rfl)
    · exact .same rfl
  · exact .same rfl

theorem rrep_speaks {pkt : Packet} (h : AllMet D V s) (hs : WellFormed s) (heard : Heard D V pkt)
    (ht : pkt.buf 0 = aodvRrep) (ttl : Int) :
    Speaks D V A own 3 s (rrepProcess e s pkt.buf pkt.len pkt.src ttl) := by
  rw [rrepProcess_eq]
  split
  · exact .same rfl
  next hlen =>
    have hlen' : rrepSize ≤ pkt.len := Nat.le_of_not_lt hlen
    split
    · exact .same rfl
    next hne =>
      cases hr : rrepRoute e s (rrepOf pkt.buf) pkt.src with
      | none => exact .same rfl
      | some o =>
          obtain ⟨s₁, p, wasRepair, wasHopcnt⟩ := o
          have hroute : Speaks D V A own 1 s s₁ := rrepRoute_speaks h hr
          obtain ⟨hstep, hp, hkeep⟩ := coarse_rrepRoute rfl ht hlen' hne hr
          have hmet : AllMet D V s₁ := h.coarses hs (by rintro _ ⟨⟩; exact heard) (.single hstep)
          refine hroute.trans (k := 2) ?_
          dsimp only
          unfold rrepRest
          dsimp only
          have hflags : ∀ i, i ≠ 1 → (if (rrepOf pkt.buf).a then
              store pkt.buf 1 (pkt.buf 1 &&& ~~~(bit true 1)) else pkt.buf) i = pkt.buf i := by
            intro i hi
            split
            · exact store_apply_of_ne _ _ _ _ hi
            · rfl
          have hack : Speaks D V A own 1 s₁
                (if (rrepOf pkt.buf).a then rrepAnswerAck e s₁ p else s₁) ∧
              AllMet D V (if (rrepOf pkt.buf).a then rrepAnswerAck e s₁ p else s₁) ∧
              (if (rrepOf pkt.buf).a then rrepAnswerAck e s₁ p else s₁).rtTbl = s₁.rtTbl := by
            split
            · obtain ⟨hsaid, hafter⟩ := answerAck_speaks own e hmet hp
              exact ⟨hsaid, hafter, rfl⟩
            · exact ⟨.same rfl, hmet, rfl⟩
          generalize (if (rrepOf pkt.buf).a then
            store pkt.buf 1 (pkt.buf 1 &&& ~~~(bit true 1)) else pkt.buf) = buf at hflags
          generalize (if (rrepOf pkt.buf).a then rrepAnswerAck e s₁ p else s₁) = s₂ at hack
          obtain ⟨hsaid, hafter, htbl⟩ := hack
          refine hsaid.trans (k := 1) ?_
          split
          · exact repaired_speaks e s₂ p wasRepair wasHopcnt
          · cases hrev : rtTableCheck s.rtTbl (rrepOf pkt.buf).origAddr with
            | none => exact .same rfl
            | some r =>
                have hl : Linked s₂.rtTbl r := by
                  rw [htbl]
                  exact hkeep r (rtTableCheck_some hrev).1
                have hdest : (rrepOf buf).destAddr = (rrepOf pkt.buf).destAddr :=
                  loadLE_congr fun i hi _ => hflags i (by omega)
                dsimp only
                split
                · apply rrepForward_speaks hafter hl hlen'
                  · rw [hflags 0 (by decide)]
                    exact ht
                  · rw [hdest]
                    exact ⟨_, heard.rrep ht⟩
                · exact .same rfl

theorem recv_speaks {pkt : Packet} (h : AllMet D V s) (hs : WellFormed s)
    (heard : received s.host.ipaddr pkt = true → Heard D V pkt)
    (asked : received s.host.ipaddr pkt = true → pkt.buf 0 = aodvRreq →
      A (rreqOf pkt.buf).origAddr) :
    Speaks D V A s.host.ipaddr (most pkt) s (step e s (.recv pkt)) := by
  cases hr : received s.host.ipaddr pkt with
  | false =>
      rw [step_dropped e hs hr]
      exact .same rfl
  | true =>
      obtain ⟨⟨ttl, httl⟩, hne⟩ := Requests.received_iff.1 hr
      have heard := heard hr
      have hadd := mute_neighborAdd e s pkt.src
      have hrun : ReflTransGen (Coarse e (.recv pkt)) s (neighborAdd e s pkt.src) :=
        coarses_neighborAdd rfl hne
      have hsound := coarses_sound hrun hs
      have hmet : AllMet D V (neighborAdd e s pkt.src) :=
        h.coarses hs (by rintro _ ⟨⟩; exact heard) hrun
      by_cases hrreq : pkt.buf 0 = aodvRreq
      · have hhello : isHello pkt = false := by
          rw [isHello, hrreq]
          rfl
        have hall := (rreq_speaks (e := e) hmet hsound.wellFormed heard hrreq (asked hr hrreq)
          ttl.toNat).after hadd
        rw [hsound.ipaddr] at hall
        rw [Requests.step_rreq httl hne hrreq, most, hhello, if_neg Bool.false_ne_true,
          if_pos hrreq]
        exact hall
      · by_cases hrrep : pkt.buf 0 = aodvRrep
        · rw [Requests.step_rrep httl hne hrrep, most]
          split
          · exact .mute (hadd.trans (mute_hello e _ _))
          · exact (rrep_speaks hmet hsound.wellFormed heard hrrep ttl.toNat).after hadd
        · have hlabel :
              ¬ (pkt.buf 0 = aodvRrep ∧ (ttl.toNat : Int) = 1 ∧ pkt.dest = aodvBroadcast) :=
            fun hl => hrrep hl.1
          rw [Requests.step_recv httl hne, aodvSocketPackageProcess, if_neg hlabel]
          by_cases hhello : pkt.buf 0 = aodvHello
          · rw [if_pos hhello]
            exact .mute (hadd.trans (mute_hello e _ _))
          · have hno : isHello pkt = false := by
              rw [isHello, decide_eq_false_iff_not]
              rintro (hkind | ⟨hkind, -⟩)
              · exact hhello hkind
              · exact hrrep hkind
            rw [if_neg hhello, if_neg hrreq, if_neg hrrep, most, hno, if_neg Bool.false_ne_true,
              if_neg hrreq, if_neg hrrep]
            split
            · exact (rerrProcess_speaks hmet pkt.buf pkt.len pkt.src).after hadd
            · split
              · refine .mute (hadd.trans (.same ?_))
                rw [rrepAckProcess]
                cases rtTableCheck (neighborAdd e s pkt.src).rtTbl pkt.src <;> rfl
              · exact .mute hadd

/-- The most datagrams that are sent on an event: one on a message from the kernel
module, and one for each timer that has run out. -/
def mostOn (e : Env) (s : Daemon) : Event → Nat
  | .recv pkt => most pkt
  | .kernel _ | .fire _ => 1
  | .age => (takeDue e.arch (e.clock s.tick) s.tock).timers.exptq.length

theorem step_speaks (h : AllMet D V s) (hs : Resting s) (ev : Event)
    (heard : ∀ pkt, ev = .recv pkt → received s.host.ipaddr pkt = true → Heard D V pkt)
    (asked : ∀ pkt, ev = .recv pkt → received s.host.ipaddr pkt = true → pkt.buf 0 = aodvRreq →
      A (rreqOf pkt.buf).origAddr) :
    Speaks D V A s.host.ipaddr (mostOn e s ev) s (step e s ev) := by
  cases ev with
  | recv pkt => exact recv_speaks h hs.wellFormed (heard pkt rfl) (asked pkt rfl)
  | kernel m => exact kernel_speaks h m
  | age =>
      change Speaks D V A _ _ s (timerAgeQueue e s)
      rw [timerAgeQueue]
      split
      · exact .same rfl
      · have hws := hs.wellFormed_due e.arch (e.clock s.tick)
        have hmet : AllMet D V (takeDue e.arch (e.clock s.tick) s.tock) := h.same rfl
        exact (drain_speaks _ hmet hws).after (.same rfl)
  | fire t =>
      rw [step]
      split
      next ht => exact fire_speaks h hs.wellFormed (.inl ht)
      · exact .same rfl

end Sends

def HeardFrom (own : Addr) (es : List Event) (a : Addr) : Prop :=
  ∃ pkt, .recv pkt ∈ es ∧ received own pkt = true ∧
    (a = pkt.src ∨ isHello pkt = true ∧ a = (rrepOf pkt.buf).destAddr)

def ToldOf (own : Addr) (es : List Event) (n d : Addr) : Prop :=
  ∃ pkt, .recv pkt ∈ es ∧ received own pkt = true ∧
    (n = pkt.src ∧ (d = pkt.src ∨ pkt.buf 0 = aodvRreq ∧ d = (rreqOf pkt.buf).origAddr ∨
        pkt.buf 0 = aodvRrep ∧ d = (rrepOf pkt.buf).destAddr) ∨
      isHello pkt = true ∧ n = (rrepOf pkt.buf).destAddr ∧ d = (rrepOf pkt.buf).destAddr)

def AskedBy (own : Addr) (es : List Event) (d : Addr) : Prop :=
  ∃ pkt, .recv pkt ∈ es ∧ received own pkt = true ∧ pkt.buf 0 = aodvRreq ∧
    d = (rreqOf pkt.buf).origAddr

section Runs

variable {own : Addr} {e : Env} {s : Daemon} {es es' : List Event}

theorem HeardFrom.mono {a : Addr} (h : HeardFrom own es a) (hes : es ⊆ es') :
    HeardFrom own es' a := by
  obtain ⟨pkt, hmem, hr⟩ := h
  exact ⟨pkt, hes hmem, hr⟩

theorem ToldOf.mono {n d : Addr} (h : ToldOf own es n d) (hes : es ⊆ es') : ToldOf own es' n d := by
  obtain ⟨pkt, hmem, hr⟩ := h
  exact ⟨pkt, hes hmem, hr⟩

theorem heard_of_mem {pkt : Packet} (hmem : .recv pkt ∈ es) (hr : received own pkt = true) :
    Heard (HeardFrom own es) (ToldOf own es) pkt where
  src := ⟨⟨pkt, hmem, hr, .inl rfl⟩, ⟨pkt, hmem, hr, .inl ⟨rfl, .inl rfl⟩⟩⟩
  rreq := fun ht => ⟨pkt, hmem, hr, .inl ⟨rfl, .inr (.inl ⟨ht, rfl⟩)⟩⟩
  rrep := fun ht => ⟨pkt, hmem, hr, .inl ⟨rfl, .inr (.inr ⟨ht, rfl⟩)⟩⟩
  hello := fun ht => ⟨⟨pkt, hmem, hr, .inr ⟨ht, rfl⟩⟩, ⟨pkt, hmem, hr, .inr ⟨ht, rfl, rfl⟩⟩⟩

theorem resting_step (hs : Resting s) (ev : Event) :
    Resting (step e s ev) ∧ (step e s ev).host.ipaddr = s.host.ipaddr := by
  obtain ⟨hmoves, hrest⟩ := step_moves (e := e) hs ev
  refine ⟨hrest, ?_⟩
  generalize step e s ev = s' at hmoves
  induction hmoves with
  | refl => rfl
  | tail hrun hm ih => exact (move_ipaddr hm (moves_wellFormed hrun hs.wellFormed)).trans ih

theorem run_snoc (e : Env) (s : Daemon) (es : List Event) (ev : Event) :
    run e s (es ++ [ev]) = step e (run e s es) ev := by
  rw [run, List.foldl_append]
  rfl

theorem met_before (hown : s.host.ipaddr = own) (hmet : AllMet (HeardFrom own es) (ToldOf own es) s)
    (ev : Event) : AllMet (HeardFrom own (es ++ [ev])) (ToldOf own (es ++ [ev])) s ∧
      ∀ pkt, ev = .recv pkt → received s.host.ipaddr pkt = true →
        Heard (HeardFrom own (es ++ [ev])) (ToldOf own (es ++ [ev])) pkt := by
  have hgrow : es ⊆ es ++ [ev] := List.subset_append_left es [ev]
  refine ⟨hmet.mono (fun a ha => ha.mono hgrow) fun n d hv => hv.mono hgrow, ?_⟩
  rintro pkt rfl hr
  rw [hown] at hr
  exact heard_of_mem (List.mem_append_right es (List.mem_singleton_self _)) hr

theorem met_run (e : Env) (own broadcast : Addr) (ifindex : Int) (es : List Event) :
    let s := run e (init e own broadcast ifindex) es
    Resting s ∧ s.host.ipaddr = own ∧ AllMet (HeardFrom own es) (ToldOf own es) s := by
  induction es using List.reverseRecOn with
  | nil => exact ⟨resting_init e own broadcast ifindex, rfl, met_init e own broadcast ifindex⟩
  | append_singleton es ev ih =>
      obtain ⟨hrest, hown, hmet⟩ := ih
      obtain ⟨hmore, heard⟩ := met_before hown hmet ev
      rw [run_snoc]
      obtain ⟨hrest', hown'⟩ := resting_step (e := e) hrest ev
      exact ⟨hrest', hown'.trans hown, met_step hmore hrest heard⟩

/-- On any event a daemon sends only to everyone or to a node it has heard. In RREQs
it names only itself and the originators of RREQs it was sent, in RREPs only itself
and nodes it was told of. Each of its routes is one that its next hop told of, and is
reported only to nodes it has heard. -/
theorem speaks_to_neighbours (e : Env) (own broadcast : Addr) (ifindex : Int) (es : List Event)
    (ev : Event) :
    let s := run e (init e own broadcast ifindex) es
    (∀ o ∈ since s (step e s ev),
        Proper (HeardFrom own (es ++ [ev])) (ToldOf own (es ++ [ev])) (AskedBy own (es ++ [ev]))
          own o) ∧
      ∀ p, Linked (step e s ev).rtTbl p →
        Met (HeardFrom own (es ++ [ev])) (ToldOf own (es ++ [ev])) ((step e s ev).rt p) := by
  intro s
  obtain ⟨hrest, hown, hmet⟩ := met_run e own broadcast ifindex es
  obtain ⟨hmore, heard⟩ := met_before hown hmet ev
  have asked (pkt : Packet) (hev : ev = .recv pkt) (hr : received s.host.ipaddr pkt = true)
      (ht : pkt.buf 0 = aodvRreq) : AskedBy own (es ++ [ev]) (rreqOf pkt.buf).origAddr := by
    rw [hown] at hr
    exact ⟨pkt, by simp [hev], hr, ht, rfl⟩
  have hspeaks : Speaks _ _ _ s.host.ipaddr _ s _ :=
    step_speaks (e := e) hmore hrest ev heard asked
  obtain ⟨l, hl, hproper⟩ := hspeaks.said
  refine ⟨fun o ho => ?_, met_step hmore hrest heard⟩
  rw [since_eq hl] at ho
  have hsaid := hproper o ho
  rw [hown] at hsaid
  exact hsaid

def allowance (e : Env) : Daemon → List Event → Nat
  | _, [] => 0
  | s, ev :: es => mostOn e s ev + allowance e (step e s ev) es

theorem sends_run (hs : Resting s) (hmet : AllMet (fun _ => True) (fun _ _ => True) s)
    (es : List Event) : sends (run e s es) ≤ sends s + allowance e s es := by
  have heard (pkt : Packet) : Heard (fun _ => True) (fun _ _ => True) pkt :=
    ⟨⟨trivial, trivial⟩, fun _ => trivial, fun _ => trivial, fun _ => ⟨trivial, trivial⟩⟩
  induction es generalizing s with
  | nil => exact Nat.le_refl _
  | cons ev es ih =>
      have hstep : sends (step e s ev) ≤ sends s + mostOn e s ev :=
        (step_speaks (A := fun _ => True) hmet hs ev (fun pkt _ _ => heard pkt)
          fun _ _ _ _ => trivial).count
      have hrest := ih (resting_step (e := e) hs ev).1 (met_step hmet hs fun pkt _ _ => heard pkt)
      change sends (run e (step e s ev) es) ≤ _
      rw [allowance]
      omega

/-- From any point of a run on, the traffic of a daemon is bounded by what happens
to it: HELLOs and RREP_ACKs are never answered, an RERR by one datagram, an RREP by
three, an RREQ by three or five, a message of the kernel module by one, and a timer
that runs out sends one. -/
theorem traffic_bounded (e : Env) (own broadcast : Addr) (ifindex : Int) (before es : List Event) :
    let s := run e (init e own broadcast ifindex) before
    sends (run e s es) ≤ sends s + allowance e s es := by
  obtain ⟨hrest, -, hmet⟩ := met_run e own broadcast ifindex before
  exact sends_run hrest (hmet.mono (fun _ _ => trivial) fun _ _ _ => trivial) es

end Runs

end Aodv.Mesh
