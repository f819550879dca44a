import Aodv.Handlers

namespace Aodv

open Lib.Bytes Relation

/-- The history has grown by observations of one kind. -/
def Said (P : Obs → Prop) (s s' : Daemon) : Prop :=
  ∃ l, s'.trace = l ++ s.trace ∧ ∀ o ∈ l, P o

namespace Said

variable {P Q : Obs → Prop} {s s' s'' : Daemon}

theorem same (h : s'.trace = s.trace) : Said P s s' := ⟨[], h, fun _ ho => absurd ho (List.not_mem_nil)⟩

theorem one {o : Obs} (h : s'.trace = o :: s.trace) (ho : P o) : Said P s s' :=
  ⟨[o], h, fun _ ho' => List.mem_singleton.1 ho' ▸ ho⟩

theorem trans (h : Said P s s') (h' : Said P s' s'') : Said P s s'' := by
  obtain ⟨l, hl, hP⟩ := h
  obtain ⟨l', hl', hP'⟩ := h'
  refine ⟨l' ++ l, by rw [hl', hl, List.append_assoc], fun o ho => ?_⟩
  rcases List.mem_append.1 ho with ho | ho
  · exact hP' o ho
  · exact hP o ho

theorem mono (h : Said P s s') (hPQ : ∀ o, P o → Q o) : Said Q s s' := by
  obtain ⟨l, hl, hP⟩ := h
  exact ⟨l, hl, fun o ho => hPQ o (hP o ho)⟩

theorem suffix (h : Said P s s') : s.trace <:+ s'.trace := by
  obtain ⟨l, hl, _⟩ := h
  exact ⟨l, hl.symm⟩

theorem forall_mem (h : Said P s s') {R : Obs → Prop} (hs : ∀ o ∈ s.trace, R o)
    (hPR : ∀ o ∈ s'.trace, P o → R o) : ∀ o ∈ s'.trace, R o := by
  obtain ⟨l, hl, hP⟩ := h
  intro o ho
  have ho' := ho
  rw [hl] at ho'
  rcases List.mem_append.1 ho' with hm | hm
  · exact hPR o ho (hP o hm)
  · exact hs o hm

end Said

/-- The observations that s' adds to the history of s. -/
def since (s s' : Daemon) : List Obs := s'.trace.take (s'.trace.length - s.trace.length)

theorem since_eq {s s' : Daemon} {l : List Obs} (h : s'.trace = l ++ s.trace) : since s s' = l := by
  rw [since, h, List.length_append, Nat.add_sub_cancel]
  exact List.take_left

inductive NlObs : Obs → Prop
  | nl (m : NlMsg) : NlObs (.nl m)
  | kernelRoute (add : Bool) (dest gw : Addr) (metric ifindex : Int) :
      NlObs (.kernelRoute add dest gw metric ifindex)

inductive RouteObs : Obs → Prop
  | nl (m : NlMsg) : RouteObs (.nl m)
  | down (p : Ptr) (old : RtEntry) : RouteObs (.rtInvalidate p old)
  | kernelRoute (add : Bool) (dest gw : Addr) (metric ifindex : Int) :
      RouteObs (.kernelRoute add dest gw metric ifindex)

theorem NlObs.route {o : Obs} (h : NlObs o) : RouteObs o := by
  cases h with
  | nl m => exact .nl m
  | kernelRoute add dest gw metric ifindex => exact .kernelRoute add dest gw metric ifindex

inductive LbObs : Obs → Prop
  | route {o : Obs} (h : RouteObs o) : LbObs o
  | rerr (m : RERR) (dest : Addr) (len ttl : Int) (sent : Option (List U8))
      (hf : m.udests.length ≤ 127 → Faithful (.rerr m) len sent) :
      LbObs (.socketSend (.rerr m) dest len ttl sent)

/-- What a quiet step says when the history before it is tr. -/
inductive QuietObs (a : Arch) (tr : List Obs) : Obs → Prop
  | lb {o : Obs} (h : LbObs o) : QuietObs a tr o
  | rrep (m : RREP) (dest : Addr) (len ttl : Int) (sent : Option (List U8))
      (hf : .unidirBreak true ∉ tr → Faithful (.rrep m) len sent) (ho : Offered a tr m.lifetime) :
      QuietObs a tr (.socketSend (.rrep m) dest len ttl sent)
  | rrepAck (dest : Addr) (len ttl : Int) (sent : Option (List U8)) :
      QuietObs a tr (.socketSend .rrepAck dest len ttl sent)
  | queued (bytes : List U8) (dest : Addr) (len ttl : Int) (sent : Option (List U8))
      (hf : Faithful (.queued bytes) len sent) :
      QuietObs a tr (.socketSend (.queued bytes) dest len ttl sent)
  | rerrSeqno (p : Ptr) (old : RtEntry) (seqno : U32) : QuietObs a tr (.rerrSeqno p old seqno)
  | unidirBreak (reports : Bool) : QuietObs a tr (.unidirBreak reports)
  | answer (deadline now : Timeval) : QuietObs a tr (.answer deadline now)

inductive Mark : Obs → Prop
  | discovery (q : Ptr) (found : Option RtEntry) : Mark (.discovery q found)
  | again (q : Ptr) : Mark (.discoveryAgain q)
  | failed (q : Ptr) : Mark (.discoveryFailed q)

inductive TableObs (a : Arch) (tr : List Obs) : Obs → Prop
  | quiet {o : Obs} (h : QuietObs a tr o) : TableObs a tr o
  | rtInsert (dest next : Addr) (hops seqno lifetime : U32) (state : RtState) (flags : RtFlags) :
      TableObs a tr (.rtInsert dest next hops seqno lifetime state flags)
  | rtUpdate (p : Ptr) (old : RtEntry) (next : Addr) (hops seqno lifetime : U32) (state : RtState)
      (flags : RtFlags) : TableObs a tr (.rtUpdate p old next hops seqno lifetime state flags)
  | accepted (m : RREQ) (src : Addr) : TableObs a tr (.rreqAccepted m src)
  | localRepair (old : RtEntry) : TableObs a tr (.localRepair old)

inductive FineObs (a : Arch) (tr : List Obs) : Obs → Prop
  | table {o : Obs} (h : TableObs a tr o) : FineObs a tr o
  | rreq (m : RREQ) (dest : Addr) (len ttl : Int) (sent : Option (List U8))
      (hf : Faithful (.rreq m) len sent) : FineObs a tr (.socketSend (.rreq m) dest len ttl sent)
  | forUs (own dest : U32) : FineObs a tr (.rreqForUs own dest)
  | mark {o : Obs} (h : Mark o) : FineObs a tr o

theorem nlSendBoth_said {P : Obs → Prop} (e : Env) (s : Daemon) {first second : Obs}
    (hfirst : P first) (hsecond : P second) : Said P s (nlSendBoth e s first second) := by
  have hboth : ∀ o ∈ [second, first], P o := by
    intro o ho
    rcases List.mem_cons.1 ho with rfl | ho
    · exact hsecond
    · exact List.mem_singleton.1 ho ▸ hfirst
  by_cases h : e.sendmsg s.tick
  · by_cases h' : e.sendmsg (s.tick + 1)
    · exact ⟨[second, first], by simp [nlSendBoth, h, h'], hboth⟩
    · exact .one (by simp [nlSendBoth, h, h']) hfirst
  · exact .same (by simp [nlSendBoth, h])

structure Admits (P : Obs → Prop) : Prop where
  nl : ∀ m, (∀ d, m ≠ .noRouteFound d) → P (.nl m)
  kernelRoute : ∀ add dest gw metric ifindex, P (.kernelRoute add dest gw metric ifindex)

theorem Admits.of_nl {P : Obs → Prop} (h : ∀ o, NlObs o → P o) : Admits P :=
  ⟨fun m _ => h _ (.nl m), fun _ _ _ _ _ => h _ (.kernelRoute _ _ _ _ _)⟩

section Messages

variable {P : Obs → Prop} (hP : Admits P) (e : Env) (s : Daemon)

include hP

theorem addRoute_told (dest next : Addr) (metric : Int) (lifetime : U32) (flags : RtFlags)
    (ifindex : Int) : Said P s (nlSendAddRouteMsg e s dest next metric lifetime flags ifindex) :=
  nlSendBoth_said e s (hP.nl _ (by rintro _ ⟨⟩)) (hP.kernelRoute _ _ _ _ _)

theorem delRoute_told (dest next : Addr) (metric : Int) :
    Said P s (nlSendDelRouteMsg e s dest next metric) :=
  nlSendBoth_said e s (hP.nl _ (by rintro _ ⟨⟩)) (hP.kernelRoute _ _ _ _ _)

theorem invalidate_told (hdown : ∀ p old, P (.rtInvalidate p old)) (p : Ptr) :
    Said P s (rtTableInvalidate e s p) := by
  rw [rtTableInvalidate]
  dsimp only
  cases (s.tock.rt p).state with
  | invalid => exact .same rfl
  | valid =>
      have hobs : Said P s (s.observe (.rtInvalidate p (s.tock.rt p))) := .one rfl (hdown _ _)
      exact hobs.trans (delRoute_told hP e _ _ _ _)

theorem delete_told (p : Ptr) : Said P s (rtTableDelete e s p) := by
  rw [rtTableDelete]
  dsimp only
  cases ((precursorListDestroy { s with rtTbl := listRemove s.rtTbl p } p).rt p).state with
  | invalid => exact .same rfl
  | valid => exact delRoute_told hP e (precursorListDestroy
      { s with rtTbl := listRemove s.rtTbl p } p) _ _ _

end Messages

theorem delRoute_said (e : Env) (s : Daemon) (dest next : Addr) (metric : Int) :
    Said NlObs s (nlSendDelRouteMsg e s dest next metric) :=
  delRoute_told (.of_nl fun _ h => h) e s _ _ _

theorem trace_invalidate (e : Env) {s : Daemon} {p : Ptr} (hv : (s.rt p).state = .valid) :
    Said NlObs (s.observe (.rtInvalidate p (s.rt p))) (rtTableInvalidate e s p) := by
  have hv' : (s.tock.rt p).state = .valid := hv
  rw [rtTableInvalidate]
  simp only [hv']
  exact delRoute_said e _ _ _ _

theorem noRoute_said (e : Env) (s : Daemon) (dest : Addr) :
    Said NlObs s (nlSendNoRouteFoundMsg e s dest) := by
  by_cases h : e.sendmsg s.tick
  · exact .one (by simp [nlSendNoRouteFoundMsg, h]; rfl) (.nl _)
  · exact .same (by simp [nlSendNoRouteFoundMsg, h])

theorem invalidate_said (e : Env) (s : Daemon) (p : Ptr) :
    Said RouteObs s (rtTableInvalidate e s p) :=
  invalidate_told (.of_nl fun _ => NlObs.route) e s .down p

theorem updateTimeout_said {P : Obs → Prop} (e : Env) (s : Daemon) (p : Ptr) (lifetime : U32) :
    Said P s (rtTableUpdateTimeout e s p lifetime) := by
  obtain ⟨_, _, h⟩ := updateTimeout_eq e s p lifetime
  rw [h]
  exact .same rfl

theorem routeFound_trace (s : Daemon) (p : Ptr) : (routeFound s p).trace = s.trace := by
  rw [routeFound]
  split
  · cases seekListCheck s (s.rt p).destAddr <;> rfl
  · rfl

theorem insertEntry_told {P : Obs → Prop} (hP : Admits P) (e : Env) (s : Daemon) (r : RtEntry)
    (hops lifetime : U32) : Said P s (insertEntry e s r hops lifetime) := by
  have hopen : Said P s (openEntry e (linkEntry s r) s.brk hops lifetime).1 := by
    rw [openEntry]
    cases ((linkEntry s r).rt s.brk).state with
    | invalid =>
        dsimp only
        split <;> exact .same rfl
    | valid => exact addRoute_told hP e _ _ _ _ _ _ _
  refine hopen.trans (.same ?_)
  rw [insertEntry, routeFound_trace, armEntry]
  split <;> rfl

theorem insertEntry_said (e : Env) (s : Daemon) (r : RtEntry) (hops lifetime : U32) :
    Said NlObs s (insertEntry e s r hops lifetime) :=
  insertEntry_told (.of_nl fun _ h => h) e s r hops lifetime

theorem insert_told {P : Obs → Prop} (hP : Admits P) (e : Env) (s : Daemon) {dest next : Addr}
    {hops seqno lifetime : U32} {state : RtState} {flags : RtFlags}
    (hins : P (.rtInsert dest next hops seqno lifetime state flags)) :
    Said P s (rtTableInsert e s dest next hops seqno lifetime state flags).1 := by
  obtain h | ⟨_, h⟩ := rtTableInsert_cases e s dest next hops seqno lifetime state flags
  · rw [h]
    exact .same rfl
  · rw [h]
    have hobs : Said P s (s.observe (.rtInsert dest next hops seqno lifetime state flags)) :=
      .one rfl hins
    exact hobs.trans (insertEntry_told hP e _ _ hops lifetime)

theorem insert_said {l : List Obs} (e : Env) (s : Daemon) (dest next : Addr)
    (hops seqno lifetime : U32) (state : RtState) (flags : RtFlags) :
    Said (TableObs e.arch l) s
      (rtTableInsert e s dest next hops seqno lifetime state flags).1 :=
  insert_told (.of_nl fun _ ho => .quiet (.lb (.route ho.route))) e s (.rtInsert _ _ _ _ _ _ _)

structure AdmitsBreak (P : Obs → Prop) : Prop extends Admits P where
  down : ∀ p old, P (.rtInvalidate p old)
  rerr : ∀ m dest len ttl sent, (m.udests.length ≤ 127 → Faithful (.rerr m) len sent) →
    P (.socketSend (.rerr m) dest len ttl sent)

theorem AdmitsBreak.of_lb {P : Obs → Prop} (h : ∀ o, LbObs o → P o) : AdmitsBreak P where
  toAdmits := .of_nl fun _ ho => h _ (.route ho.route)
  down := fun _ _ => h _ (.route (.down _ _))
  rerr := fun _ _ _ _ _ hf => h _ (.rerr _ _ _ _ _ hf)

section Breaks

variable {P : Obs → Prop} (hP : AdmitsBreak P) {e : Env} {s s' : Daemon} {p : Ptr}

include hP

theorem lb_told (h : Lb e s s') : Said P s s' := by
  cases h with
  | tock | destroy | rerrNew | rerrAdd => exact .same rfl
  | down => exact invalidate_told hP.toAdmits e s hP.down _
  | @repair p => exact invalidate_told hP.toAdmits e (markRepair s p) hP.down p
  | rerrSend m dest len ht hc =>
      exact .one rfl (hP.rerr m dest len 1 _ fun hl => (hc hl).faithful e dest)

theorem lbs_told (h : ReflTransGen (Lb e) s s') : Said P s s' := by
  induction h with
  | refl => exact .same rfl
  | tail _ h ih => exact ih.trans (lb_told hP h)

theorem linkBreak_told (hp : Linked s.rtTbl p) : Said P s (neighborLinkBreak e s p) :=
  lbs_told hP (lb_linkBreak e hp)

theorem updateBreak_told (hops : U32) (hp : Linked s.rtTbl p) : Said P s (updateBreak e s p hops) := by
  rw [updateBreak]
  dsimp only
  split
  · exact linkBreak_told hP (s := pop (s.setRt p { s.rt p with
      lastHelloTime := ⟨0, 0⟩, helloCnt := 0 }) (.helloTimer p)) hp
  · exact .same rfl

theorem helloTimeout_told (hp : Linked s.rtTbl p) : Said P s (helloTimeout e s p) := by
  rw [helloTimeout]
  dsimp only
  split
  · split
    · exact linkBreak_told hP (s := markRepair s.tock p) hp
    · exact linkBreak_told hP (s := s.tock) hp
  · exact .same rfl

end Breaks

theorem lb_said {e : Env} {s s' : Daemon} (h : Lb e s s') : Said LbObs s s' :=
  lb_told (.of_lb fun _ h => h) h

theorem lbs_said {e : Env} {s s' : Daemon} (h : ReflTransGen (Lb e) s s') : Said LbObs s s' :=
  lbs_told (.of_lb fun _ h => h) h

theorem linkBreak_said (e : Env) {s : Daemon} {p : Ptr} (hp : Linked s.rtTbl p) :
    Said LbObs s (neighborLinkBreak e s p) := linkBreak_told (.of_lb fun _ h => h) hp

theorem helloTimeout_said (e : Env) {s : Daemon} {p : Ptr} (hp : Linked s.rtTbl p) :
    Said LbObs s (helloTimeout e s p) := helloTimeout_told (.of_lb fun _ h => h) hp

theorem updateBegin_told {P : Obs → Prop} (hP : Admits P) (e : Env) (s : Daemon) (p : Ptr)
    (next : Addr) (hops lifetime : U32) (state : RtState) (flags : RtFlags) :
    Said P s (updateBegin e s p next hops lifetime state flags).1 := by
  rw [updateBegin]
  dsimp only
  split
  · exact addRoute_told hP e { s with rtTbl := { s.rtTbl with numActive := s.rtTbl.numActive + 1 } }
      _ _ _ _ _ _
  · split
    · exact addRoute_told hP e _ _ _ _ _ _ _
    · exact .same rfl

theorem updateBegin_said (e : Env) (s : Daemon) (p : Ptr) (next : Addr) (hops lifetime : U32)
    (state : RtState) (flags : RtFlags) :
    Said NlObs s (updateBegin e s p next hops lifetime state flags).1 :=
  updateBegin_told (.of_nl fun _ h => h) e s p next hops lifetime state flags

theorem updateFinish_trace (e : Env) (s : Daemon) (p : Ptr) (next : Addr)
    (hops seqno lifetime : U32) (state : RtState) (flags : RtFlags) :
    (updateFinish e s p next hops seqno lifetime state flags).trace = s.trace := by
  rw [updateFinish, routeFound_trace]
  change (if flags.inetDest then writeUpdate s p next hops seqno flags
    else rtTableUpdateTimeout e (writeUpdate s p next hops seqno flags) p lifetime).trace = s.trace
  split
  · rfl
  · obtain ⟨_, _, h⟩ := updateTimeout_eq e (writeUpdate s p next hops seqno flags) p lifetime
    rw [h]
    rfl

/-- The call of an update is the oldest thing it adds to the history. -/
theorem update_rest {P : Obs → Prop} (hP : AdmitsBreak P) (e : Env) {s : Daemon} {p : Ptr}
    (hp : Linked s.rtTbl p) (next : Addr) (hops seqno lifetime : U32) (state : RtState)
    (flags : RtFlags) :
    Said P (s.observe (.rtUpdate p (s.rt p) next hops seqno lifetime state flags))
      (rtTableUpdate e s p next hops seqno lifetime state flags) := by
  have hobs := Kept.observe s (.rtUpdate p (s.rt p) next hops seqno lifetime state flags)
  have hbegin := hobs.trans (kept_updateBegin e _ p next hops lifetime state flags)
  have hp' := (hbegin.keys.linked p).2 hp
  have hgrow := updateBegin_told hP.toAdmits e (s.observe (.rtUpdate p (s.rt p) next hops seqno
    lifetime state flags)) p next hops lifetime state flags
  have hbreak := updateBreak_told hP (e := e) hops hp'
  exact (hgrow.trans hbreak).trans (.same (updateFinish_trace e _ _ _ _ _ _ _ _))

theorem update_said (e : Env) {s : Daemon} {p : Ptr} (hp : Linked s.rtTbl p) (next : Addr)
    (hops seqno lifetime : U32) (state : RtState) (flags : RtFlags) :
    Said LbObs (s.observe (.rtUpdate p (s.rt p) next hops seqno lifetime state flags))
      (rtTableUpdate e s p next hops seqno lifetime state flags) :=
  update_rest (.of_lb fun _ h => h) e hp next hops seqno lifetime state flags

theorem update_told {P : Obs → Prop} (hP : AdmitsBreak P) (e : Env) {s : Daemon} {p : Ptr}
    (hp : Linked s.rtTbl p) {next : Addr} {hops seqno lifetime : U32} {state : RtState}
    {flags : RtFlags} (hupd : P (.rtUpdate p (s.rt p) next hops seqno lifetime state flags)) :
    Said P s (rtTableUpdate e s p next hops seqno lifetime state flags) :=
  Said.trans (.one rfl hupd) (update_rest hP e hp next hops seqno lifetime state flags)

inductive ReportObs : Obs → Prop
  | nl {o : Obs} (h : NlObs o) : ReportObs o
  | rerr (m : RERR) (dest : Addr) (len ttl : Int) (sent : Option (List U8))
      (hf : m.udests.length ≤ 127 → Faithful (.rerr m) len sent) :
      ReportObs (.socketSend (.rerr m) dest len ttl sent)

theorem ReportObs.lb {o : Obs} (h : ReportObs o) : LbObs o := by
  cases h with
  | nl h => exact .route h.route
  | rerr m dest len ttl sent hf => exact .rerr m dest len ttl sent hf

theorem repairTimeout_told {P : Obs → Prop} (hP : Admits P)
    (hrerr : ∀ m dest len ttl sent, (m.udests.length ≤ 127 → Faithful (.rerr m) len sent) →
      P (.socketSend (.rerr m) dest len ttl sent)) (e : Env) (s : Daemon) (p : Ptr) :
    Said P s (localRepairTimeout e s p) := by
  have hover : Said P s (repairOver e s p) := delRoute_told hP e (s.setRt p _) _ _ _
  have hreport : Said P (repairOver e s p) (repairReport e (repairOver e s p) p) := by
    have hw := written_create (repairOver e s p) false ((repairOver e s p).rt p).destAddr
      ((repairOver e s p).rt p).destSeqno
    rw [repairReport]
    dsimp only
    split
    · exact .one rfl (hrerr _ _ _ 1 _ fun hl => (hw.carries hl).faithful e _)
    · exact .same rfl
  exact hover.trans (hreport.trans (.same rfl))

theorem repairTimeout_said (e : Env) (s : Daemon) (p : Ptr) :
    Said ReportObs s (localRepairTimeout e s p) :=
  repairTimeout_told (.of_nl fun _ => .nl) .rerr e s p

theorem delete_said (e : Env) (s : Daemon) (p : Ptr) : Said NlObs s (rtTableDelete e s p) :=
  delete_told (.of_nl fun _ h => h) e s p

theorem quiet_said {e : Env} {ev : Event} {s s' : Daemon} (h : Quiet e ev s s')
    (hs : WellFormed s) : Said (QuietObs e.arch s.trace) s s' := by
  cases h with
  | lb h => exact (lb_said h).mono fun _ => .lb
  | updateTimeout hl hp => exact updateTimeout_said e s _ _
  | @precursor p r hp hr =>
      refine .same ?_
      simp only [precursorAdd]
      split <;> rfl
  | unidirBreak reports => exact .one rfl (.unidirBreak reports)
  | answer => exact .one rfl (.answer _ _)
  | rerrSeqno hp h ht hlen hu => exact .one rfl (.rerrSeqno _ _ _)
  | rrepSend m dest hc ho =>
      exact .one rfl (.rrep m dest _ _ _ (fun hno => (hc hno).faithful e dest) ho)
  | rrepAck p => exact .one rfl (.rrepAck _ _ _ _)
  | relay buf len hopcnt dest ttl hlen hr =>
      refine .one rfl (.queued _ dest len ttl _ (Carries.faithful ⟨?_, ?_⟩ e dest))
      · simp only [wireSize, wireBytes, take_length]
        refine take_congr fun i hi => ?_
        by_cases h3 : i = 3
        · subst i
          rw [store_apply_self, store_apply_self]
        · rw [store_apply_of_ne _ _ _ _ h3, store_apply_of_ne _ _ _ _ h3, copy, if_pos hi]
      · simp only [wireSize, take_length]
  | repairTimeout hp hr => exact (repairTimeout_said e s _).mono fun _ ho => .lb ho.lb
  | delete hp hh => exact (delete_said e s _).mono fun _ ho => .lb (.route ho.route)
  | @helloFire p hp =>
      exact (helloTimeout_said e (s := pop s (.helloTimer p)) (hs.owned _ hp)).mono fun _ => .lb
  | blacklist dest =>
      refine .same ?_
      rw [rreqBlacklistInsert]
      split <;> rfl
  | helloArm | helloCount | dropHello | dropAck | armAck | unidir | expireIdle | dropRecord
  | dropBlacklist | armLog | armWorb | rrepWrite => exact .same rfl

theorem rreqSend_said {l : List Obs} (e : Env) (s : Daemon) (dest : Addr) (seqno : U32)
    (ttl : Int) (flags : U8) :
    Said (FineObs e.arch l) s (rreqSend e s dest seqno ttl flags) := by
  rw [rreqSend]
  split
  · exact .one rfl (.rreq _ _ _ _ _ (Carries.faithful ⟨rfl, rfl⟩ e _))
  · exact .same rfl

theorem record_said {l : List Obs} (e : Env) (s : Daemon) (m : RREQ) (src : Addr) :
    Said (TableObs e.arch l) s
      (rreqRecordInsert e (s.observe (.rreqAccepted m src)) m.origAddr m.rreqId) := by
  rw [rreqRecordInsert]
  split <;> exact .one rfl (.accepted m src)

theorem fine_cases {e : Env} {ev : Event} {s s' : Daemon} (h : Fine e ev s s')
    (hs : WellFormed s) :
    (s'.host.seqno = s.host.seqno ∧ Said (fun o => TableObs e.arch s.trace o ∨ Mark o) s s') ∨
      (∃ dest, s' = { s.observe (.rreqForUs s.host.seqno dest) with
        host := { s.host with seqno := ownSeqno s.host.seqno dest } }) ∨
      ∃ dest seqno ttl flags, s' = rreqSend e s dest seqno ttl flags := by
  cases h with
  | quiet h =>
      exact .inl ⟨(quiet_calm h hs).seqno, (quiet_said h hs).mono fun _ ho => .inl (.quiet ho)⟩
  | insert lifetime state hl =>
      exact .inl ⟨seqno_insert e s _ _ _ _ _ _ _, (insert_said e s _ _ _ _ _ _ _).mono fun _ => .inl⟩
  | @update p src next hops seqno lifetime hp hl =>
      obtain ⟨s₁, hkept, heq⟩ := update_kept e s hp next hops seqno lifetime .valid (s.rt p).flags
      have hobs : Said (fun o => TableObs e.arch s.trace o ∨ Mark o) s
          (s.observe (.rtUpdate p (s.rt p) next hops seqno lifetime .valid (s.rt p).flags)) :=
        .one rfl (.inl (.rtUpdate _ _ _ _ _ _ _ _))
      refine .inl ⟨?_, hobs.trans ((update_said e hp _ _ _ _ _ _).mono fun _ ho =>
        .inl (.quiet (.lb ho)))⟩
      rw [heq, seqno_routeFound]
      exact hkept.seqno
  | record h ht hnew =>
      refine .inl ⟨?_, (record_said e s _ _).mono fun _ => .inl⟩
      rw [rreqRecordInsert]
      split <;> rfl
  | forUs h ht => exact .inr (.inl ⟨_, rfl⟩)
  | rreqSend dest seqno ttl flags hseq => exact .inr (.inr ⟨dest, seqno, ttl, flags, rfl⟩)
  | discovery q found => exact .inl ⟨rfl, .one rfl (.inr (.discovery q found))⟩
  | @seekCount q hq => exact .inl ⟨rfl, .one rfl (.inr (.again q))⟩
  | @repairStart p hp hr => exact .inl ⟨rfl, .one rfl (.inl (.localRepair (s.rt p)))⟩
  | seekNew | seekRing => exact .inl ⟨rfl, .same rfl⟩
  | @seekFail q hq =>
      have hobs : Said (fun o => TableObs e.arch s.trace o ∨ Mark o) s
          ((pop s (.seekTimer q)).tock.observe (.discoveryFailed q)) :=
        .one rfl (.inr (.failed q))
      exact .inl ⟨rfl, hobs.trans ((noRoute_said e _ _).mono fun _ ho =>
        .inl (.quiet (.lb (.route ho.route))))⟩

theorem fine_said {e : Env} {ev : Event} {s s' : Daemon} (h : Fine e ev s s')
    (hs : WellFormed s) : Said (FineObs e.arch s.trace) s s' := by
  rcases fine_cases h hs with ⟨_, hsaid⟩ | ⟨dest, rfl⟩ | ⟨dest, seqno, ttl, flags, rfl⟩
  · exact hsaid.mono fun _ ho => ho.elim .table .mark
  · exact .one rfl (.forUs _ _)
  · exact rreqSend_said e s dest seqno ttl flags

theorem fines_trace {e : Env} {ev : Event} {s s' : Daemon} (h : ReflTransGen (Fine e ev) s s')
    (hs : WellFormed s) : s.trace <:+ s'.trace := by
  induction h with
  | refl => exact List.suffix_refl _
  | tail h' h ih => exact ih.trans (fine_said h (fines_sound h' hs).wellFormed).suffix

end Aodv
