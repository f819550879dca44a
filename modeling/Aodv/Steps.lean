import Aodv.LinkBreak

namespace Aodv

open Lib.Bytes Relation

def pop (s : Daemon) (t : TimerId) : Daemon := { s with timers := timerRemove s.timers t }

/-- Where the arguments of an insertion or an update can come from. -/
inductive Source
  | neighbor
  | rreq
  | rrep
  | hello
deriving DecidableEq

/-- What the received datagram makes a handler store: the destination, the next
hop, the hop count, the sequence number and the lifetime. The argument own is the
address of the daemon, and old is the number the entry had, zero for a new one. -/
inductive Learned (own : Addr) (ev : Event) (old : U32) :
    Source → Addr → Addr → U32 → U32 → U32 → Prop
  | neighbor {pkt : Packet} (h : ev = .recv pkt) (hne : pkt.src ≠ own) :
      Learned own ev old .neighbor pkt.src pkt.src 1 old (u32 activeRouteTimeout)
  | rreq {pkt : Packet} (h : ev = .recv pkt) (ht : pkt.buf 0 = aodvRreq)
      (hne : (rreqOf pkt.buf).origAddr ≠ own) :
      Learned own ev old .rreq (rreqOf pkt.buf).origAddr pkt.src
        ((rreqOf pkt.buf).hopcnt.setWidth 32 + 1) (rreqOf pkt.buf).origSeqno
        (rreqLife ((rreqOf pkt.buf).hopcnt.setWidth 32 + 1))
  | rrep {pkt : Packet} (h : ev = .recv pkt) (ht : pkt.buf 0 = aodvRrep)
      (hlen : rrepSize ≤ pkt.len) (hne : (rrepOf pkt.buf).destAddr ≠ own) :
      Learned own ev old .rrep (rrepOf pkt.buf).destAddr pkt.src
        ((rrepOf pkt.buf).hopcnt.setWidth 32 + 1) (rrepOf pkt.buf).destSeqno
        (rrepOf pkt.buf).lifetime
  | hello {pkt : Packet} (h : ev = .recv pkt) (ht : isHello pkt = true) :
      Learned own ev old .hello (rrepOf pkt.buf).destAddr (rrepOf pkt.buf).destAddr 1
        (rrepOf pkt.buf).destSeqno (u32 (allowedHelloLoss * helloInterval + routeTimeoutSlack))

def Offered (a : Arch) (tr : List Obs) (lifetime : U32) : Prop :=
  lifetime = u32 myRouteTimeout ∨
    ∃ deadline now, .answer deadline now ∈ tr ∧ lifetime = u32 (timevalDiff a deadline now)

theorem Offered.mono {a : Arch} {tr tr' : List Obs} {lifetime : U32} (h : Offered a tr lifetime)
    (htr : tr <:+ tr') : Offered a tr' lifetime := by
  obtain h | ⟨deadline, now, hm, hl⟩ := h
  · exact .inl h
  · exact .inr ⟨deadline, now, htr.subset hm, hl⟩

/-- A message that is passed on: an RREP of this event, or an accepted RREQ with
the sequence number of its destination brought up to date. -/
inductive Relayed (ev : Event) (s : Daemon) (buf : Buf) : Prop
  | rrep {pkt : Packet} (h : ev = .recv pkt) (ht : pkt.buf 0 = aodvRrep)
  | rreq {m : RREQ} {src : Addr} {seqno : U32} (h : .rreqAccepted m src ∈ s.trace)
      (ht : buf 0 = aodvRreq) (hm : rreqOf buf = { m with destSeqno := seqno })
      (hs : seqno = m.destSeqno ∨ Told s seqno)

structure Foreign (s : Daemon) (p : Ptr) : Prop where
  linked : Linked s.rtTbl p
  dest : (s.rt p).destAddr ≠ s.host.ipaddr

theorem Foreign.kept {s s' : Daemon} {p : Ptr} (h : Foreign s p) (hk : Kept s s') :
    Foreign s' p where
  linked := (hk.keys.linked p).2 h.linked
  dest := by
    rw [hk.ipaddr, Daemon.rt, hk.keys.destAddr]
    exact h.dest

/-- The steps that neither learn a route nor touch a route discovery or the own
sequence number. -/
inductive Quiet (e : Env) (ev : Event) : Daemon → Daemon → Prop
  | lb {s s' : Daemon} (h : Lb e s s') : Quiet e ev s s'
  | updateTimeout {s : Daemon} {p : Ptr} {lifetime : U32} (hl : lifetime.toNat ≤ deletePeriod)
      (hp : Linked s.rtTbl p) : Quiet e ev s (rtTableUpdateTimeout e s p lifetime)
  | precursor {s : Daemon} {p r : Ptr} (hp : Linked s.rtTbl p) (hr : Foreign s r) :
      Quiet e ev s (precursorAdd s p (s.rt r).nextHop)
  | helloArm {s : Daemon} {p : Ptr} (now : Timeval) (time : Int) (hp : Linked s.rtTbl p)
      (hh : (s.rt p).hopcnt = 1 ∨ (s.rt p).flags.unidir = true) :
      Quiet e ev s (helloUpdateTimeout e s p now time)
  | helloCount {s : Daemon} {p : Ptr} (cnt : U8) (now : Timeval) (hp : Linked s.rtTbl p) :
      Quiet e ev s (s.setRt p { s.rt p with helloCnt := cnt, lastHelloTime := now })
  | dropHello {s : Daemon} {p : Ptr} (hp : Linked s.rtTbl p) : Quiet e ev s (pop s (.helloTimer p))
  | dropAck {s : Daemon} {p : Ptr} (hp : Linked s.rtTbl p) : Quiet e ev s (pop s (.ackTimer p))
  | armAck {s : Daemon} {p : Ptr} (hp : Linked s.rtTbl p) : Quiet e ev s { s with
      timers := timerSetTimeout e.arch (e.clock s.tick) s.timers (.ackTimer p) nextHopWait
      tick := s.tick + 1 }
  | unidir {s : Daemon} {p : Ptr} (hp : Linked s.rtTbl p)
      (hr : (∃ pkt, ev = .recv pkt ∧ pkt.buf 0 = aodvRrep) ∨
        ∃ p, Linked s.rtTbl p ∧ (s.rt p).flags.unidir = true) :
      Quiet e ev s (s.setRt p { s.rt p with flags := { (s.rt p).flags with unidir := true } })
  | unidirBreak {s : Daemon} (reports : Bool) : Quiet e ev s (s.observe (.unidirBreak reports))
  | answer {s : Daemon} {p : Ptr} {n : Nat} (hp : Linked s.rtTbl p) (hn : n + 1 = s.tick) :
      Quiet e ev s (s.observe (.answer (s.timer (.rtTimer p)).timeout (e.clock n)))
  | rerrSeqno {s : Daemon} {p : Ptr} {pkt : Packet} {udest : Addr × U32}
      (hp : Linked s.rtTbl p) (h : ev = .recv pkt) (ht : pkt.buf 0 = aodvRerr)
      (hlen : rerrCalcSize (pkt.buf 3) ≤ pkt.len) (hu : udest ∈ listed pkt.buf) :
      Quiet e ev s ((s.observe (.rerrSeqno p (s.rt p) udest.2)).setRt p
        { s.rt p with destSeqno := udest.2 })
  | repairTimeout {s : Daemon} {p : Ptr} (hp : Linked s.rtTbl p)
      (hr : (s.rt p).flags.repair = true ∨
        (callee s.timers (.rtTimer p)).1 = some .localRepairTimeout) :
      Quiet e ev s (localRepairTimeout e s p)
  | delete {s : Daemon} {p : Ptr} (hp : Linked s.rtTbl p)
      (hh : (callee s.timers (.rtTimer p)).1 = some .routeDeleteTimeout) :
      Quiet e ev s (rtTableDelete e s p)
  | expireIdle {s : Daemon} {p : Ptr} (hp : Linked s.rtTbl p) (hi : (s.rt p).state = .invalid)
      (hh : (callee s.timers (.rtTimer p)).1 = some .routeExpireTimeout) :
      Quiet e ev s (pop s (.rtTimer p))
  | helloFire {s : Daemon} {p : Ptr} (hp : Pending s.timers (.helloTimer p)) :
      Quiet e ev s (helloTimeout e (pop s (.helloTimer p)) p)
  | dropRecord {s : Daemon} (c : Ptr) : Quiet e ev s (rreqRecordTimeout (pop s (.recTimer c)) c)
  | dropBlacklist {s : Daemon} (c : Ptr) : Quiet e ev s (rreqBlacklistTimeout (pop s (.blTimer c)) c)
  | blacklist {s : Daemon} (dest : Addr) : Quiet e ev s (rreqBlacklistInsert e s dest)
  | armLog {s : Daemon} (msec : Int) : Quiet e ev s { s with
      timers := timerSetTimeout e.arch (e.clock s.tick) s.timers .rtLogTimer msec, tick := s.tick + 1 }
  | armWorb {s : Daemon} (msec : Int) : Quiet e ev s { s with
      timers := timerSetTimeout e.arch (e.clock s.tick) s.timers .worbTimer msec, tick := s.tick + 1 }
  | rrepWrite {s : Daemon} (m : RREP) : Quiet e ev s { s with sendBuf := rrepBuf m }
  | rrepSend {s : Daemon} (m : RREP) (dest : Addr)
      (hc : .unidirBreak true ∉ s.trace → Carries s (.rrep m) rrepSize)
      (ho : Offered e.arch s.trace m.lifetime) :
      Quiet e ev s (aodvSocketSend e s (.rrep m) dest rrepSize maxTtl)
  | rrepAck {s : Daemon} (p : Ptr) : Quiet e ev s (rrepAnswerAck e s p)
  | relay {s : Daemon} (buf : Buf) (len : Nat) (hopcnt : U8) (dest : Addr) (ttl : Int)
      (hlen : rrepSize ≤ len) (hr : Relayed ev s buf) :
      Quiet e ev s (aodvSocketSend e { s with sendBuf := store (copy s.sendBuf buf len) 3 hopcnt }
        (.queued (take (store buf 3 hopcnt) len)) dest len ttl)

def ringArm (e : Env) (s : Daemon) (q : Ptr) (ttl msec : Int) : Daemon :=
  let s := (pop s (.seekTimer q)).tock
  seekArm e (s.setSeek q { s.seek q with ttl := ttl }) q msec

def seekFail (e : Env) (s : Daemon) (q : Ptr) : Daemon :=
  let s := (pop s (.seekTimer q)).tock.observe (.discoveryFailed q)
  seekListRemove (nlSendNoRouteFoundMsg e s (s.seek q).destAddr) (some q)

/-- The single steps of an event. -/
inductive Fine (e : Env) (ev : Event) : Daemon → Daemon → Prop
  | quiet {s s' : Daemon} (h : Quiet e ev s s') : Fine e ev s s'
  | insert {s : Daemon} {src : Source} {dest next : Addr} {hops seqno : U32} (lifetime : U32)
      (state : RtState) (hl : Learned s.host.ipaddr ev 0 src dest next hops seqno lifetime) :
      Fine e ev s (rtTableInsert e s dest next hops seqno lifetime state .zero).1
  | update {s : Daemon} {p : Ptr} {src : Source} {next : Addr} {hops seqno : U32} (lifetime : U32)
      (hp : Linked s.rtTbl p)
      (hl : Learned s.host.ipaddr ev (s.rt p).destSeqno src (s.rt p).destAddr next hops seqno
        lifetime) :
      Fine e ev s (rtTableUpdate e s p next hops seqno lifetime .valid (s.rt p).flags)
  | record {s : Daemon} {pkt : Packet} (h : ev = .recv pkt) (ht : pkt.buf 0 = aodvRreq)
      (hnew : rreqRecordCheck s (rreqOf pkt.buf).origAddr (rreqOf pkt.buf).rreqId = none) :
      Fine e ev s (rreqRecordInsert e (s.observe (.rreqAccepted (rreqOf pkt.buf) pkt.src))
        (rreqOf pkt.buf).origAddr (rreqOf pkt.buf).rreqId)
  | forUs {s : Daemon} {pkt : Packet} (h : ev = .recv pkt) (ht : pkt.buf 0 = aodvRreq) :
      Fine e ev s { s.observe (.rreqForUs s.host.seqno (rreqOf pkt.buf).destSeqno) with
        host := { s.host with seqno := ownSeqno s.host.seqno (rreqOf pkt.buf).destSeqno } }
  | rreqSend {s : Daemon} (dest : Addr) (seqno : U32) (ttl : Int) (flags : U8)
      (hs : Told s seqno ∨ ∃ q ∈ s.sl, seqno = (s.seek q).destSeqno) :
      Fine e ev s (rreqSend e s dest seqno ttl flags)
  | discovery {s : Daemon} (q : Ptr) (found : Option RtEntry) :
      Fine e ev s (s.observe (.discovery q found))
  | seekNew {s : Daemon} (dest : Addr) {seqno : U32} {ttl : Int} (flags : U8) {msec : Int}
      (hnew : seekListCheck s dest = none) (httl : 0 ≤ ttl) (hs : Told s seqno) (hm : 0 ≤ msec) :
      Fine e ev s (seekArm e (seekListInsert s dest seqno ttl flags).1 s.brk msec)
  | seekRing {s : Daemon} {q : Ptr} {ttl msec : Int} (hq : q ∈ s.sl) (httl : 0 ≤ ttl)
      (hm : 0 ≤ msec) : Fine e ev s (ringArm e s q ttl msec)
  | seekCount {s : Daemon} {q : Ptr} (hq : q ∈ s.sl) :
      Fine e ev s ((s.observe (.discoveryAgain q)).setSeek q
        { s.seek q with rreqCnt := (s.seek q).rreqCnt + 1 })
  | seekFail {s : Daemon} {q : Ptr} (hq : q ∈ s.sl) : Fine e ev s (seekFail e s q)
  | repairStart {s : Daemon} {p : Ptr} (hp : Linked s.rtTbl p)
      (hr : (s.rt p).flags.repair = true) : Fine e ev s (repairStart s p)

/-- The steps of an event, with the acceptance of an RREQ and each call about a
route discovery as one step. -/
inductive Coarse (e : Env) (ev : Event) : Daemon → Daemon → Prop
  | quiet {s s' : Daemon} (h : Quiet e ev s s') : Coarse e ev s s'
  | insert {s : Daemon} {src : Source} {dest next : Addr} {hops seqno : U32} (lifetime : U32)
      (state : RtState) (hsrc : src ≠ .rreq)
      (hl : Learned s.host.ipaddr ev 0 src dest next hops seqno lifetime) :
      Coarse e ev s (rtTableInsert e s dest next hops seqno lifetime state .zero).1
  | update {s : Daemon} {p : Ptr} {src : Source} {next : Addr} {hops seqno : U32} (lifetime : U32)
      (hp : Linked s.rtTbl p) (hsrc : src ≠ .rreq)
      (hl : Learned s.host.ipaddr ev (s.rt p).destSeqno src (s.rt p).destAddr next hops seqno
        lifetime) :
      Coarse e ev s (rtTableUpdate e s p next hops seqno lifetime .valid (s.rt p).flags)
  | accept {s : Daemon} {pkt : Packet} (h : ev = .recv pkt) (ht : pkt.buf 0 = aodvRreq)
      (horig : (rreqOf pkt.buf).origAddr ≠ s.host.ipaddr) (hlen : rreqSize ≤ pkt.len)
      (hnew : rreqRecordCheck s (rreqOf pkt.buf).origAddr (rreqOf pkt.buf).rreqId = none) :
      Coarse e ev s (rreqReverse e (rreqRecordInsert e
        (s.observe (.rreqAccepted (rreqOf pkt.buf) pkt.src)) (rreqOf pkt.buf).origAddr
        (rreqOf pkt.buf).rreqId) (rreqOf pkt.buf) pkt.src).1
  | forUs {s : Daemon} {pkt : Packet} (h : ev = .recv pkt) (ht : pkt.buf 0 = aodvRreq) :
      Coarse e ev s { s.observe (.rreqForUs s.host.seqno (rreqOf pkt.buf).destSeqno) with
        host := { s.host with seqno := ownSeqno s.host.seqno (rreqOf pkt.buf).destSeqno } }
  | discover {s : Daemon} (dest : Addr) (flags : U8) :
      Coarse e ev s (rreqRouteDiscovery e s dest flags)
  | repair {s : Daemon} {p : Ptr} (src : Addr) (hp : Linked s.rtTbl p) :
      Coarse e ev s (rreqLocalRepair e s p src)
  | discoveryTimeout {s : Daemon} {q : Ptr} (hq : q ∈ s.sl) :
      Coarse e ev s (routeDiscoveryTimeout e (pop s (.seekTimer q)) q)

theorem kept_pop {s : Daemon} (t : TimerId) : Kept s (pop s t) :=
  Kept.rearm s _ (.timerRemove _ t)

theorem kept_armDelete (e : Env) {s : Daemon} {p : Ptr} (hp : Linked s.rtTbl p) :
    Kept s (armDelete e s p) := by
  refine ⟨.refl _, rfl, rfl, rfl, rfl, rfl, rfl, rfl, rfl, rfl, ?_⟩
  have hset : Rearmed (Owns s) s.timers (setHandler s.timers (.rtTimer p) .routeDeleteTimeout) :=
    .setHandler _ p _ (.inr (.inr rfl))
  exact hset.trans (.timerSetTimeout (e.clock s.tick) _ (.rtTimer p) deletePeriod hp)

theorem kept_localRepairTimeout (e : Env) {s : Daemon} {p : Ptr} (hp : Linked s.rtTbl p) :
    Kept s (localRepairTimeout e s p) := by
  have hclear : Kept s (s.setRt p { s.rt p with flags := { (s.rt p).flags with repair := false } }) :=
    Kept.setRt s p _ rfl rfl
  have hover : Kept s (repairOver e s p) := hclear.trans (Kept.nlSendBoth e _ _ _)
  have hreport : Kept (repairOver e s p) (repairReport e (repairOver e s p) p) := by
    rw [repairReport]
    dsimp only
    split
    · exact (Kept.write _ _).trans (Kept.socketSend e _ _ _ _ _)
    · exact Kept.refl
  have hall := (hover.trans hreport).trans (kept_precursorListDestroy _ p)
  exact hall.trans (kept_armDelete e ((hall.keys.linked p).2 hp))

theorem kept_helloTimeout (e : Env) {s : Daemon} {p : Ptr} (hp : Linked s.rtTbl p) :
    Kept s (helloTimeout e s p) := by
  rw [helloTimeout]
  dsimp only
  split
  · split
    · have hmark : Kept s (markRepair s.tock p) := (Kept.tock s).trans (Kept.setRt _ p _ rfl rfl)
      exact hmark.trans (lb_kept (lb_linkBreak e ((hmark.keys.linked p).2 hp)))
    · exact (Kept.tock s).trans (lb_kept (lb_linkBreak e hp))
  · exact Kept.tock s

/-- A noted RREQ or a blacklisted neighbour goes, with its timer. -/
theorem wellFormed_unlist {s : Daemon} (h : WellFormed s) {t : TimerId} {rs : List RreqRecord}
    {bs : List RreqBlacklist} (hr : rs ⊆ s.rreqRecords) (hb : bs ⊆ s.rreqBlacklists)
    (howns : ∀ u, Owns { s with rreqRecords := rs, rreqBlacklists := bs } u ↔ u ≠ t ∧ Owns s u) :
    WellFormed { s with
      rreqRecords := rs, rreqBlacklists := bs, timers := timerRemove s.timers t } := by
  let s₁ : Daemon := { s with
    rreqRecords := rs, rreqBlacklists := bs, timers := timerRemove s.timers t }
  have hown (u : TimerId) : Owns s₁ u ↔ u ≠ t ∧ Owns s u := by
    rw [← howns u]
    cases u <;> rfl
  have ht : Tended s₁ := h.tended.closed rfl hown
  exact ⟨h.table, ht.coherent, ht.owned, ht.armed, ht.fits, h.seekBelow, h.seekNodup,
    h.seekDests, h.seekSane, fun r hm => h.recordBelow r (hr hm),
    fun b hm => h.blacklistBelow b (hb hm), h.enabled⟩

theorem wellFormed_enlist (e : Env) {s : Daemon} (h : WellFormed s) {t : TimerId} {f : Handler}
    {rs : List RreqRecord} {bs : List RreqBlacklist} (hfits : HandlerFits t (some f, .obj s.brk))
    (hr : ∀ r ∈ rs, r.ptr = s.brk ∨ r ∈ s.rreqRecords)
    (hb : ∀ b ∈ bs, b.ptr = s.brk ∨ b ∈ s.rreqBlacklists) (hnew : ¬ Owns s t)
    (howns : ∀ u, Owns { s with rreqRecords := rs, rreqBlacklists := bs } u ↔ u = t ∨ Owns s u)
    (msec : Int) :
    WellFormed { s with
      brk := s.brk + 1
      rreqRecords := rs
      rreqBlacklists := bs
      timers := timerSetTimeout e.arch (e.clock s.tick)
        (timerInit s.timers t f (.obj s.brk)) t msec
      tick := s.tick + 1 } := by
  let s₁ : Daemon := { s with
    brk := s.brk + 1
    rreqRecords := rs
    rreqBlacklists := bs
    timers := timerInit s.timers t f (.obj s.brk) }
  have hown (u : TimerId) : Owns s₁ u ↔ u = t ∨ Owns s u := by
    rw [← howns u]
    cases u <;> rfl
  have ht : Tended s₁ := h.tended.opened (fun hp => hnew (h.owned t hp)) rfl hfits hown
  have hbelow {c : Ptr} (hc : c = s.brk ∨ c < s.brk) : c < s.brk + 1 :=
    Nat.lt_succ_of_le (hc.elim Nat.le_of_eq Nat.le_of_lt)
  have hs₁ : WellFormed s₁ := ⟨h.table.mono (Nat.le_succ _), ht.coherent, ht.owned, ht.armed,
    ht.fits, fun q hq => Nat.lt_succ_of_lt (h.seekBelow q hq), h.seekNodup, h.seekDests,
    h.seekSane, fun r hm => hbelow ((hr r hm).imp id (h.recordBelow r)),
    fun b hm => hbelow ((hb b hm).imp id (h.blacklistBelow b)), h.enabled⟩
  exact (Kept.arm s₁ _ t _ ((hown t).2 (.inl rfl))).wellFormed hs₁

theorem wellFormed_dropRecord {s : Daemon} (h : WellFormed s) (c : Ptr) :
    WellFormed (rreqRecordTimeout (pop s (.recTimer c)) c) := by
  refine wellFormed_unlist h (List.filter_subset_self _) (List.Subset.refl _) fun u => ?_
  cases u with
  | recTimer c' =>
      simp only [Owns, pop, List.mem_filter, ne_eq, decide_eq_true_eq, TimerId.recTimer.injEq]
      constructor
      · rintro ⟨r, ⟨hr, hne⟩, rfl⟩
        exact ⟨hne, r, hr, rfl⟩
      · rintro ⟨hne, r, hr, rfl⟩
        exact ⟨r, ⟨hr, hne⟩, rfl⟩
  | _ => simp [Owns, pop]

theorem wellFormed_dropBlacklist {s : Daemon} (h : WellFormed s) (c : Ptr) :
    WellFormed (rreqBlacklistTimeout (pop s (.blTimer c)) c) := by
  refine wellFormed_unlist h (List.Subset.refl _) (List.filter_subset_self _) fun u => ?_
  cases u with
  | blTimer c' =>
      simp only [Owns, pop, List.mem_filter, ne_eq, decide_eq_true_eq, TimerId.blTimer.injEq]
      constructor
      · rintro ⟨b, ⟨hb, hne⟩, rfl⟩
        exact ⟨hne, b, hb, rfl⟩
      · rintro ⟨hne, b, hb, rfl⟩
        exact ⟨b, ⟨hb, hne⟩, rfl⟩
  | _ => simp [Owns, pop]

theorem wellFormed_recordInsert (e : Env) {s : Daemon} (h : WellFormed s) (orig : Addr)
    (rreqId : U32) : WellFormed (rreqRecordInsert e s orig rreqId) := by
  rw [rreqRecordInsert]
  split
  · exact h
  · refine wellFormed_enlist e h (t := .recTimer s.brk) rfl ?_ (fun b hb => .inr hb) ?_ (fun u => ?_) _
    · intro r hr
      exact (List.mem_cons.1 hr).imp (fun heq => by rw [heq]) id
    · rintro ⟨r, hr, hc⟩
      exact Nat.lt_irrefl _ (hc ▸ h.recordBelow r hr)
    · cases u <;> simp [Owns, eq_comm]

theorem wellFormed_blacklistInsert (e : Env) {s : Daemon} (h : WellFormed s) (dest : Addr) :
    WellFormed (rreqBlacklistInsert e s dest) := by
  rw [rreqBlacklistInsert]
  split
  · exact h
  · refine wellFormed_enlist e h (t := .blTimer s.brk) rfl (fun r hr => .inr hr) ?_ ?_ (fun u => ?_) _
    · intro b hb
      exact (List.mem_cons.1 hb).imp (fun heq => by rw [heq]) id
    · rintro ⟨b, hb, hc⟩
      exact Nat.lt_irrefl _ (hc ▸ h.blacklistBelow b hb)
    · cases u <;> simp [Owns, eq_comm]

theorem batch_delete (e : Env) (s : Daemon) (p : Ptr) :
    (rtTableDelete e s p).timers.exptq.Sublist s.timers.exptq := by
  rw [timers_delete]
  exact (exptq_timerRemove_sublist _ _).trans
    ((exptq_timerRemove_sublist _ _).trans (exptq_timerRemove_sublist _ _))

theorem delete_sound (e : Env) {s : Daemon} (hs : WellFormed s) {p : Ptr}
    (hp : Linked s.rtTbl p) : Sound s (rtTableDelete e s p) := by
  refine ⟨wellFormed_delete e hs hp, batch_delete e s p, ?_, ?_, ?_⟩
  all_goals
    simp only [rtTableDelete]
    cases ((precursorListDestroy { s with rtTbl := listRemove s.rtTbl p } p).rt p).state <;>
      first | exact Nat.le_refl _ | rfl

theorem recordInsert_sound (e : Env) {s : Daemon} (hs : WellFormed s) (orig : Addr)
    (rreqId : U32) : Sound s (rreqRecordInsert e s orig rreqId) := by
  have hw := wellFormed_recordInsert e hs orig rreqId
  rw [rreqRecordInsert] at hw ⊢
  split
  · exact Sound.refl hs
  next hc =>
    rw [hc] at hw
    exact ⟨hw, exptq_timerSetTimeout_sublist _ (timerInit s.timers _ _ _) _ _, Nat.le_succ _, rfl,
      rfl⟩

theorem blacklistInsert_sound (e : Env) {s : Daemon} (hs : WellFormed s) (dest : Addr) :
    Sound s (rreqBlacklistInsert e s dest) := by
  have hw := wellFormed_blacklistInsert e hs dest
  rw [rreqBlacklistInsert] at hw ⊢
  split
  · exact Sound.refl hs
  next hc =>
    rw [hc] at hw
    exact ⟨hw, exptq_timerSetTimeout_sublist _ (timerInit s.timers _ _ _) _ _, Nat.le_succ _, rfl,
      rfl⟩

theorem batch_seekListRemove (s : Daemon) (o : Option Ptr) :
    (seekListRemove s o).timers.exptq.Sublist s.timers.exptq := by
  cases o with
  | none => exact List.Sublist.refl _
  | some q => exact exptq_timerRemove_sublist _ _

theorem seekListRemove_sound {s : Daemon} (hs : WellFormed s) (o : Option Ptr) :
    Sound s (seekListRemove s o) := by
  refine ⟨wellFormed_seekListRemove hs o, batch_seekListRemove s o, ?_, ?_, ?_⟩
  all_goals
    cases o <;> first | exact Nat.le_refl _ | rfl

theorem routeFound_sound {s : Daemon} (hs : WellFormed s) (p : Ptr) :
    Sound s (routeFound s p) := by
  rw [routeFound]
  split
  · exact seekListRemove_sound hs _
  · exact Sound.refl hs

theorem insert_kept (e : Env) (s : Daemon) (dest next : Addr) (hops seqno lifetime : U32)
    (state : RtState) (flags : RtFlags) :
    rtTableInsert e s dest next hops seqno lifetime state flags = (s, none) ∨
    (∀ q ∈ s.rtTbl.tbl (hashing dest), (s.rt q).destAddr ≠ dest) ∧
      ∃ s', Kept (linkEntry (s.observe (.rtInsert dest next hops seqno lifetime state flags))
          (newEntry dest next hops seqno state flags)) s' ∧
        rtTableInsert e s dest next hops seqno lifetime state flags =
          (routeFound s' s.brk, some s.brk) := by
  obtain h | ⟨hnew, h⟩ := rtTableInsert_cases e s dest next hops seqno lifetime state flags
  · exact .inl h
  · refine .inr ⟨hnew, ?_⟩
    let s₁ := linkEntry (s.observe (.rtInsert dest next hops seqno lifetime state flags))
      (newEntry dest next hops seqno state flags)
    have hlinked : Linked s₁.rtTbl s.brk := (linked_linkEntry _ _ _).2 (.inl rfl)
    have hopen := kept_openEntry e s₁ s.brk hops lifetime
    have harm := kept_armEntry e (openEntry e s₁ s.brk hops lifetime).2
      ((hopen.keys.linked s.brk).2 hlinked)
    exact ⟨_, hopen.trans harm, h⟩

theorem insert_sound (e : Env) {s : Daemon} (hs : WellFormed s) (dest next : Addr)
    (hops seqno lifetime : U32) (state : RtState) (flags : RtFlags) :
    Sound s (rtTableInsert e s dest next hops seqno lifetime state flags).1 := by
  obtain h | ⟨hnew, s', hkept, h⟩ := insert_kept e s dest next hops seqno lifetime state flags
  · rw [h]
    exact Sound.refl hs
  · rw [h]
    have hobs := (Kept.observe s (.rtInsert dest next hops seqno lifetime state flags)).wellFormed hs
    have hlink := wellFormed_linkEntry (r := newEntry dest next hops seqno state flags) hobs rfl hnew
    have hfirst : Sound s (linkEntry (s.observe (.rtInsert dest next hops seqno lifetime state flags))
        (newEntry dest next hops seqno state flags)) :=
      ⟨hlink, List.Sublist.refl _, Nat.le_succ _, rfl, rfl⟩
    exact (hfirst.trans (hkept.sound hlink)).trans (routeFound_sound (hkept.wellFormed hlink) s.brk)

theorem quiet_sound {e : Env} {ev : Event} {s s' : Daemon} (h : Quiet e ev s s')
    (hs : WellFormed s) : Sound s s' := by
  cases h with
  | lb h => exact h.kept.sound hs
  | updateTimeout hl hp => exact (kept_updateTimeout e _ hp).sound hs
  | precursor hp hr => exact (kept_precursorAdd s _ _).sound hs
  | @helloArm p now time hp hh =>
      have harm := Kept.arm (a := e.arch) s (e.clock s.tick) (.helloTimer p) (time + helloDelay) hp
      refine Kept.sound (harm.trans ?_) hs
      exact Kept.setRt _ p _ rfl rfl
  | helloCount cnt now hp =>
      refine Kept.sound ?_ hs
      exact Kept.setRt s _ _ rfl rfl
  | dropHello hp | dropAck hp | expireIdle hp hi hh => exact (kept_pop _).sound hs
  | @armAck p hp => exact (Kept.arm s (e.clock s.tick) (.ackTimer p) nextHopWait hp).sound hs
  | unidir hp hr =>
      refine Kept.sound ?_ hs
      exact Kept.setRt s _ _ rfl rfl
  | unidirBreak | answer => exact (Kept.observe s _).sound hs
  | @rerrSeqno p pkt udest hp h ht hlen hu =>
      refine Kept.sound ((Kept.observe s (.rerrSeqno p (s.rt p) udest.2)).trans ?_) hs
      exact Kept.setRt _ _ _ rfl rfl
  | repairTimeout hp hr => exact (kept_localRepairTimeout e hp).sound hs
  | delete hp hh => exact delete_sound e hs hp
  | @helloFire p hp =>
      have hpop : Kept s (pop s (.helloTimer p)) := kept_pop _
      have hl : Linked s.rtTbl p := hs.owned _ hp
      exact (hpop.trans (kept_helloTimeout e ((hpop.keys.linked p).2 hl))).sound hs
  | dropRecord c => 
      exact ⟨wellFormed_dropRecord hs c, exptq_timerRemove_sublist _ _, Nat.le_refl _, rfl, rfl⟩
  | dropBlacklist c => 
      exact ⟨wellFormed_dropBlacklist hs c, exptq_timerRemove_sublist _ _, Nat.le_refl _, rfl, rfl⟩
  | blacklist dest => exact blacklistInsert_sound e hs dest
  | armLog msec => exact (Kept.arm s (e.clock s.tick) .rtLogTimer msec trivial).sound hs
  | armWorb msec => exact (Kept.arm s (e.clock s.tick) .worbTimer msec trivial).sound hs
  | rrepWrite m => exact (Kept.write s _).sound hs
  | rrepSend m dest hc ho => exact (Kept.socketSend e s _ _ _ _).sound hs
  | rrepAck p => exact ((Kept.write s _).trans (Kept.socketSend e _ _ _ _ _)).sound hs
  | relay buf len hopcnt dest ttl hlen hr =>
      exact ((Kept.write s _).trans (Kept.socketSend e _ _ _ _ _)).sound hs

theorem kept_updateBegin (e : Env) (s : Daemon) (p : Ptr) (next : Addr) (hops lifetime : U32)
    (state : RtState) (flags : RtFlags) :
    Kept s (updateBegin e s p next hops lifetime state flags).1 := by
  rw [updateBegin]
  dsimp only
  split
  · exact (Kept.setActive s _).trans (Kept.nlSendBoth e _ _ _)
  · split
    · exact Kept.nlSendBoth e s _ _
    · exact Kept.refl

theorem kept_updateBreak (e : Env) {s : Daemon} {p : Ptr} (hops : U32) (hp : Linked s.rtTbl p) :
    Kept s (updateBreak e s p hops) := by
  rw [updateBreak]
  dsimp only
  split
  · have hmark : Kept s (pop (s.setRt p { s.rt p with lastHelloTime := ⟨0, 0⟩, helloCnt := 0 })
        (.helloTimer p)) := by
      refine Kept.trans ?_ (kept_pop _)
      exact Kept.setRt s p _ rfl rfl
    exact hmark.trans (lb_kept (lb_linkBreak e ((hmark.keys.linked p).2 hp)))
  · exact Kept.refl

theorem kept_writeUpdate (s : Daemon) (p : Ptr) (next : Addr) (hops seqno : U32)
    (flags : RtFlags) : Kept s (writeUpdate s p next hops seqno flags) := by
  have hset : Kept s (s.setRt p { s.rt p with
      flags := flags, destSeqno := seqno, nextHop := next, hopcnt := hops.setWidth 8 }) :=
    Kept.setRt s p _ rfl rfl
  exact hset.trans (Kept.rearm _ _ (.setHandler _ p .routeExpireTimeout (.inl rfl)))

theorem kept_setState (s : Daemon) (p : Ptr) (state : RtState) : Kept s (setState s p state) :=
  Kept.setRt s p _ rfl rfl

theorem update_kept (e : Env) (s : Daemon) {p : Ptr} (hp : Linked s.rtTbl p) (next : Addr)
    (hops seqno lifetime : U32) (state : RtState) (flags : RtFlags) :
    ∃ s', Kept s s' ∧
      rtTableUpdate e s p next hops seqno lifetime state flags = routeFound s' p := by
  have hobs := Kept.observe s (.rtUpdate p (s.rt p) next hops seqno lifetime state flags)
  have hbegin := hobs.trans (kept_updateBegin e _ p next hops lifetime state flags)
  have hbreak := hbegin.trans (kept_updateBreak e hops ((hbegin.keys.linked p).2 hp))
  rw [rtTableUpdate]
  dsimp only
  rw [updateFinish]
  refine ⟨_, hbreak.trans (Kept.trans ?_ (kept_setState _ p state)), rfl⟩
  have hwrite := fun s flags => kept_writeUpdate s p next hops seqno flags
  split
  · exact hwrite _ _
  · refine (hwrite _ _).trans (kept_updateTimeout e lifetime (((hwrite _ _).keys.linked p).2 ?_))
    exact (hbreak.keys.linked p).2 hp

theorem update_sound (e : Env) {s : Daemon} (h : WellFormed s) {p : Ptr}
    (hp : Linked s.rtTbl p) (next : Addr) (hops seqno lifetime : U32) (state : RtState)
    (flags : RtFlags) : Sound s (rtTableUpdate e s p next hops seqno lifetime state flags) := by
  obtain ⟨s', hkept, heq⟩ := update_kept e s hp next hops seqno lifetime state flags
  rw [heq]
  exact (hkept.sound h).trans (routeFound_sound (hkept.wellFormed h) p)

theorem fine_sound {e : Env} {ev : Event} {s s' : Daemon} (h : Fine e ev s s')
    (hs : WellFormed s) : Sound s s' := by
  cases h with
  | quiet h => exact quiet_sound h hs
  | insert lifetime state hl =>
      exact insert_sound e hs _ _ _ _ _ _ _
  | update lifetime hp hl => exact update_sound e hs hp _ _ _ _ _ _
  | record h ht hnew =>
      exact ((Kept.observe s _).sound hs).trans
        (recordInsert_sound e ((Kept.observe s _).wellFormed hs) _ _)
  | forUs h ht => exact ⟨{ hs with }, List.Sublist.refl _, Nat.le_refl _, rfl, rfl⟩
  | rreqSend dest seqno ttl flags hseq =>
      rw [Aodv.rreqSend]
      split
      · exact ⟨{ hs with }, List.Sublist.refl _, Nat.le_refl _, rfl, rfl⟩
      · exact Sound.refl hs
  | discovery q found => exact (Kept.observe s _).sound hs
  | @seekNew dest seqno ttl flags msec hnew httl hseq hm =>
      have hins := wellFormed_seekListInsert hs dest seqno ttl flags hnew httl
      have harm := (Kept.arm (a := e.arch) _ (e.clock s.tick) (.seekTimer s.brk) msec
        List.mem_cons_self).sound hins
      exact ⟨harm.wellFormed, harm.batch, Nat.le_succ _, rfl, rfl⟩
  | @seekRing q ttl msec hq httl hm =>
      have hpop : Kept s (pop s (.seekTimer q)).tock := (kept_pop _).trans (Kept.tock _)
      let s₁ := (pop s (.seekTimer q)).tock.setSeek q { s.seek q with ttl := ttl }
      have hset : Sound (pop s (.seekTimer q)).tock s₁ :=
        setSeek_sound (hpop.wellFormed hs) rfl fun hk => ⟨httl, hk.2⟩
      have harm := Kept.arm (a := e.arch) s₁ (e.clock s₁.tick) (.seekTimer q) msec hq
      exact ((hpop.sound hs).trans hset).trans (harm.sound hset.wellFormed)
  | @seekCount q hq =>
      have hobs := (Kept.observe s (.discoveryAgain q)).sound hs
      exact hobs.trans (setSeek_sound hobs.wellFormed rfl fun hk => ⟨hk.1, Int.le_add_one hk.2⟩)
  | @seekFail q hq =>
      have hkept : Kept s (nlSendNoRouteFoundMsg e ((pop s (.seekTimer q)).tock.observe
          (.discoveryFailed q)) (s.seek q).destAddr) := by
        refine (kept_pop (.seekTimer q)).trans ?_
        exact ⟨.refl _, rfl, rfl, rfl, rfl, rfl, rfl, rfl, rfl, rfl, .refl⟩
      exact (hkept.sound hs).trans
        ⟨wellFormed_seekListRemove (hkept.wellFormed hs) (some q), batch_seekListRemove _ (some q),
          Nat.le_refl _, rfl, rfl⟩
  | @repairStart p hp hr =>
      refine Kept.sound ((Kept.observe s (.localRepair (s.rt p))).trans ?_) hs
      exact Kept.rearm _ _ (.setHandler _ p .routeExpireTimeout (.inl rfl))

structure Calm (s s' : Daemon) : Prop where
  seqno : s'.host.seqno = s.host.seqno
  sl : s'.sl = s.sl
  seek : s'.seekMem = s.seekMem

theorem Kept.calm {s s' : Daemon} (h : Kept s s') : Calm s s' := ⟨h.seqno, h.sl, h.seek⟩

theorem quiet_calm {e : Env} {ev : Event} {s s' : Daemon} (h : Quiet e ev s s')
    (hs : WellFormed s) : Calm s s' := by
  cases h with
  | lb h => exact Kept.calm h.kept
  | updateTimeout hl hp => exact Kept.calm (kept_updateTimeout e _ hp)
  | precursor hp hr => exact Kept.calm (kept_precursorAdd s _ _)
  | repairTimeout hp hr => exact Kept.calm (kept_localRepairTimeout e hp)
  | @delete p hp hh =>
      simp only [rtTableDelete]
      cases ((precursorListDestroy { s with rtTbl := listRemove s.rtTbl p } p).rt p).state <;>
        exact ⟨rfl, rfl, rfl⟩
  | @helloFire p hp =>
      exact Kept.calm ((kept_pop (.helloTimer p)).trans (kept_helloTimeout e (hs.owned _ hp)))
  | blacklist dest =>
      rw [rreqBlacklistInsert]
      split <;> exact ⟨rfl, rfl, rfl⟩
  | helloArm | helloCount | dropHello | dropAck | armAck | unidir | unidirBreak | answer | rerrSeqno
  | expireIdle | dropRecord | dropBlacklist | armLog | armWorb | rrepWrite | rrepSend | rrepAck
  | relay => exact ⟨rfl, rfl, rfl⟩

theorem seqno_routeFound (s : Daemon) (p : Ptr) : (routeFound s p).host = s.host := by
  rw [routeFound]
  split
  · cases seekListCheck s (s.rt p).destAddr <;> rfl
  · rfl

theorem seqno_insert (e : Env) (s : Daemon) (dest next : Addr) (hops seqno lifetime : U32)
    (state : RtState) (flags : RtFlags) :
    (rtTableInsert e s dest next hops seqno lifetime state flags).1.host.seqno = s.host.seqno := by
  obtain h | ⟨_, s', hkept, h⟩ := insert_kept e s dest next hops seqno lifetime state flags
  · rw [h]
  · rw [h]
    change (routeFound s' s.brk).host.seqno = _
    rw [seqno_routeFound]
    exact hkept.seqno

theorem fines_sound {e : Env} {ev : Event} {s s' : Daemon}
    (h : ReflTransGen (Fine e ev) s s') (hs : WellFormed s) : Sound s s' := by
  induction h with
  | refl => exact Sound.refl hs
  | tail _ h ih => exact ih.trans (fine_sound h ih.wellFormed)

end Aodv
