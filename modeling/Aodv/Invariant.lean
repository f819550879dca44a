import Aodv.Main
import Mathlib.Data.List.Nodup
import Mathlib.Tactic.Tauto

namespace Aodv

open Lib.Bytes

def Linked (t : RoutingTable) (p : Ptr) : Prop := ∃ i, p ∈ t.tbl i

def entries (t : RoutingTable) : List Ptr := (List.finRange 64).flatMap t.tbl

theorem mem_entries (t : RoutingTable) (p : Ptr) : p ∈ entries t ↔ Linked t p := by
  simp [entries, Linked]

/-- Entries stand in the bucket of their address, once, and no two entries
have one address. -/
structure TableWf (t : RoutingTable) (brk : Ptr) : Prop where
  bucket : ∀ i, ∀ p ∈ t.tbl i,
    hashing (t.rtMem p).destAddr = i ∧ (t.rtMem p).hash = (t.rtMem p).destAddr
  below : ∀ p, Linked t p → p < brk
  nodup : ∀ i, (t.tbl i).Nodup
  dests : ∀ p q, Linked t p → Linked t q → (t.rtMem p).destAddr = (t.rtMem q).destAddr → p = q
  count : t.numEntries = BitVec.ofNat 32 (entries t).length

theorem entries_nodup {t : RoutingTable} (hn : ∀ i, (t.tbl i).Nodup)
    (hb : ∀ i, ∀ p ∈ t.tbl i, hashing (t.rtMem p).destAddr = i) : (entries t).Nodup := by
  rw [entries, List.nodup_flatMap]
  refine ⟨fun i _ => hn i, ?_⟩
  refine (List.nodup_finRange 64).imp ?_
  intro i j hij p hi hj
  exact hij ((hb i p hi).symm.trans (hb j p hj))

theorem TableWf.entries_nodup {t : RoutingTable} {brk : Ptr} (h : TableWf t brk) :
    (entries t).Nodup :=
  Aodv.entries_nodup h.nodup fun i p hp => (h.bucket i p hp).1

theorem entries_length_succ {t t' : RoutingTable} {p : Ptr} (hn : (entries t).Nodup)
    (hn' : (entries t').Nodup) (hp : ¬ Linked t p)
    (h : ∀ q, Linked t' q ↔ q = p ∨ Linked t q) :
    (entries t').length = (entries t).length + 1 := by
  have hcons : (p :: entries t).Nodup :=
    List.nodup_cons.2 ⟨fun hm => hp ((mem_entries t p).1 hm), hn⟩
  have hperm : (entries t').Perm (p :: entries t) := by
    refine (List.perm_ext_iff_of_nodup hn' hcons).2 fun q => ?_
    rw [mem_entries, h, List.mem_cons, mem_entries]
  simpa using hperm.length_eq

/-- The same objects are linked, under the same addresses. -/
structure SameKeys (t t' : RoutingTable) : Prop where
  tbl : t'.tbl = t.tbl
  numEntries : t'.numEntries = t.numEntries
  destAddr : ∀ p, (t'.rtMem p).destAddr = (t.rtMem p).destAddr
  hash : ∀ p, (t'.rtMem p).hash = (t.rtMem p).hash

theorem SameKeys.refl (t : RoutingTable) : SameKeys t t := ⟨rfl, rfl, fun _ => rfl, fun _ => rfl⟩

theorem SameKeys.trans {t t' t'' : RoutingTable} (h : SameKeys t t') (h' : SameKeys t' t'') :
    SameKeys t t'' :=
  ⟨h'.tbl.trans h.tbl, h'.numEntries.trans h.numEntries,
    fun p => (h'.destAddr p).trans (h.destAddr p), fun p => (h'.hash p).trans (h.hash p)⟩

theorem SameKeys.linked {t t' : RoutingTable} (h : SameKeys t t') (p : Ptr) :
    Linked t' p ↔ Linked t p := by
  simp only [Linked, h.tbl]

theorem SameKeys.entries {t t' : RoutingTable} (h : SameKeys t t') : entries t' = entries t := by
  simp only [Aodv.entries, h.tbl]

theorem SameKeys.rtTableCheck {t t' : RoutingTable} (h : SameKeys t t') (dest : Addr) :
    rtTableCheck t' dest = rtTableCheck t dest := by
  simp only [Aodv.rtTableCheck, h.tbl, h.numEntries, h.destAddr, h.hash]

theorem SameKeys.update (t : RoutingTable) (p : Ptr) (r : RtEntry) (n : U32)
    (hd : r.destAddr = (t.rtMem p).destAddr) (hh : r.hash = (t.rtMem p).hash) :
    SameKeys t { t with rtMem := Function.update t.rtMem p r, numActive := n } := by
  refine ⟨rfl, rfl, ?_, ?_⟩
  · intro q
    by_cases hq : q = p
    · subst q; simpa using hd
    · simp [hq]
  · intro q
    by_cases hq : q = p
    · subst q; simpa using hh
    · simp [hq]

theorem TableWf.same {t t' : RoutingTable} {brk : Ptr} (h : TableWf t brk) (hs : SameKeys t t') :
    TableWf t' brk where
  bucket := by
    intro i p hp
    rw [hs.tbl] at hp
    rw [hs.destAddr, hs.hash]
    exact h.bucket i p hp
  below := fun p hp => h.below p ((hs.linked p).1 hp)
  nodup := by
    intro i
    rw [hs.tbl]
    exact h.nodup i
  dests := by
    intro p q hp hq hd
    rw [hs.destAddr, hs.destAddr] at hd
    exact h.dests p q ((hs.linked p).1 hp) ((hs.linked q).1 hq) hd
  count := by rw [hs.numEntries, hs.entries]; exact h.count

theorem TableWf.mono {t : RoutingTable} {brk brk' : Ptr} (h : TableWf t brk) (hb : brk ≤ brk') :
    TableWf t brk' :=
  { h with below := fun p hp => Nat.lt_of_lt_of_le (h.below p hp) hb }

theorem rtTableCheck_some {t : RoutingTable} {dest : Addr} {p : Ptr}
    (h : rtTableCheck t dest = some p) : Linked t p ∧ (t.rtMem p).destAddr = dest := by
  unfold rtTableCheck at h
  split at h
  · cases h
  · have hm := List.mem_of_find?_eq_some h
    have hd := List.find?_some h
    simp only [decide_eq_true_eq] at hd
    exact ⟨⟨_, hm⟩, hd.2.symm⟩

/-- The objects timers are embedded in must be in use while the timers are. -/
def Owns (s : Daemon) : TimerId → Prop
  | .rtTimer p | .ackTimer p | .helloTimer p => Linked s.rtTbl p
  | .seekTimer q => q ∈ s.sl
  | .recTimer c => ∃ r ∈ s.rreqRecords, r.ptr = c
  | .blTimer c => ∃ b ∈ s.rreqBlacklists, b.ptr = c
  | .worbTimer | .ownHelloTimer | .rtLogTimer => True

/-- What each timer may call. Nothing gives the reboot timer or the timer of
the own HELLOs a handler. -/
def HandlerFits : TimerId → Option Handler × Data → Prop
  | .rtTimer p, c => c.2 = .obj p ∧ (c.1 = some .routeExpireTimeout ∨
      c.1 = some .localRepairTimeout ∨ c.1 = some .routeDeleteTimeout)
  | .ackTimer p, c => c = (some .rrepAckTimeout, .obj p)
  | .helloTimer p, c => c = (some .helloTimeout, .obj p)
  | .seekTimer q, c => c = (some .routeDiscoveryTimeout, .obj q)
  | .recTimer r, c => c = (some .rreqRecordTimeout, .obj r)
  | .blTimer b, c => c = (some .rreqBlacklistTimeout, .obj b)
  | .worbTimer, c | .ownHelloTimer, c => c.1 = none
  | .rtLogTimer, c => c.1 = some .printRtTable

def Armed (q : TimerQueue) : Prop := ∀ t, Pending q t → (callee q t).1 ≠ none

def Sane (k : SeekEntry) : Prop := 0 ≤ k.ttl ∧ 1 ≤ k.rreqCnt

structure WellFormed (s : Daemon) : Prop where
  table : TableWf s.rtTbl s.brk
  coherent : Coherent s.timers
  owned : ∀ t, Pending s.timers t → Owns s t
  armed : Armed s.timers
  fits : ∀ t, Owns s t → HandlerFits t (callee s.timers t)
  seekBelow : ∀ q ∈ s.sl, q < s.brk
  seekNodup : s.sl.Nodup
  seekDests : ∀ q ∈ s.sl, ∀ q' ∈ s.sl, (s.seek q).destAddr = (s.seek q').destAddr → q = q'
  seekSane : ∀ q ∈ s.sl, Sane (s.seek q)
  recordBelow : ∀ r ∈ s.rreqRecords, r.ptr < s.brk
  blacklistBelow : ∀ b ∈ s.rreqBlacklists, b.ptr < s.brk
  enabled : s.host.enabled = true

/-- Timers were armed, removed or given another handler of their kind. -/
structure Rearmed (own : TimerId → Prop) (q q' : TimerQueue) : Prop where
  coherent : Coherent q → Coherent q'
  pending : Coherent q → ∀ t, Pending q' t → Pending q t ∨ own t
  armed : Coherent q → Armed q → Armed q'
  fits : ∀ t, HandlerFits t (callee q t) → HandlerFits t (callee q' t)
  batch : q'.exptq.Sublist q.exptq

namespace Rearmed

variable {own : TimerId → Prop} {q q' q'' : TimerQueue}

theorem refl : Rearmed own q q :=
  ⟨id, fun _ _ h => .inl h, fun _ h => h, fun _ h => h, List.Sublist.refl _⟩

theorem trans (h : Rearmed own q q') (h' : Rearmed own q' q'') : Rearmed own q q'' where
  coherent := fun hq => h'.coherent (h.coherent hq)
  pending := by
    intro hq t ht
    rcases h'.pending (h.coherent hq) t ht with hp | ho
    · exact h.pending hq t hp
    · exact .inr ho
  armed := fun hq ha => h'.armed (h.coherent hq) (h.armed hq ha)
  fits := fun t ht => h'.fits t (h.fits t ht)
  batch := h'.batch.trans h.batch

theorem timerRemove (q : TimerQueue) (t : TimerId) : Rearmed own q (timerRemove q t) where
  coherent := fun hq => hq.timerRemove t
  pending := fun _ u hu => .inl ((pending_timerRemove q t u).1 hu).1
  armed := by
    intro _ ha u hu
    rw [callee_timerRemove]
    exact ha u ((pending_timerRemove q t u).1 hu).1
  fits := fun u hu => by rwa [callee_timerRemove]
  batch := exptq_timerRemove_sublist q t

theorem timerSetTimeout {a : Arch} (now : Timeval) (q : TimerQueue) (t : TimerId) (msec : Int)
    (ht : own t) : Rearmed own q (timerSetTimeout a now q t msec) where
  coherent := fun hq => hq.timerSetTimeout now t msec
  pending := by
    intro hq u hu
    rcases (pending_timerSetTimeout hq now t u msec).1 hu with ⟨_, hp⟩ | ⟨rfl, _, _⟩
    · exact .inl hp
    · exact .inr ht
  armed := by
    intro hq ha u hu
    rw [callee_timerSetTimeout]
    rcases (pending_timerSetTimeout hq now t u msec).1 hu with ⟨_, hp⟩ | ⟨rfl, _, hh⟩
    · exact ha u hp
    · exact hh
  fits := fun u hu => by rwa [callee_timerSetTimeout]
  batch := exptq_timerSetTimeout_sublist now q t msec

theorem setHandler (q : TimerQueue) (p : Ptr) (f : Handler)
    (hf : f = .routeExpireTimeout ∨ f = .localRepairTimeout ∨ f = .routeDeleteTimeout) :
    Rearmed own q (setHandler q (.rtTimer p) f) where
  coherent := fun hq => hq.setHandler _ f
  pending := fun _ _ hu => .inl hu
  armed := by
    intro _ ha u hu
    rw [callee_setHandler]
    split
    · simp
    · exact ha u hu
  fits := by
    intro u hu
    rw [callee_setHandler]
    split
    · subst u
      refine ⟨hu.1, ?_⟩
      rcases hf with rfl | rfl | rfl <;> simp
    · exact hu
  batch := List.Sublist.refl _

end Rearmed

/-- Nothing was linked, unlinked or allocated between the two states, and only
timers of objects in use were armed. -/
structure Kept (s s' : Daemon) : Prop where
  keys : SameKeys s.rtTbl s'.rtTbl
  brk : s'.brk = s.brk
  sl : s'.sl = s.sl
  seek : s'.seekMem = s.seekMem
  records : s'.rreqRecords = s.rreqRecords
  blacklists : s'.rreqBlacklists = s.rreqBlacklists
  enabled : s'.host.enabled = s.host.enabled
  ipaddr : s'.host.ipaddr = s.host.ipaddr
  seqno : s'.host.seqno = s.host.seqno
  reboot : s'.waitOnReboot = s.waitOnReboot
  timers : Rearmed (Owns s) s.timers s'.timers

/-- The daemon is well formed afterwards, and nothing has entered the batch. -/
structure Sound (s s' : Daemon) : Prop where
  wellFormed : WellFormed s'
  batch : s'.timers.exptq.Sublist s.timers.exptq
  brk : s.brk ≤ s'.brk
  ipaddr : s'.host.ipaddr = s.host.ipaddr
  reboot : s'.waitOnReboot = s.waitOnReboot

theorem Sound.refl {s : Daemon} (hs : WellFormed s) : Sound s s :=
  ⟨hs, List.Sublist.refl _, Nat.le_refl _, rfl, rfl⟩

theorem Sound.trans {s s' s'' : Daemon} (h : Sound s s') (h' : Sound s' s'') : Sound s s'' :=
  ⟨h'.wellFormed, h'.batch.trans h.batch, Nat.le_trans h.brk h'.brk, h'.ipaddr.trans h.ipaddr,
    h'.reboot.trans h.reboot⟩

namespace Kept

variable {s s' s'' : Daemon}

theorem refl : Kept s s := ⟨.refl _, rfl, rfl, rfl, rfl, rfl, rfl, rfl, rfl, rfl, .refl⟩

theorem owns (h : Kept s s') (t : TimerId) : Owns s' t ↔ Owns s t := by
  cases t <;> simp only [Owns, h.keys.linked, h.sl, h.records, h.blacklists]

theorem trans (h : Kept s s') (h' : Kept s' s'') : Kept s s'' where
  keys := h.keys.trans h'.keys
  brk := h'.brk.trans h.brk
  sl := h'.sl.trans h.sl
  seek := h'.seek.trans h.seek
  records := h'.records.trans h.records
  blacklists := h'.blacklists.trans h.blacklists
  enabled := h'.enabled.trans h.enabled
  ipaddr := h'.ipaddr.trans h.ipaddr
  seqno := h'.seqno.trans h.seqno
  reboot := h'.reboot.trans h.reboot
  timers := by
    have hown : Owns s' = Owns s := funext fun t => propext (h.owns t)
    have ht := h'.timers
    rw [hown] at ht
    exact h.timers.trans ht

theorem wellFormed (h : Kept s s') (hs : WellFormed s) : WellFormed s' where
  table := by
    rw [h.brk]
    exact hs.table.same h.keys
  coherent := h.timers.coherent hs.coherent
  owned := by
    intro t ht
    rw [h.owns]
    rcases h.timers.pending hs.coherent t ht with hp | ho
    · exact hs.owned t hp
    · exact ho
  armed := h.timers.armed hs.coherent hs.armed
  fits := fun t ht => h.timers.fits t (hs.fits t ((h.owns t).1 ht))
  seekBelow := by
    rw [h.sl, h.brk]
    exact hs.seekBelow
  seekNodup := by
    rw [h.sl]
    exact hs.seekNodup
  seekDests := by
    simp only [h.sl, Daemon.seek, h.seek]
    exact hs.seekDests
  seekSane := by
    simp only [h.sl, Daemon.seek, h.seek]
    exact hs.seekSane
  recordBelow := by
    rw [h.records, h.brk]
    exact hs.recordBelow
  blacklistBelow := by
    rw [h.blacklists, h.brk]
    exact hs.blacklistBelow
  enabled := h.enabled.trans hs.enabled

theorem sound (h : Kept s s') (hs : WellFormed s) : Sound s s' :=
  ⟨h.wellFormed hs, h.timers.batch, Nat.le_of_eq h.brk.symm, h.ipaddr, h.reboot⟩

theorem tock (s : Daemon) : Kept s s.tock :=
  ⟨.refl _, rfl, rfl, rfl, rfl, rfl, rfl, rfl, rfl, rfl, .refl⟩

theorem observe (s : Daemon) (o : Obs) : Kept s (s.observe o) :=
  ⟨.refl _, rfl, rfl, rfl, rfl, rfl, rfl, rfl, rfl, rfl, .refl⟩

theorem write (s : Daemon) (buf : Buf) : Kept s { s with sendBuf := buf } :=
  ⟨.refl _, rfl, rfl, rfl, rfl, rfl, rfl, rfl, rfl, rfl, .refl⟩

theorem socketSend (e : Env) (s : Daemon) (msg : Msg) (dest : Addr) (len ttl : Int) :
    Kept s (aodvSocketSend e s msg dest len ttl) :=
  ⟨.refl _, rfl, rfl, rfl, rfl, rfl, rfl, rfl, rfl, rfl, .refl⟩

theorem nlSendBoth (e : Env) (s : Daemon) (first second : Obs) :
    Kept s (nlSendBoth e s first second) :=
  ⟨.refl _, rfl, rfl, rfl, rfl, rfl, rfl, rfl, rfl, rfl, .refl⟩

theorem setRt (s : Daemon) (p : Ptr) (r : RtEntry) (hd : r.destAddr = (s.rt p).destAddr)
    (hh : r.hash = (s.rt p).hash) : Kept s (s.setRt p r) :=
  ⟨SameKeys.update s.rtTbl p r s.rtTbl.numActive hd hh, rfl, rfl, rfl, rfl, rfl,
    rfl, rfl, rfl, rfl, .refl⟩

theorem setActive (s : Daemon) (n : U32) :
    Kept s { s with rtTbl := { s.rtTbl with numActive := n } } :=
  ⟨⟨rfl, rfl, fun _ => rfl, fun _ => rfl⟩, rfl, rfl, rfl, rfl, rfl, rfl, rfl, rfl, rfl, .refl⟩

theorem rearm (s : Daemon) (q : TimerQueue) (hq : Rearmed (Owns s) s.timers q) :
    Kept s { s with timers := q } :=
  ⟨.refl _, rfl, rfl, rfl, rfl, rfl, rfl, rfl, rfl, rfl, hq⟩

theorem arm {a : Arch} (s : Daemon) (now : Timeval) (t : TimerId) (msec : Int) (ht : Owns s t) :
    Kept s { s with timers := timerSetTimeout a now s.timers t msec, tick := s.tick + 1 } :=
  ⟨.refl _, rfl, rfl, rfl, rfl, rfl, rfl, rfl, rfl, rfl, .timerSetTimeout now _ t msec ht⟩

end Kept

theorem seek_setSeek_self (s : Daemon) (q : Ptr) (k : SeekEntry) : (s.setSeek q k).seek q = k := by
  simp [Daemon.seek, Daemon.setSeek]

theorem seek_setSeek_ne (s : Daemon) {q q' : Ptr} (k : SeekEntry) (h : q' ≠ q) :
    (s.setSeek q k).seek q' = s.seek q' := by
  simp [Daemon.seek, Daemon.setSeek, h]

theorem setSeek_sound {s : Daemon} (hs : WellFormed s) {q : Ptr} {k : SeekEntry}
    (hk : k.destAddr = (s.seek q).destAddr) (hsane : Sane (s.seek q) → Sane k) :
    Sound s (s.setSeek q k) := by
  have hdest (q' : Ptr) : ((s.setSeek q k).seek q').destAddr = (s.seek q').destAddr := by
    by_cases h : q' = q
    · subst q'
      rwa [seek_setSeek_self]
    · rw [seek_setSeek_ne s k h]
  refine ⟨{ hs with seekDests := ?_, seekSane := ?_ }, List.Sublist.refl _, Nat.le_refl _, rfl, rfl⟩
  · intro a ha b hb hd
    rw [hdest, hdest] at hd
    exact hs.seekDests a ha b hb hd
  · intro q' hq'
    by_cases h : q' = q
    · subst q'
      rw [seek_setSeek_self]
      exact hsane (hs.seekSane q hq')
    · rw [seek_setSeek_ne s k h]
      exact hs.seekSane q' hq'

theorem kept_updateTimeout (e : Env) {s : Daemon} {p : Ptr} (lifetime : U32)
    (hp : Linked s.rtTbl p) : Kept s (rtTableUpdateTimeout e s p lifetime) := by
  rw [rtTableUpdateTimeout]
  split
  · dsimp only
    split
    · exact (Kept.tock s).trans (Kept.arm s.tock _ (.rtTimer p) _ hp)
    · exact Kept.tock s
  · exact Kept.refl

theorem kept_precursorAdd (s : Daemon) (p : Ptr) (addr : Addr) :
    Kept s (precursorAdd s p addr) := by
  simp only [precursorAdd]
  split
  · exact Kept.refl
  · exact Kept.setRt s p _ rfl rfl

theorem kept_precursorListDestroy (s : Daemon) (p : Ptr) : Kept s (precursorListDestroy s p) :=
  Kept.setRt s p _ rfl rfl

theorem kept_invalidate (e : Env) {s : Daemon} {p : Ptr} (hp : Linked s.rtTbl p) :
    Kept s (rtTableInvalidate e s p) := by
  simp only [rtTableInvalidate]
  cases hstate : (s.tock.rt p).state with
  | invalid => exact Kept.tock s
  | valid =>
      dsimp only
      refine ⟨SameKeys.update s.rtTbl p _ _ rfl rfl, rfl, rfl, rfl, rfl, rfl, rfl, rfl, rfl, rfl, ?_⟩
      have hfirst : Rearmed (Owns s) s.timers (timerRemove s.timers (.rtTimer p)) := .timerRemove _ _
      have hremoved := hfirst.trans
        ((Rearmed.timerRemove _ (.helloTimer p)).trans (Rearmed.timerRemove _ (.ackTimer p)))
      refine hremoved.trans (.trans (.setHandler _ p _ ?_) (.timerSetTimeout _ _ (.rtTimer p) _ hp))
      split <;> simp

theorem mem_linkEntry (s : Daemon) (r : RtEntry) (q : Ptr) (i : Fin 64) :
    q ∈ (linkEntry s r).rtTbl.tbl i ↔
      (q = s.brk ∧ i = hashing r.destAddr) ∨ q ∈ s.rtTbl.tbl i := by
  by_cases hi : i = hashing r.destAddr
  · subst i; simp [linkEntry, listAdd]
  · simp [linkEntry, listAdd, hi]

theorem linked_linkEntry (s : Daemon) (r : RtEntry) (q : Ptr) :
    Linked (linkEntry s r).rtTbl q ↔ q = s.brk ∨ Linked s.rtTbl q := by
  simp only [Linked, mem_linkEntry]
  constructor
  · rintro ⟨i, ⟨hq, _⟩ | hq⟩
    · exact .inl hq
    · exact .inr ⟨i, hq⟩
  · rintro (hq | ⟨i, hq⟩)
    · exact ⟨_, .inl ⟨hq, rfl⟩⟩
    · exact ⟨i, .inr hq⟩

@[simp] theorem rt_linkEntry_self (s : Daemon) (r : RtEntry) : (linkEntry s r).rt s.brk = r := by
  simp [linkEntry, listAdd, Daemon.rt]

theorem rt_linkEntry_ne (s : Daemon) (r : RtEntry) {q : Ptr} (h : q ≠ s.brk) :
    (linkEntry s r).rt q = s.rt q := by
  simp [linkEntry, listAdd, Daemon.rt, h]

theorem callee_linkEntry (s : Daemon) (r : RtEntry) (t : TimerId) :
    callee (linkEntry s r).timers t =
      if t = .helloTimer s.brk then (some .helloTimeout, .obj s.brk)
      else if t = .ackTimer s.brk then (some .rrepAckTimeout, .obj s.brk)
      else if t = .rtTimer s.brk then (some .routeExpireTimeout, .obj s.brk)
      else callee s.timers t := by
  simp only [linkEntry, callee_timerInit]

theorem WellFormed.brk_not_linked {s : Daemon} (h : WellFormed s) : ¬ Linked s.rtTbl s.brk :=
  fun hp => Nat.lt_irrefl _ (h.table.below _ hp)

theorem WellFormed.ne_brk {s : Daemon} (h : WellFormed s) {p : Ptr} (hp : Linked s.rtTbl p) :
    p ≠ s.brk := by
  rintro rfl
  exact h.brk_not_linked hp

theorem table_linkEntry {s : Daemon} {r : RtEntry} (h : WellFormed s)
    (hr : r.hash = r.destAddr) (hnew : ∀ q ∈ s.rtTbl.tbl (hashing r.destAddr),
      (s.rt q).destAddr ≠ r.destAddr) : TableWf (linkEntry s r).rtTbl (s.brk + 1) := by
  have hold (q : Ptr) (hq : Linked s.rtTbl q) : (linkEntry s r).rtTbl.rtMem q = s.rt q :=
    rt_linkEntry_ne s r (h.ne_brk hq)
  have hself : (linkEntry s r).rtTbl.rtMem s.brk = r := rt_linkEntry_self s r
  have hbucket (i : Fin 64) (q : Ptr) (hq : q ∈ (linkEntry s r).rtTbl.tbl i) :
      hashing ((linkEntry s r).rtTbl.rtMem q).destAddr = i ∧
        ((linkEntry s r).rtTbl.rtMem q).hash = ((linkEntry s r).rtTbl.rtMem q).destAddr := by
    rcases (mem_linkEntry s r q i).1 hq with ⟨rfl, rfl⟩ | hq
    · rw [hself]
      exact ⟨rfl, hr⟩
    · rw [hold q ⟨i, hq⟩]
      exact h.table.bucket i q hq
  have hnodup (i : Fin 64) : ((linkEntry s r).rtTbl.tbl i).Nodup := by
    by_cases hi : i = hashing r.destAddr
    · subst i
      simpa [linkEntry, listAdd] using ⟨fun hp => h.brk_not_linked ⟨_, hp⟩, h.table.nodup _⟩
    · simpa [linkEntry, listAdd, hi] using h.table.nodup i
  refine ⟨hbucket, ?_, hnodup, ?_, ?_⟩
  · intro q hq
    rcases (linked_linkEntry s r q).1 hq with rfl | hq
    · exact Nat.lt_succ_self _
    · exact Nat.lt_succ_of_lt (h.table.below q hq)
  · have hother (q : Ptr) (hq : Linked s.rtTbl q) : (s.rt q).destAddr ≠ r.destAddr := by
      intro hd
      obtain ⟨i, hi⟩ := hq
      have hb : hashing (s.rt q).destAddr = i := (h.table.bucket i q hi).1
      rw [hd] at hb
      subst hb
      exact hnew q hi hd
    intro q q' hq hq' hd
    rcases (linked_linkEntry s r q).1 hq with rfl | hq <;>
      rcases (linked_linkEntry s r q').1 hq' with rfl | hq'
    · rfl
    · rw [hself, hold q' hq'] at hd
      exact absurd hd.symm (hother q' hq')
    · rw [hself, hold q hq] at hd
      exact absurd hd (hother q hq)
    · rw [hold q hq, hold q' hq'] at hd
      exact h.table.dests q q' hq hq' hd
  · have hlen := entries_length_succ h.table.entries_nodup
      (entries_nodup hnodup fun i q hq => (hbucket i q hq).1) h.brk_not_linked
      (linked_linkEntry s r)
    rw [hlen, BitVec.ofNat_add]
    change s.rtTbl.numEntries + 1 = _
    rw [h.table.count]
    rfl

theorem wellFormed_linkEntry {s : Daemon} {r : RtEntry} (h : WellFormed s)
    (hr : r.hash = r.destAddr) (hnew : ∀ q ∈ s.rtTbl.tbl (hashing r.destAddr),
      (s.rt q).destAddr ≠ r.destAddr) : WellFormed (linkEntry s r) := by
  have hidle (t : TimerId)
      (ht : t = .rtTimer s.brk ∨ t = .ackTimer s.brk ∨ t = .helloTimer s.brk) :
      ¬ Pending s.timers t := by
    intro hp
    have ho := h.owned t hp
    rcases ht with rfl | rfl | rfl <;> exact h.brk_not_linked ho
  refine ⟨table_linkEntry h hr hnew, ?_, ?_, ?_, ?_, ?_, h.seekNodup, h.seekDests, h.seekSane,
    ?_, ?_, h.enabled⟩
  · exact (((h.coherent.timerInit _ _ _ (hidle _ (.inl rfl))).timerInit _ _ _
      (hidle _ (.inr (.inl rfl)))).timerInit _ _ _ (hidle _ (.inr (.inr rfl))))
  · intro t ht
    have ho := h.owned t ht
    cases t with
    | rtTimer p | ackTimer p | helloTimer p => exact (linked_linkEntry s r p).2 (.inr ho)
    | seekTimer q | recTimer c | blTimer c => exact ho
    | worbTimer | ownHelloTimer | rtLogTimer => trivial
  · intro t ht
    have harmed := h.armed t ht
    rw [callee_linkEntry]
    split
    · simp
    · split
      · simp
      · split
        · simp
        · exact harmed
  · intro t ht
    rw [callee_linkEntry]
    have hlinked {p : Ptr} (hp : p ≠ s.brk) (hl : Linked (linkEntry s r).rtTbl p) :
        Linked s.rtTbl p := ((linked_linkEntry s r p).1 hl).resolve_left hp
    cases t with
    | rtTimer p =>
        by_cases hp : p = s.brk
        · subst p; simp [HandlerFits]
        · simpa [hp] using h.fits (.rtTimer p) (hlinked hp ht)
    | ackTimer p =>
        by_cases hp : p = s.brk
        · subst p; simp [HandlerFits]
        · simpa [hp] using h.fits (.ackTimer p) (hlinked hp ht)
    | helloTimer p =>
        by_cases hp : p = s.brk
        · subst p; simp [HandlerFits]
        · simpa [hp] using h.fits (.helloTimer p) (hlinked hp ht)
    | seekTimer q => exact h.fits (.seekTimer q) ht
    | recTimer c => exact h.fits (.recTimer c) ht
    | blTimer c => exact h.fits (.blTimer c) ht
    | worbTimer => exact h.fits .worbTimer trivial
    | ownHelloTimer => exact h.fits .ownHelloTimer trivial
    | rtLogTimer => exact h.fits .rtLogTimer trivial
  · exact fun q hq => Nat.lt_succ_of_lt (h.seekBelow q hq)
  · exact fun c hc => Nat.lt_succ_of_lt (h.recordBelow c hc)
  · exact fun c hc => Nat.lt_succ_of_lt (h.blacklistBelow c hc)

theorem kept_openEntry (e : Env) (s : Daemon) (p : Ptr) (hops lifetime : U32) :
    Kept s (openEntry e s p hops lifetime).1 := by
  rw [openEntry]
  cases hstate : (s.rt p).state with
  | invalid =>
      dsimp only
      split
      · exact Kept.rearm s _ (.setHandler _ p _ (by simp))
      · exact Kept.rearm s _ (.setHandler _ p _ (by simp))
  | valid =>
      dsimp only
      exact (Kept.setActive s _).trans (Kept.nlSendBoth e _ _ _)

structure Tended (s : Daemon) : Prop where
  coherent : Coherent s.timers
  owned : ∀ t, Pending s.timers t → Owns s t
  armed : Armed s.timers
  fits : ∀ t, Owns s t → HandlerFits t (callee s.timers t)

theorem WellFormed.tended {s : Daemon} (h : WellFormed s) : Tended s :=
  ⟨h.coherent, h.owned, h.armed, h.fits⟩

namespace Tended

variable {s s' : Daemon} {t : TimerId} {f : Handler} {data : Data}

theorem opened (h : Tended s) (hidle : ¬ Pending s.timers t)
    (hq : s'.timers = timerInit s.timers t f data) (hfits : HandlerFits t (some f, data))
    (howns : ∀ u, Owns s' u ↔ u = t ∨ Owns s u) : Tended s' where
  coherent := by
    rw [hq]
    exact h.coherent.timerInit t f data hidle
  owned := by
    intro u hu
    rw [hq] at hu
    exact (howns u).2 (.inr (h.owned u hu))
  armed := by
    intro u hu
    rw [hq] at hu ⊢
    rw [callee_timerInit]
    split
    · simp
    · exact h.armed u hu
  fits := by
    intro u hu
    rw [hq, callee_timerInit]
    split
    · subst u; exact hfits
    next hne => exact h.fits u (((howns u).1 hu).resolve_left hne)

theorem closed (h : Tended s) (hq : s'.timers = timerRemove s.timers t)
    (howns : ∀ u, Owns s' u ↔ u ≠ t ∧ Owns s u) : Tended s' where
  coherent := by
    rw [hq]
    exact h.coherent.timerRemove t
  owned := by
    intro u hu
    rw [hq] at hu
    obtain ⟨hp, hne⟩ := (pending_timerRemove _ _ _).1 hu
    exact (howns u).2 ⟨hne, h.owned u hp⟩
  armed := by
    intro u hu
    rw [hq] at hu ⊢
    rw [callee_timerRemove]
    exact h.armed u ((pending_timerRemove _ _ _).1 hu).1
  fits := by
    intro u hu
    rw [hq, callee_timerRemove]
    exact h.fits u ((howns u).1 hu).2

end Tended

theorem wellFormed_seekListRemove {s : Daemon} (h : WellFormed s) (o : Option Ptr) :
    WellFormed (seekListRemove s o) := by
  cases o with
  | none => exact h
  | some q =>
      have howns (u : TimerId) :
          Owns (seekListRemove s (some q)) u ↔ u ≠ .seekTimer q ∧ Owns s u := by
        cases u <;> simp [Owns, seekListRemove, and_comm]
      have ht := h.tended.closed (t := .seekTimer q) rfl howns
      refine ⟨h.table, ht.coherent, ht.owned, ht.armed, ht.fits, ?_, ?_, ?_, ?_, h.recordBelow,
        h.blacklistBelow, h.enabled⟩
      · exact fun q' hq => h.seekBelow q' (List.mem_filter.1 hq).1
      · exact h.seekNodup.filter _
      · exact fun a ha b hb => h.seekDests a (List.mem_filter.1 ha).1 b (List.mem_filter.1 hb).1
      · exact fun q' hq => h.seekSane q' (List.mem_filter.1 hq).1

theorem kept_armEntry (e : Env) {s : Daemon} {p : Ptr} (lifetime : U32)
    (hp : Linked s.rtTbl p) : Kept s (armEntry e s p lifetime) := by
  rw [armEntry]
  split
  · exact Kept.arm s _ (.rtTimer p) _ hp
  · exact Kept.refl

theorem wellFormed_routeFound {s : Daemon} (h : WellFormed s) (p : Ptr) :
    WellFormed (routeFound s p) := by
  rw [routeFound]
  split
  · exact wellFormed_seekListRemove h _
  · exact h

theorem wellFormed_insertEntry (e : Env) {s : Daemon} {r : RtEntry} (h : WellFormed s)
    (hr : r.hash = r.destAddr) (hnew : ∀ q ∈ s.rtTbl.tbl (hashing r.destAddr),
      (s.rt q).destAddr ≠ r.destAddr) (hops lifetime : U32) :
    WellFormed (insertEntry e s r hops lifetime) := by
  have hlinked := (linked_linkEntry s r s.brk).2 (.inl rfl)
  have hopen := kept_openEntry e (linkEntry s r) s.brk hops lifetime
  have harm := kept_armEntry e (openEntry e (linkEntry s r) s.brk hops lifetime).2
    ((hopen.keys.linked s.brk).2 hlinked)
  have hw := (hopen.trans harm).wellFormed (wellFormed_linkEntry h hr hnew)
  exact wellFormed_routeFound hw s.brk

theorem rtTableInsert_cases (e : Env) (s : Daemon) (dest next : Addr) (hops seqno lifetime : U32)
    (state : RtState) (flags : RtFlags) :
    rtTableInsert e s dest next hops seqno lifetime state flags = (s, none) ∨
    (∀ q ∈ s.rtTbl.tbl (hashing dest), (s.rt q).destAddr ≠ dest) ∧
      rtTableInsert e s dest next hops seqno lifetime state flags =
        (insertEntry e (s.observe (.rtInsert dest next hops seqno lifetime state flags))
          (newEntry dest next hops seqno state flags) hops lifetime, some s.brk) := by
  rw [rtTableInsert]
  split
  · exact .inl rfl
  next h => exact .inr ⟨by simpa using h, rfl⟩

theorem wellFormed_insert (e : Env) {s : Daemon} (h : WellFormed s) (dest next : Addr)
    (hops seqno lifetime : U32) (state : RtState) (flags : RtFlags) :
    WellFormed (rtTableInsert e s dest next hops seqno lifetime state flags).1 := by
  obtain hi | ⟨hnew, hi⟩ := rtTableInsert_cases e s dest next hops seqno lifetime state flags
  · rw [hi]
    exact h
  · rw [hi]
    have hs := (Kept.observe s (.rtInsert dest next hops seqno lifetime state flags)).wellFormed h
    exact wellFormed_insertEntry (r := newEntry dest next hops seqno state flags) e hs rfl hnew
      hops lifetime

theorem wellFormed_seekListInsert {s : Daemon} (h : WellFormed s) (dest : Addr) (seqno : U32)
    (ttl : Int) (flags : U8) (hnew : seekListCheck s dest = none) (httl : 0 ≤ ttl) :
    WellFormed (seekListInsert s dest seqno ttl flags).1 := by
  have hfresh : s.brk ∉ s.sl := fun hm => Nat.lt_irrefl _ (h.seekBelow _ hm)
  have hidle : ¬ Pending s.timers (.seekTimer s.brk) := fun hp => hfresh (h.owned _ hp)
  have hmem (q : Ptr) : q ∈ (seekListInsert s dest seqno ttl flags).1.sl ↔ q = s.brk ∨ q ∈ s.sl := by
    simp [seekListInsert]
  have hold (q : Ptr) (hq : q ∈ s.sl) :
      (seekListInsert s dest seqno ttl flags).1.seek q = s.seek q := by
    have hne : q ≠ s.brk := fun he => hfresh (he ▸ hq)
    simp [seekListInsert, Daemon.seek, hne]
  have hself : (seekListInsert s dest seqno ttl flags).1.seek s.brk = ⟨dest, seqno, flags, 1, ttl⟩ := by
    simp [seekListInsert, Daemon.seek]
  have hother (q : Ptr) (hq : q ∈ s.sl) : (s.seek q).destAddr ≠ dest := by
    simpa using List.find?_eq_none.1 hnew q hq
  have howns (u : TimerId) : Owns (seekListInsert s dest seqno ttl flags).1 u ↔
      u = .seekTimer s.brk ∨ Owns s u := by
    cases u <;> simp [Owns, seekListInsert]
  have ht := h.tended.opened hidle rfl rfl howns
  refine ⟨h.table.mono (Nat.le_succ _), ht.coherent, ht.owned, ht.armed, ht.fits, ?_, ?_, ?_,
    ?_, ?_, ?_, h.enabled⟩
  · intro q hq
    rcases (hmem q).1 hq with rfl | hq
    · exact Nat.lt_succ_self _
    · exact Nat.lt_succ_of_lt (h.seekBelow q hq)
  · exact List.nodup_cons.2 ⟨hfresh, h.seekNodup⟩
  · intro q hq q' hq' hd
    rcases (hmem q).1 hq with rfl | hq <;> rcases (hmem q').1 hq' with rfl | hq'
    · rfl
    · rw [hself, hold q' hq'] at hd
      exact absurd hd.symm (hother q' hq')
    · rw [hself, hold q hq] at hd
      exact absurd hd (hother q hq)
    · rw [hold q hq, hold q' hq'] at hd
      exact h.seekDests q hq q' hq' hd
  · intro q hq
    rcases (hmem q).1 hq with rfl | hq
    · rw [hself]
      exact ⟨httl, Int.le_refl 1⟩
    · rw [hold q hq]
      exact h.seekSane q hq
  · exact fun c hc => Nat.lt_succ_of_lt (h.recordBelow c hc)
  · exact fun c hc => Nat.lt_succ_of_lt (h.blacklistBelow c hc)

theorem mem_listRemove (t : RoutingTable) (p q : Ptr) (i : Fin 64) :
    q ∈ (listRemove t p).tbl i ↔ q ∈ t.tbl i ∧ q ≠ p := by
  simp [listRemove]

theorem linked_listRemove (t : RoutingTable) (p q : Ptr) :
    Linked (listRemove t p) q ↔ Linked t q ∧ q ≠ p := by
  simp only [Linked, mem_listRemove]
  constructor
  · rintro ⟨i, hq, hne⟩
    exact ⟨⟨i, hq⟩, hne⟩
  · rintro ⟨⟨i, hq⟩, hne⟩
    exact ⟨i, hq, hne⟩

theorem TableWf.remove {t t' : RoutingTable} {brk : Ptr} (h : TableWf t brk) {p : Ptr}
    (hp : Linked t p) (htbl : t'.tbl = (listRemove t p).tbl)
    (hcount : t'.numEntries = t.numEntries - 1) (hmem : ∀ q, q ≠ p → t'.rtMem q = t.rtMem q) :
    TableWf t' brk := by
  have hlinked (q : Ptr) : Linked t' q ↔ Linked t q ∧ q ≠ p := by
    rw [← linked_listRemove, Linked, Linked, htbl]
  have hbucket (i : Fin 64) (q : Ptr) (hq : q ∈ t'.tbl i) :
      hashing (t'.rtMem q).destAddr = i ∧ (t'.rtMem q).hash = (t'.rtMem q).destAddr := by
    rw [htbl, mem_listRemove] at hq
    rw [hmem q hq.2]
    exact h.bucket i q hq.1
  have hnodup (i : Fin 64) : (t'.tbl i).Nodup := by
    rw [htbl]
    exact (h.nodup i).filter _
  refine ⟨hbucket, fun q hq => h.below q ((hlinked q).1 hq).1, hnodup, ?_, ?_⟩
  · intro q q' hq hq' hd
    have h1 := (hlinked q).1 hq
    have h2 := (hlinked q').1 hq'
    rw [hmem q h1.2, hmem q' h2.2] at hd
    exact h.dests q q' h1.1 h2.1 hd
  · have hback (q : Ptr) : Linked t q ↔ q = p ∨ Linked t' q := by
      rw [hlinked]
      constructor
      · intro hq
        by_cases he : q = p
        · exact .inl he
        · exact .inr ⟨hq, he⟩
      · rintro (rfl | hq)
        · exact hp
        · exact hq.1
    have hlen := entries_length_succ
      (Aodv.entries_nodup hnodup fun i q hq => (hbucket i q hq).1)
      h.entries_nodup (fun hl => ((hlinked p).1 hl).2 rfl) hback
    rw [hcount, h.count, hlen, BitVec.ofNat_add]
    exact BitVec.add_sub_cancel _ _

theorem owns_of_unlinked {s s' : Daemon} {p : Ptr}
    (hl : ∀ q, Linked s'.rtTbl q ↔ Linked s.rtTbl q ∧ q ≠ p) (hsl : s'.sl = s.sl)
    (hrec : s'.rreqRecords = s.rreqRecords) (hbl : s'.rreqBlacklists = s.rreqBlacklists)
    (t : TimerId) : Owns s' t ↔
      Owns s t ∧ t ≠ .rtTimer p ∧ t ≠ .helloTimer p ∧ t ≠ .ackTimer p := by
  cases t <;> simp [Owns, hl, hsl, hrec, hbl]

theorem timers_delete (e : Env) (s : Daemon) (p : Ptr) : (rtTableDelete e s p).timers =
    timerRemove (timerRemove (timerRemove s.timers (.rtTimer p)) (.helloTimer p)) (.ackTimer p) := by
  simp only [rtTableDelete]
  cases ((precursorListDestroy { s with rtTbl := listRemove s.rtTbl p } p).rt p).state <;> rfl

theorem tbl_delete (e : Env) (s : Daemon) (p : Ptr) :
    (rtTableDelete e s p).rtTbl.tbl = (listRemove s.rtTbl p).tbl := by
  simp only [rtTableDelete]
  cases ((precursorListDestroy { s with rtTbl := listRemove s.rtTbl p } p).rt p).state <;> rfl

theorem linked_delete (e : Env) (s : Daemon) (p q : Ptr) :
    Linked (rtTableDelete e s p).rtTbl q ↔ Linked s.rtTbl q ∧ q ≠ p := by
  rw [← linked_listRemove, Linked, Linked, tbl_delete]

theorem rt_delete (e : Env) (s : Daemon) {p q : Ptr} (hq : q ≠ p) :
    (rtTableDelete e s p).rt q = s.rt q := by
  have hset : (precursorListDestroy { s with rtTbl := listRemove s.rtTbl p } p).rtTbl.rtMem q =
      s.rtTbl.rtMem q := by
    simp [precursorListDestroy, Daemon.setRt, listRemove, hq]
  simp only [rtTableDelete]
  cases ((precursorListDestroy { s with rtTbl := listRemove s.rtTbl p } p).rt p).state <;>
    exact hset

theorem wellFormed_delete (e : Env) {s : Daemon} (h : WellFormed s) {p : Ptr}
    (hp : Linked s.rtTbl p) : WellFormed (rtTableDelete e s p) := by
  have hcount : (rtTableDelete e s p).rtTbl.numEntries = s.rtTbl.numEntries - 1 := by
    simp only [rtTableDelete]
    cases ((precursorListDestroy { s with rtTbl := listRemove s.rtTbl p } p).rt p).state <;> rfl
  have hrest : (rtTableDelete e s p).sl = s.sl ∧ (rtTableDelete e s p).seekMem = s.seekMem ∧
      (rtTableDelete e s p).rreqRecords = s.rreqRecords ∧
      (rtTableDelete e s p).rreqBlacklists = s.rreqBlacklists ∧
      (rtTableDelete e s p).brk = s.brk ∧ (rtTableDelete e s p).host = s.host := by
    simp only [rtTableDelete]
    cases ((precursorListDestroy { s with rtTbl := listRemove s.rtTbl p } p).rt p).state <;>
      exact ⟨rfl, rfl, rfl, rfl, rfl, rfl⟩
  obtain ⟨hsl, hseek, hrec, hbl, hbrk, hhost⟩ := hrest
  have howns := owns_of_unlinked (linked_delete e s p) hsl hrec hbl
  have hcallee (t : TimerId) : callee (rtTableDelete e s p).timers t = callee s.timers t := by
    rw [timers_delete, callee_timerRemove, callee_timerRemove, callee_timerRemove]
  have hpend (t : TimerId) : Pending (rtTableDelete e s p).timers t ↔
      Pending s.timers t ∧ t ≠ .rtTimer p ∧ t ≠ .helloTimer p ∧ t ≠ .ackTimer p := by
    rw [timers_delete, pending_timerRemove, pending_timerRemove, pending_timerRemove]
    tauto
  refine ⟨?_, ?_, ?_, ?_, ?_, ?_, ?_, ?_, ?_, ?_, ?_, ?_⟩
  · rw [hbrk]
    exact h.table.remove hp (tbl_delete e s p) hcount fun q hq => rt_delete e s hq
  · rw [timers_delete]
    exact ((h.coherent.timerRemove _).timerRemove _).timerRemove _
  · intro t ht
    have hp := (hpend t).1 ht
    exact (howns t).2 ⟨h.owned t hp.1, hp.2⟩
  · intro t ht
    rw [hcallee]
    exact h.armed t ((hpend t).1 ht).1
  · intro t ht
    rw [hcallee]
    exact h.fits t ((howns t).1 ht).1
  · rw [hsl, hbrk]
    exact h.seekBelow
  · rw [hsl]
    exact h.seekNodup
  · simp only [Daemon.seek, hsl, hseek]
    exact h.seekDests
  · simp only [Daemon.seek, hsl, hseek]
    exact h.seekSane
  · rw [hrec, hbrk]
    exact h.recordBelow
  · rw [hbl, hbrk]
    exact h.blacklistBelow
  · rw [hhost]
    exact h.enabled

end Aodv
