import Aodv.Steps

namespace Aodv

open Lib.Bytes Relation

theorem updateTimeout_eq (e : Env) (s : Daemon) (p : Ptr) (lifetime : U32) :
    ∃ q n, rtTableUpdateTimeout e s p lifetime = { s with timers := q, tick := n } := by
  rw [rtTableUpdateTimeout]
  split
  · dsimp only
    split
    · exact ⟨_, _, rfl⟩
    · exact ⟨_, _, rfl⟩
  · exact ⟨_, _, rfl⟩

theorem seekRefresh_eq (e : Env) (s : Daemon) (p : Ptr) (now : Timeval) :
    ∃ q n, seekRefresh e s p now = { s with timers := q, tick := n } := by
  rw [seekRefresh]
  split
  · exact updateTimeout_eq e s p _
  · exact ⟨_, _, rfl⟩

@[simp] theorem rt_routeFound (s : Daemon) (p q : Ptr) : (routeFound s p).rt q = s.rt q := by
  rw [routeFound]
  split
  · cases seekListCheck s (s.rt p).destAddr <;> rfl
  · rfl

@[simp] theorem tbl_routeFound (s : Daemon) (p : Ptr) : (routeFound s p).rtTbl = s.rtTbl := by
  rw [routeFound]
  split
  · cases seekListCheck s (s.rt p).destAddr <;> rfl
  · rfl

theorem rt_openEntry (e : Env) (s : Daemon) (p q : Ptr) (hops lifetime : U32) :
    (openEntry e s p hops lifetime).1.rt q = s.rt q := by
  rw [openEntry]
  cases (s.rt p).state with
  | invalid =>
      dsimp only
      split <;> rfl
  | valid => rfl

theorem rt_insertEntry (e : Env) (s : Daemon) (r : RtEntry) (hops lifetime : U32) (q : Ptr) :
    (insertEntry e s r hops lifetime).rt q = (linkEntry s r).rt q := by
  rw [insertEntry, rt_routeFound, armEntry]
  split <;> exact rt_openEntry e _ _ q hops lifetime

theorem linked_insertEntry (e : Env) (s : Daemon) (r : RtEntry) (hops lifetime : U32) (q : Ptr) :
    Linked (insertEntry e s r hops lifetime).rtTbl q ↔ q = s.brk ∨ Linked s.rtTbl q := by
  rw [← linked_linkEntry s r, insertEntry, tbl_routeFound, armEntry]
  have hopen := kept_openEntry e (linkEntry s r) s.brk hops lifetime
  split <;> exact hopen.keys.linked q

@[simp] theorem rt_setRt_self (s : Daemon) (p : Ptr) (r : RtEntry) : (s.setRt p r).rt p = r := by
  simp [Daemon.rt, Daemon.setRt]

theorem rt_setRt_ne (s : Daemon) {p q : Ptr} (r : RtEntry) (h : q ≠ p) :
    (s.setRt p r).rt q = s.rt q := by
  simp [Daemon.rt, Daemon.setRt, h]

theorem field_setRt {α : Type} (f : RtEntry → α) (s : Daemon) {p : Ptr} {r : RtEntry}
    (hr : f r = f (s.rt p)) (q : Ptr) : f ((s.setRt p r).rt q) = f (s.rt q) := by
  by_cases hq : q = p
  · rw [hq, rt_setRt_self, hr]
  · rw [rt_setRt_ne s r hq]

theorem rt_updateFinish (e : Env) (s : Daemon) (p q : Ptr) (next : Addr) (hops seqno lifetime : U32)
    (state : RtState) (flags : RtFlags) :
    (updateFinish e s p next hops seqno lifetime state flags).rt q =
      if q = p then { s.rt p with
        flags := flags, destSeqno := seqno, nextHop := next, hopcnt := hops.setWidth 8,
        state := state }
      else s.rt q := by
  have hself : (writeUpdate s p next hops seqno flags).rt p = { s.rt p with
      flags := flags, destSeqno := seqno, nextHop := next, hopcnt := hops.setWidth 8 } :=
    rt_setRt_self s p _
  have hne (hq : q ≠ p) : (writeUpdate s p next hops seqno flags).rt q = s.rt q :=
    rt_setRt_ne s _ hq
  have htimeout (s : Daemon) : ((if flags.inetDest then s else
      rtTableUpdateTimeout e s p lifetime).rt) = s.rt := by
    split
    · rfl
    · obtain ⟨_, _, h⟩ := updateTimeout_eq e s p lifetime
      rw [h]
      rfl
  rw [updateFinish, rt_routeFound, setState, htimeout]
  by_cases hq : q = p
  · subst q
    rw [if_pos rfl, rt_setRt_self, hself]
  · rw [if_neg hq, rt_setRt_ne _ _ hq, htimeout, hne hq]

theorem rt_update_self (e : Env) (s : Daemon) (p : Ptr) (next : Addr) (hops seqno lifetime : U32)
    (state : RtState) (flags : RtFlags) :
    ((rtTableUpdate e s p next hops seqno lifetime state flags).rt p).hopcnt = hops.setWidth 8 ∧
      ((rtTableUpdate e s p next hops seqno lifetime state flags).rt p).nextHop = next ∧
      ((rtTableUpdate e s p next hops seqno lifetime state flags).rt p).destSeqno = seqno ∧
      ((rtTableUpdate e s p next hops seqno lifetime state flags).rt p).state = state := by
  simp only [rtTableUpdate, rt_updateFinish, if_true, and_self]

section Coarse

variable {e : Env} {ev : Event}

theorem fine_tock (s : Daemon) : Fine e ev s s.tock := .quiet (.lb (.tock s))

theorem fines_seekRefresh {s : Daemon} {p : Ptr} (now : Timeval) (hp : Linked s.rtTbl p) :
    ReflTransGen (Fine e ev) s (seekRefresh e s p now) := by
  rw [seekRefresh]
  split
  · exact .single (.quiet (.updateTimeout (by decide) hp))
  · exact .refl

theorem seekListCheck_congr {s s' : Daemon} (hsl : s'.sl = s.sl) (hm : s'.seekMem = s.seekMem)
    (dest : Addr) : seekListCheck s' dest = seekListCheck s dest := by
  have hseek : s'.seek = s.seek := hm
  rw [seekListCheck, seekListCheck, hsl, hseek]

theorem rreqSend_frame (e : Env) (s : Daemon) (dest : Addr) (seqno : U32) (ttl : Int) (flags : U8) :
    (rreqSend e s dest seqno ttl flags).rtTbl = s.rtTbl ∧
      (rreqSend e s dest seqno ttl flags).sl = s.sl ∧
      (rreqSend e s dest seqno ttl flags).seekMem = s.seekMem ∧
      (rreqSend e s dest seqno ttl flags).timers = s.timers ∧
      (rreqSend e s dest seqno ttl flags).brk = s.brk := by
  rw [rreqSend]
  split <;> exact ⟨rfl, rfl, rfl, rfl, rfl⟩

theorem fines_accept {s : Daemon} {pkt : Packet} (h : ev = .recv pkt) (ht : pkt.buf 0 = aodvRreq)
    (hne : (rreqOf pkt.buf).origAddr ≠ s.host.ipaddr) :
    ReflTransGen (Fine e ev) s (rreqReverse e s (rreqOf pkt.buf) pkt.src).1 := by
  rw [rreqReverse]
  dsimp only
  cases hc : rtTableCheck s.rtTbl (rreqOf pkt.buf).origAddr with
  | none => exact .single (.insert _ _ (.rreq h ht hne))
  | some p =>
      obtain ⟨hp, hd⟩ := rtTableCheck_some hc
      have hl : Learned s.host.ipaddr ev (s.rt p).destSeqno .rreq (s.rt p).destAddr pkt.src
          ((rreqOf pkt.buf).hopcnt.setWidth 32 + 1) (rreqOf pkt.buf).origSeqno
          (rreqLife ((rreqOf pkt.buf).hopcnt.setWidth 32 + 1)) := by
        change (s.rt p).destAddr = _ at hd
        rw [hd]
        exact .rreq h ht hne
      dsimp only
      split
      · exact .single (.update _ hp hl)
      · exact .refl

theorem ring_nonneg {ttl : Int} (h : 0 ≤ ttl) : 0 ≤ ringTraversalTime ttl := by
  simp only [ringTraversalTime, nodeTraversalTime, timeoutBuffer]
  omega

theorem fines_open {s : Daemon} {dest : Addr} {seqno : U32} {ttl : Int} (flags : U8)
    {msec : Int} (hnew : seekListCheck s dest = none) (httl : 0 ≤ ttl) (hs : Told s seqno)
    (hm : 0 ≤ msec) {s' : Daemon}
    (hmark : ReflTransGen (Fine e ev) (rreqSend e s dest seqno ttl flags) s')
    (hsame : s'.rtTbl = s.rtTbl ∧ s'.sl = s.sl ∧ s'.seekMem = s.seekMem) :
    ReflTransGen (Fine e ev) s
      (seekArm e (seekListInsert s' dest seqno ttl flags).1 s'.brk msec) := by
  refine ReflTransGen.head (.rreqSend dest seqno ttl flags (.inl hs)) (hmark.tail ?_)
  refine .seekNew dest flags ?_ httl ?_ hm
  · exact (seekListCheck_congr (s := s) hsame.2.1 hsame.2.2 dest).trans hnew
  · simp only [Told, Daemon.rt, hsame.1]
    exact hs

theorem fines_discoverySend {s : Daemon} {dest : Addr} {seqno : U32} {ttl : Int} (flags : U8)
    (found : Option RtEntry) (hnew : seekListCheck s dest = none) (httl : 0 ≤ ttl)
    (hs : Told s seqno) :
    ReflTransGen (Fine e ev) s (discoverySend e s dest seqno ttl flags found) := by
  obtain ⟨hrt, hsl, hmem, _, _⟩ := rreqSend_frame e s dest seqno ttl flags
  rw [discoverySend]
  refine fines_open flags hnew httl hs ?_ (.single (.discovery
    (rreqSend e s dest seqno ttl flags).brk found)) ⟨hrt, hsl, hmem⟩
  split
  · exact ring_nonneg httl
  · decide

theorem fines_discover (s : Daemon) (dest : Addr) (flags : U8) :
    ReflTransGen (Fine e ev) s (rreqRouteDiscovery e s dest flags) := by
  refine ReflTransGen.head (fine_tock s) ?_
  rw [rreqRouteDiscovery]
  dsimp only
  cases hc : seekListCheck s.tock dest with
  | some q => exact .refl
  | none =>
      cases hr : rtTableCheck s.tock.rtTbl dest with
      | none =>
          refine fines_discoverySend flags none hc ?_ (.inl rfl)
          split <;> decide
      | some p =>
          obtain ⟨hp, _⟩ := rtTableCheck_some hr
          refine (fines_seekRefresh (e.clock s.tick) hp).trans ?_
          obtain ⟨q, n, hq⟩ := seekRefresh_eq e s.tock p (e.clock s.tick)
          dsimp only
          rw [hq]
          refine fines_discoverySend flags _ hc ?_ (.inr ⟨p, hp, rfl⟩)
          split
          · simp only [ttlIncrement]
            omega
          · decide

theorem repairTtl_nonneg (s : Daemon) (p : Ptr) (src : Addr) : 0 ≤ repairTtl s p src := by
  rw [repairTtl]
  split <;> simp only [localAddTtl] <;> omega

theorem fines_repairSend {s : Daemon} {dest : Addr} {seqno : U32} {ttl : Int}
    (hnew : seekListCheck s dest = none) (httl : 0 ≤ ttl) (hs : Told s seqno) :
    ReflTransGen (Fine e ev) s (repairSend e s dest seqno ttl) := by
  obtain ⟨hrt, hsl, hmem, _, _⟩ := rreqSend_frame e s dest seqno ttl 0
  rw [repairSend]
  refine fines_open 0 hnew httl hs ?_ .refl ⟨hrt, hsl, hmem⟩
  split
  · simp only [nodeTraversalTime]
    omega
  · decide

theorem fines_repair {s : Daemon} {p : Ptr} (src : Addr) (hp : Linked s.rtTbl p) :
    ReflTransGen (Fine e ev) s (rreqLocalRepair e s p src) := by
  rw [rreqLocalRepair]
  split
  · exact .refl
  next hnew =>
    have hnew' : seekListCheck s (s.rt p).destAddr = none := by simpa using hnew
    split
    · exact .refl
    next hrep =>
      have hrep' : (s.tock.rt p).flags.repair = true := (Bool.not_eq_false _).mp hrep
      have httl := repairTtl_nonneg s p src
      refine ReflTransGen.head (fine_tock s) (ReflTransGen.head (.repairStart hp hrep') ?_)
      refine (fines_seekRefresh (s := repairStart s.tock p) (e.clock s.tick) hp).trans ?_
      obtain ⟨q, n, hq⟩ := seekRefresh_eq e (repairStart s.tock p) p (e.clock s.tick)
      dsimp only
      rw [hq]
      exact fines_repairSend hnew' httl (.inr ⟨p, hp, rfl⟩)

theorem setSeek_ttl (s : Daemon) (q : Ptr) :
    s.setSeek q { s.seek q with ttl := (s.seek q).ttl } = s := by
  simp [Daemon.setSeek, Daemon.seek]

def ringNext (e : Env) (k : SeekEntry) : Int × Int :=
  if e.expandingRingSearch then
    let ttl := if k.ttl < ttlThreshold then k.ttl + ttlIncrement else netDiameter
    (ttl, ringTraversalTime ttl)
  else (k.ttl, k.rreqCnt * 2 * netTraversalTime)

theorem ringNext_nonneg (e : Env) {k : SeekEntry} (hk : Sane k) :
    0 ≤ (ringNext e k).1 ∧ 0 ≤ (ringNext e k).2 := by
  obtain ⟨httl, hcnt⟩ := hk
  rw [ringNext]
  split
  · have hnext : 0 ≤ (if k.ttl < ttlThreshold then k.ttl + ttlIncrement else netDiameter) := by
      split
      · simp only [ttlIncrement]
        omega
      · decide
    exact ⟨hnext, ring_nonneg hnext⟩
  · refine ⟨httl, ?_⟩
    simp only [netTraversalTime, nodeTraversalTime, netDiameter]
    omega

theorem seekRearm_eq (e : Env) (s : Daemon) (q : Ptr) :
    seekRearm e (pop s (.seekTimer q)).tock q =
      ringArm e s q (ringNext e (s.seek q)).1 (ringNext e (s.seek q)).2 := by
  rw [seekRearm, ringArm, ringNext]
  dsimp only
  split
  · rfl
  · exact congrArg (fun s' => seekArm e s' q ((s.seek q).rreqCnt * 2 * netTraversalTime))
      (setSeek_ttl (pop s (.seekTimer q)).tock q).symm

theorem refreshSought_eq (e : Env) (s : Daemon) (dest : Addr) (now : Timeval) :
    ∃ q n, refreshSought e s dest now = { s with timers := q, tick := n } := by
  rw [refreshSought]
  cases rtTableCheck s.rtTbl dest with
  | none => exact ⟨_, _, rfl⟩
  | some p => exact seekRefresh_eq e s p now

theorem fines_refreshSought (s : Daemon) (dest : Addr) (now : Timeval) :
    ReflTransGen (Fine e ev) s (refreshSought e s dest now) := by
  rw [refreshSought]
  cases hr : rtTableCheck s.rtTbl dest with
  | none => exact .refl
  | some p => exact fines_seekRefresh now (rtTableCheck_some hr).1

theorem fines_seekSend {s : Daemon} {q : Ptr} (hq : q ∈ s.sl) :
    ReflTransGen (Fine e ev) s (seekSend e s q) := by
  have hsl := (rreqSend_frame e s (s.seek q).destAddr (s.seek q).destSeqno (s.seek q).ttl
    (s.seek q).flags).2.1
  exact ReflTransGen.head (.rreqSend (s.seek q).destAddr (s.seek q).destSeqno (s.seek q).ttl
    (s.seek q).flags (.inr ⟨q, hq, rfl⟩)) (.single (.seekCount (hsl ▸ hq)))

theorem fines_seekAgain {s : Daemon} {q : Ptr} (hq : q ∈ s.sl) (hk : Sane (s.seek q))
    (now : Timeval) :
    ReflTransGen (Fine e ev) s (seekAgain e (pop s (.seekTimer q)).tock q now) := by
  obtain ⟨httl, hmsec⟩ := ringNext_nonneg e hk
  rw [seekAgain, seekRearm_eq]
  refine ReflTransGen.head (.seekRing hq httl hmsec) ((fines_refreshSought _
    ((pop s (.seekTimer q)).tock.seek q).destAddr now).trans ?_)
  obtain ⟨tq, n, hs⟩ := refreshSought_eq e (ringArm e s q (ringNext e (s.seek q)).1
    (ringNext e (s.seek q)).2) ((pop s (.seekTimer q)).tock.seek q).destAddr now
  rw [hs]
  exact fines_seekSend hq

def repairGiveUp (e : Env) (s : Daemon) (dest : Addr) : Daemon :=
  match rtTableCheck s.rtTbl dest with
  | none => s
  | some p => if (s.rt p).flags.repair then localRepairTimeout e s p else s

theorem seekGiveUp_eq (e : Env) (s : Daemon) (q : Ptr) :
    seekGiveUp e (pop s (.seekTimer q)).tock q =
      repairGiveUp e (Aodv.seekFail e s q) (s.seek q).destAddr := rfl

theorem fines_seekGiveUp {s : Daemon} {q : Ptr} (hq : q ∈ s.sl) :
    ReflTransGen (Fine e ev) s (seekGiveUp e (pop s (.seekTimer q)).tock q) := by
  refine ReflTransGen.head (.seekFail hq) ?_
  rw [seekGiveUp_eq, repairGiveUp]
  cases hr : rtTableCheck (Aodv.seekFail e s q).rtTbl (s.seek q).destAddr with
  | none => exact .refl
  | some p =>
      dsimp only
      split
      next hrep => exact .single (.quiet (.repairTimeout (rtTableCheck_some hr).1 (.inl hrep)))
      · exact .refl

theorem fines_discoveryTimeout {s : Daemon} {q : Ptr} (hq : q ∈ s.sl) (hk : Sane (s.seek q)) :
    ReflTransGen (Fine e ev) s (routeDiscoveryTimeout e (pop s (.seekTimer q)) q) := by
  rw [routeDiscoveryTimeout]
  split
  · exact fines_seekAgain hq hk _
  · exact fines_seekGiveUp hq

theorem coarse_fines {s s' : Daemon} (h : Coarse e ev s s') (hs : WellFormed s) :
    ReflTransGen (Fine e ev) s s' := by
  cases h with
  | quiet h => exact .single (.quiet h)
  | insert lifetime state hsrc hl => exact .single (.insert lifetime state hl)
  | update lifetime hp hsrc hl => exact .single (.update lifetime hp hl)
  | accept h ht horig hlen hnew =>
      have hrecord : Fine e ev s _ := .record h ht hnew
      have hown := (fine_sound hrecord hs).ipaddr
      exact ReflTransGen.head hrecord (fines_accept h ht (hown ▸ horig))
  | forUs h ht => exact .single (.forUs h ht)
  | discover dest flags => exact fines_discover s dest flags
  | repair src hp => exact fines_repair src hp
  | @discoveryTimeout q hq => exact fines_discoveryTimeout hq (hs.seekSane q hq)

end Coarse

end Aodv
