import Aodv.Heard

namespace Aodv.ReverseRoute

open Lib.Bytes Requests Heard

def hops (m : RREQ) : U32 := m.hopcnt.setWidth 32 + 1

def taken (m : RREQ) (r : RtEntry) : Bool := rreqFresher r m.origSeqno (hops m)

/-- The node a reply goes to, with r the entry of the originator. -/
def sentOver (m : RREQ) (src : Addr) (r : RtEntry) : Addr := if taken m r then src else r.nextHop

def MovesAway (s : Daemon) (m : RREQ) (src : Addr) : Prop :=
  1 < hops m ∧ ∃ r, noted s src m.origAddr = some r ∧ taken m r = true ∧ r.hopcnt = 1

/-- The entry of d is that of a neighbour when the reply to the RREQ is sent, and no
acknowledgement of d is awaited. -/
def Near (s : Daemon) (m : RREQ) (src d : Addr) : Prop :=
  awaitsAck s d = false ∧
    if d = m.origAddr then
      match noted s src d with
      | none => hops m = 1
      | some r => if taken m r then hops m = 1 else r.state = .valid ∧ r.hopcnt = 1
    else ∃ r, noted s src d = some r ∧ r.state = .valid ∧ r.hopcnt = 1 ∧
      ¬ (MovesAway s m src ∧ r.nextHop = m.origAddr)

/-- The table once the reverse route of the RREQ is rev. -/
structure SetUp (s : Daemon) (m : RREQ) (src : Addr) (t : Daemon) (rev : Ptr) : Prop where
  wellFormed : WellFormed t
  ipaddr : t.host.ipaddr = s.host.ipaddr
  linked : Linked t.rtTbl rev
  dest : (t.rt rev).destAddr = m.origAddr
  known : noted s src m.origAddr = none ∧ (t.rt rev).state = .valid ∧
      (t.rt rev).flags.unidir = false ∨
    t.rtTbl.numEntries ≠ 0 ∧ ∃ r, noted s src m.origAddr = some r ∧
      ((t.rt rev).state = .valid ↔ r.state = .valid ∨ taken m r = true) ∧
      (t.rt rev).nextHop = sentOver m src r ∧ (t.rt rev).flags.unidir = r.flags.unidir
  near : ∀ n, Linked t.rtTbl n → ((t.rt n).state = .valid ∧
    (t.timer (.ackTimer n)).used = false ∧ (t.rt n).hopcnt = 1 ↔ Near s m src (t.rt n).destAddr)
  found : ∀ d, Near s m src d → ∃ n, Linked t.rtTbl n ∧ (t.rt n).destAddr = d
  other : ∀ q, Linked t.rtTbl q → q ≠ rev → (t.rt q).state = .valid →
    ∃ r, noted s src (t.rt q).destAddr = some r ∧ SameLink r (t.rt q) ∧
      (t.timer (.ackTimer q)).used = awaitsAck s (t.rt q).destAddr

/-- A reply to the RREQ goes over a VALID route that it does not break. -/
structure Holds (s : Daemon) (m : RREQ) (src : Addr) : Prop where
  valid : ∀ r, noted s src m.origAddr = some r → r.state = .valid ∨ taken m r = true
  link : ∀ r, noted s src m.origAddr = some r → r.flags.unidir = true →
    ¬ Near s m src (sentOver m src r)

def Unidir (s : Daemon) (m : RREQ) (src : Addr) (r : RtEntry) : Prop :=
  r.flags.unidir = true ∨ awaitsAck s m.destAddr = false ∧
    ∃ r', noted s src m.origAddr = some r' ∧ r'.flags.unidir = true ∧ sentOver m src r' = m.destAddr

/-- The second RREP of an RREQ with the g flag breaks no link. -/
def HoldsBack (s : Daemon) (m : RREQ) (src : Addr) : Prop :=
  m.destAddr = m.origAddr ∨ ∀ r, noted s src m.destAddr = some r → Unidir s m src r →
    ¬ Near s m src r.nextHop

section Reverse

variable {e : Env} {s t t' : Daemon} {m : RREQ} {src d : Addr} {p rev : Ptr} {pkt : Packet}

theorem taken_congr {r r' : RtEntry} (h : SameLink r r') : taken m r' = taken m r := by
  rw [taken, taken, rreqFresher, rreqFresher, h.destSeqno, h.state, h.hopcnt]

theorem hops_one : (hops m).setWidth 8 = (1 : U8) ↔ hops m = 1 := by
  rw [hops]
  constructor
  · intro h
    apply BitVec.eq_of_toNat_eq
    have hb := congrArg BitVec.toNat h
    have hlt := m.hopcnt.isLt
    rw [BitVec.toNat_setWidth, BitVec.toNat_add, BitVec.toNat_setWidth] at hb
    rw [BitVec.toNat_add, BitVec.toNat_setWidth]
    have hone : (1 : U8).toNat = 1 := rfl
    have hone' : (1 : U32).toNat = 1 := rfl
    omega
  · intro h
    rw [h]
    rfl

theorem hops_le : hops m = 1 ↔ ¬ 1 < hops m := by
  rw [hops]
  have hlt := m.hopcnt.isLt
  have hone : (1 : U32).toNat = 1 := rfl
  constructor
  · intro h
    rw [h]
    decide
  · intro h
    apply BitVec.eq_of_toNat_eq
    rw [BitVec.lt_def, BitVec.toNat_add, BitVec.toNat_setWidth] at h
    rw [BitVec.toNat_add, BitVec.toNat_setWidth]
    omega

theorem awaitsAck_unknown (h : noted s src d = none) : awaitsAck s d = false := by
  rw [noted] at h
  rw [awaitsAck]
  cases hentry : entryOf s d with
  | none => rfl
  | some p =>
      rw [hentry] at h
      dsimp only at h
      split at h <;> cases h

theorem near_same (hnotes : Notes s src t)
    (hl : Linked t.rtTbl p) (hrt : t'.rt p = t.rt p)
    (hack : (t'.rt p).state = .valid → Frames.Leaves (.ackTimer p) t.timers t'.timers)
    (hd : (t.rt p).destAddr ≠ m.origAddr)
    (hstay : ¬ (MovesAway s m src ∧ (t.rt p).nextHop = m.origAddr)) :
    ((t'.rt p).state = .valid ∧ (t'.timer (.ackTimer p)).used = false ∧ (t'.rt p).hopcnt = 1 ↔
      Near s m src (t'.rt p).destAddr) := by
  obtain ⟨r, hr, hsame⟩ := hnotes.entry p hl
  rw [hrt] at hack ⊢
  rw [Near, if_neg hd, ← hnotes.ack p hl]
  constructor
  · rintro ⟨hv, ha, hhop⟩
    have hused : (t'.timer (.ackTimer p)).used = (t.timer (.ackTimer p)).used :=
      congrArg Timer.used (hack hv).timer
    refine ⟨hused ▸ ha, r, hr, hsame.state.symm.trans hv, hsame.hopcnt.symm.trans hhop, ?_⟩
    rwa [← hsame.nextHop]
  · rintro ⟨ha, r', hr', hv, hhop, -⟩
    rw [hr] at hr'
    cases hr'
    have hv' := hsame.state.trans hv
    have hused : (t'.timer (.ackTimer p)).used = (t.timer (.ackTimer p)).used :=
      congrArg Timer.used (hack hv').timer
    exact ⟨hv', hused.trans ha, hsame.hopcnt.trans hhop⟩

theorem near_found (hnotes : Notes s src t)
    (hkeep : ∀ q, Linked t.rtTbl q → Linked t'.rtTbl q ∧ (t'.rt q).destAddr = (t.rt q).destAddr)
    (hrev : Linked t'.rtTbl rev) (hd : (t'.rt rev).destAddr = m.origAddr) (h : Near s m src d) :
    ∃ n, Linked t'.rtTbl n ∧ (t'.rt n).destAddr = d := by
  by_cases hdo : d = m.origAddr
  · exact ⟨rev, hrev, hd.trans hdo.symm⟩
  · have hnear := h.2
    rw [if_neg hdo] at hnear
    obtain ⟨r, hr, -⟩ := hnear
    obtain ⟨q, hq, rfl⟩ := hnotes.found d r hr
    exact ⟨q, (hkeep q hq).1, (hkeep q hq).2⟩

theorem setUp_insert (hw : WellFormed t) (hip : t.host.ipaddr = s.host.ipaddr)
    (hnotes : Notes s src t) (ha : Absent m.origAddr t)
    (h : rtTableInsert e t m.origAddr src (hops m) m.origSeqno (rreqLife (hops m)) .valid .zero =
      (t', some rev)) : SetUp s m src t' rev := by
  have hacks := acks_insert e hw ha src (hops m) m.origSeqno (rreqLife (hops m)) .valid .zero
  obtain ⟨s₁, heq, hins, hl, hnew, hold⟩ := touches_insert (e := e) hw ha src (hops m) m.origSeqno
    (rreqLife (hops m)) .zero
  rw [heq] at h hacks
  cases h
  have hdest : (t'.rt t.brk).destAddr = m.origAddr := by
    rw [hnew]
    rfl
  have hnone : noted s src m.origAddr = none := by
    cases hn : noted s src m.origAddr with
    | none => rfl
    | some r =>
        obtain ⟨q, hq, hd⟩ := hnotes.found m.origAddr r hn
        exact absurd hd (ha q hq)
  have hstay : ¬ MovesAway s m src := by
    rintro ⟨-, r, hr, -⟩
    rw [hnone] at hr
    cases hr
  have hother (q : Ptr) (hq : Linked t'.rtTbl q) (hne : q ≠ t.brk) :
      Linked t.rtTbl q ∧ t'.rt q = t.rt q := by
    refine hins.others q hq fun hd => hne ?_
    exact hins.sound.wellFormed.table.dests q _ hq hl (hd.trans hdest.symm)
  refine ⟨hins.sound.wellFormed, hins.sound.ipaddr.trans hip, hl, hdest, .inl ⟨hnone, ?_, ?_⟩,
    fun n hn => ?_, fun d => ?_, fun q hq hne hv => ?_⟩
  · rw [hnew]
    rfl
  · rw [hnew]
    rfl
  · by_cases hne : n = t.brk
    · subst n
      rw [hdest, Near, if_pos rfl, hnone, awaitsAck_unknown hnone]
      have hhop : (t'.rt t.brk).hopcnt = 1 ↔ hops m = 1 := by
        rw [hnew]
        exact hops_one
      have hstate : (t'.rt t.brk).state = .valid := by
        rw [hnew]
        rfl
      simp only [hstate, hacks.2, hhop, true_and]
    · obtain ⟨hln, hrt⟩ := hother n hn hne
      exact near_same hnotes hln hrt (fun _ => hacks.1 n hln) (ha n hln) fun h => hstay h.1
  · refine near_found hnotes (fun q hq => ⟨(hold q hq).1, ?_⟩) hl hdest
    rw [(hold q hq).2]
  · obtain ⟨hlq, hrt⟩ := hother q hq hne
    rw [hrt, ← hnotes.ack q hlq]
    obtain ⟨r, hr, hsame⟩ := hnotes.entry q hlq
    exact ⟨r, hr, hsame, congrArg Timer.used (hacks.1 q hlq).timer⟩

theorem setUp_same (hw : WellFormed t) (hip : t.host.ipaddr = s.host.ipaddr)
    (hnotes : Notes s src t) (hc : rtTableCheck t.rtTbl m.origAddr = some p)
    (hold : taken m (t.rt p) = false) : SetUp s m src t p := by
  obtain ⟨hl, hd⟩ := rtTableCheck_some hc
  replace hd : (t.rt p).destAddr = m.origAddr := hd
  obtain ⟨r, hr, hsame⟩ := hnotes.entry p hl
  rw [hd] at hr
  have hold' : taken m r = false := (taken_congr hsame).symm.trans hold
  have hstay : ¬ MovesAway s m src := by
    rintro ⟨-, r', hr', ht, -⟩
    rw [hr] at hr'
    cases hr'
    rw [hold'] at ht
    cases ht
  refine ⟨hw, hip, hl, hd, .inr ⟨((check_iff hw.table).1 hc).1, r, hr, ?_, ?_, hsame.unidir⟩,
    fun n hn => ?_, fun d => near_found hnotes (fun q hq => ⟨hq, rfl⟩) hl hd, fun q hq _ _ => ?_⟩
  · rw [hsame.state, hold']
    simp
  · rw [hsame.nextHop, sentOver, hold']
    rfl
  · by_cases hne : n = p
    · subst n
      rw [hd, Near, if_pos rfl, hr, ← hd, ← hnotes.ack p hl]
      dsimp only
      rw [hold', if_neg Bool.false_ne_true, hsame.state, hsame.hopcnt]
      simp only [← and_assoc, and_comm]
    · refine near_same hnotes hn rfl (fun _ => .refl) (fun hdn => hne ?_) fun h => hstay h.1
      exact hw.table.dests n p hn hl (hdn.trans hd.symm)
  · obtain ⟨r', hr', hsame'⟩ := hnotes.entry q hq
    exact ⟨r', hr', hsame', hnotes.ack q hq⟩

theorem setUp_update (hw : WellFormed t) (hip : t.host.ipaddr = s.host.ipaddr)
    (hnotes : Notes s src t) (hc : rtTableCheck t.rtTbl m.origAddr = some p)
    (hfresh : taken m (t.rt p) = true) :
    SetUp s m src (rtTableUpdate e t p src (hops m) m.origSeqno (rreqLife (hops m)) .valid
      (t.rt p).flags) p := by
  obtain ⟨hl, hd⟩ := rtTableCheck_some hc
  replace hd : (t.rt p).destAddr = m.origAddr := hd
  obtain ⟨r, hr, hsame⟩ := hnotes.entry p hl
  rw [hd] at hr
  have hfresh' : taken m r = true := (taken_congr hsame).symm.trans hfresh
  have hroom := ((check_iff hw.table).1 hc).1
  have haway : MovesAway s m src ↔ 1 < hops m ∧ (t.rt p).hopcnt = 1 := by
    rw [hsame.hopcnt, MovesAway, hr]
    simp [hfresh']
  have hsound := update_sound e hw hl src (hops m) m.origSeqno (rreqLife (hops m)) .valid
    (t.rt p).flags
  have hkeys := HashTable.keys_update (e := e) hl src (hops m) m.origSeqno (rreqLife (hops m)) .valid
    (t.rt p).flags
  have hflags := flags_update e t p src (hops m) m.origSeqno (rreqLife (hops m)) .valid
    (t.rt p).flags
  have hacks (q : Ptr) := leaves_update (e := e) (p := q) hw hl src (hops m) m.origSeqno
    (rreqLife (hops m)) .valid (t.rt p).flags
  have hother (q : Ptr) (hq : Linked t.rtTbl q) (hne : q ≠ p) :=
    update_other (e := e) hw hl hq hne src (hops m) m.origSeqno (rreqLife (hops m)) .valid
      (t.rt p).flags
  obtain ⟨hhop, hnext, -, hstate⟩ := rt_update_self e t p src (hops m) m.origSeqno
    (rreqLife (hops m)) .valid (t.rt p).flags
  generalize rtTableUpdate e t p src (hops m) m.origSeqno (rreqLife (hops m)) .valid
    (t.rt p).flags = t' at hsound hkeys hflags hacks hother hhop hnext hstate
  have hd' : (t'.rt p).destAddr = m.origAddr := (hkeys.destAddr p).trans hd
  have hl' := (hkeys.linked p).2 hl
  refine ⟨hsound.wellFormed, hsound.ipaddr.trans hip, hl', hd', .inr ⟨?_, r, hr, ?_, ?_, ?_⟩,
    fun n hn => ?_, fun d => ?_, fun q hq hne hv => ?_⟩
  · rwa [hkeys.numEntries]
  · exact iff_of_true hstate (.inr hfresh')
  · rw [hnext, sentOver, if_pos hfresh']
  · rw [hflags, hsame.unidir]
  · by_cases hne : n = p
    · subst n
      rw [hd', Near, if_pos rfl, hr, ← hd, ← hnotes.ack p hl]
      dsimp only
      rw [if_pos hfresh', hstate, hhop, hops_one]
      constructor
      · rintro ⟨-, ha, hone⟩
        have hused := (hacks p (.inl fun h => hops_le.1 hone h.1)).timer
        exact ⟨(congrArg Timer.used hused).symm.trans ha, hone⟩
      · rintro ⟨ha, hone⟩
        have hused := (hacks p (.inl fun h => hops_le.1 hone h.1)).timer
        exact ⟨rfl, (congrArg Timer.used hused).trans ha, hone⟩
    · have hln := (hkeys.linked n).1 hn
      have hdn : (t.rt n).destAddr ≠ m.origAddr := fun h =>
        hne (hw.table.dests n p hln hl (h.trans hd.symm))
      obtain ⟨⟨hone, hnear, huse⟩, hi⟩ | ⟨hno, hrt⟩ := hother n hln hne
      · have hdest : (t'.rt n).destAddr = (t.rt n).destAddr := hkeys.destAddr n
        obtain ⟨r', hr', hsame'⟩ := hnotes.entry n hln
        rw [hi, hdest, Near, if_neg hdn]
        refine iff_of_false (fun h => by cases h.1) ?_
        rintro ⟨-, r'', hr'', -, -, hstay⟩
        rw [hr'] at hr''
        cases hr''
        exact hstay ⟨haway.2 ⟨hone, hnear⟩, hsame'.nextHop.symm.trans (huse.trans hd)⟩
      · refine near_same hnotes hln hrt (fun hv => hacks n (.inr ⟨hne, hv⟩)) hdn ?_
        rintro ⟨haw, huse⟩
        exact hno ⟨(haway.1 haw).1, (haway.1 haw).2, huse.trans hd.symm⟩
  · exact near_found hnotes (fun q hq => ⟨(hkeys.linked q).2 hq, hkeys.destAddr q⟩) hl' hd'
  · have hlq := (hkeys.linked q).1 hq
    obtain ⟨-, hi⟩ | ⟨-, hrt⟩ := hother q hlq hne
    · rw [hi] at hv
      cases hv
    · have hack := congrArg Timer.used (hacks q (.inr ⟨hne, hv⟩)).timer
      rw [hrt, ← hnotes.ack q hlq]
      obtain ⟨r', hr', hsame'⟩ := hnotes.entry q hlq
      exact ⟨r', hr', hsame', hack⟩

/-- The reverse route as rreq_process sets it up. -/
theorem setUp_reverse (hw : WellFormed t) (hip : t.host.ipaddr = s.host.ipaddr)
    (hnotes : Notes s src t)
    (h : rreqReverse e t m src = (t', some rev)) : SetUp s m src t' rev := by
  rw [rreqReverse] at h
  dsimp only at h
  cases hc : rtTableCheck t.rtTbl m.origAddr with
  | none =>
      rw [hc] at h
      dsimp only at h
      by_cases ha : Absent m.origAddr t
      · exact setUp_insert hw hip hnotes ha h
      · obtain ⟨q, hq, hd⟩ : ∃ q, Linked t.rtTbl q ∧ (t.rt q).destAddr = m.origAddr := by
          simpa [Absent] using ha
        rw [← hd, insert_present e hw hq] at h
        cases h
  | some p =>
      rw [hc] at h
      dsimp only at h
      split at h
      next hfresh =>
        cases h
        exact setUp_update hw hip hnotes hc hfresh
      next hold =>
        cases h
        exact setUp_same hw hip hnotes hc (Bool.eq_false_iff.2 hold)

namespace SetUp

theorem near_iff (h : SetUp s m src t rev) (hroom : t.rtTbl.numEntries ≠ 0) :
    (∃ n, rtTableCheck t.rtTbl d = some n ∧ (t.rt n).state = .valid ∧
      (t.timer (.ackTimer n)).used = false ∧ (t.rt n).hopcnt = 1) ↔ Near s m src d := by
  constructor
  · rintro ⟨n, hn, hnear⟩
    obtain ⟨-, hl, hd⟩ := (check_iff h.wellFormed.table).1 hn
    rw [← hd]
    exact (h.near n hl).1 hnear
  · intro hd
    obtain ⟨n, hl, rfl⟩ := h.found d hd
    exact ⟨n, (check_iff h.wellFormed.table).2 ⟨hroom, hl, rfl⟩, (h.near n hl).2 hd⟩

theorem breaks (h : SetUp s m src t rev) : breaksLink t rev = true ↔
    ∃ r, noted s src m.origAddr = some r ∧ r.flags.unidir = true ∧
      Near s m src (sentOver m src r) := by
  obtain ⟨hnone, -, hun⟩ | ⟨hroom, r, hr, -, hnext, hun⟩ := h.known
  · rw [breaksLink, hun, Bool.false_and, hnone]
    simp
  · have hnear := h.near_iff (d := sentOver m src r) hroom
    rw [← hnext] at hnear
    rw [breaksLink_marks, hr]
    simp only [marks_iff, hun, Option.some.injEq, exists_eq_left', ← hnext]
    rw [← hnear]
    constructor
    · rintro ⟨n, ⟨hu, hn, hv, ha⟩, hhop⟩
      exact ⟨hu, n, hn, hv, ha, hhop⟩
    · rintro ⟨hu, n, hn, hv, ha, hhop⟩
      exact ⟨n, ⟨hu, hn, hv, ha⟩, hhop⟩

theorem holds_iff (h : SetUp s m src t rev) :
    (t.rt rev).state = .valid ∧ breaksLink t rev = false ↔ Holds s m src := by
  rw [← Bool.not_eq_true, h.breaks]
  obtain ⟨hnone, hv, -⟩ | ⟨-, r, hr, hstate, -, -⟩ := h.known
  · refine iff_of_true ⟨hv, ?_⟩ ⟨?_, ?_⟩
    · rintro ⟨r, hr, -⟩
      rw [hnone] at hr
      cases hr
    · intro r hr
      rw [hnone] at hr
      cases hr
    · intro r hr
      rw [hnone] at hr
      cases hr
  · have hall (P : RtEntry → Prop) : (∀ r', noted s src m.origAddr = some r' → P r') ↔ P r := by
      rw [hr]
      simp
    rw [hstate]
    constructor
    · rintro ⟨hv, hno⟩
      exact ⟨(hall _).2 hv, (hall _).2 fun hu hn => hno ⟨r, hr, hu, hn⟩⟩
    · rintro ⟨hv, hno⟩
      refine ⟨(hall _).1 hv, ?_⟩
      rintro ⟨r', hr', hu, hn⟩
      exact hno r' hr' hu hn

theorem holdsBack_iff (h : SetUp s m src t rev) {f : Ptr} (hf : answersFrom t m = some f)
    (hno : breaksLink t rev = false) : ¬ breaksNext t rev f ↔ HoldsBack s m src := by
  obtain ⟨hc, hv, -⟩ := answersFrom_some.1 hf
  obtain ⟨hroom, hl, hd⟩ := (check_iff h.wellFormed.table).1 hc
  replace hd : (t.rt f).destAddr = m.destAddr := hd
  rw [breaksNext, h.near_iff hroom, HoldsBack]
  by_cases hself : m.destAddr = m.origAddr
  · refine iff_of_true ?_ (.inl hself)
    have hrev : f = rev := h.wellFormed.table.dests f rev hl h.linked
      (hd.trans (hself.trans h.dest.symm))
    subst f
    rintro ⟨hu, hnear⟩
    have hu' : (t.rt rev).flags.unidir = true := hu.elim id fun hm => (marks_iff.1 hm).1
    obtain ⟨n, hn, hvn, ha, hhop⟩ := (h.near_iff hroom).2 hnear
    rw [breaksLink_marks.2 ⟨n, marks_iff.2 ⟨hu', hn, hvn, ha⟩, hhop⟩] at hno
    cases hno
  · have hne : f ≠ rev := by
      rintro rfl
      exact hself (hd.symm.trans h.dest)
    obtain ⟨r, hr, hsame, hack⟩ := h.other f hl hne hv
    rw [hd] at hr hack
    have hmarks : marks t rev f = true ↔ awaitsAck s m.destAddr = false ∧
        ∃ r', noted s src m.origAddr = some r' ∧ r'.flags.unidir = true ∧
          sentOver m src r' = m.destAddr := by
      rw [marks_iff, check_iff h.wellFormed.table, hack]
      obtain ⟨hnone, -, hun⟩ | ⟨-, r', hr', -, hnext, hun⟩ := h.known
      · rw [hun, hnone]
        simp
      · rw [hr', hnext, hun]
        simp only [Option.some.injEq, exists_eq_left', hl, hv, hroom, true_and, ne_eq,
          not_false_eq_true]
        change _ ∧ (t.rt f).destAddr = _ ∧ _ ↔ _
        rw [hd]
        constructor
        · rintro ⟨hu, hover, ha⟩
          exact ⟨ha, hu, hover.symm⟩
        · rintro ⟨ha, hu, hover⟩
          exact ⟨hu, hover.symm, ha⟩
    rw [hmarks, hsame.unidir, hsame.nextHop, hr]
    simp only [hself, false_or, Option.some.injEq, forall_eq', Unidir, not_and]

end SetUp

theorem SetUp.replies_follow (h : SetUp s m src t rev) :
    (∀ c ∈ (acceptedCalls e t m rev).head?,
      Follows (c.handed e) c.rrep.origAddr (c.dest e) ↔ Holds s m src) ∧
      (Holds s m src → ∀ c ∈ (acceptedCalls e t m rev).tail,
        Follows (c.handed e) c.rrep.origAddr (c.dest e) ↔ HoldsBack s m src) := by
  have hsound := sound_accepted (e := e) h.wellFormed h.linked m
  have hsame {c : SendCall} (htbl : c.s.rtTbl = t.rtTbl) (htimers : c.s.timers = t.timers)
      (hrev : c.rev = rev) (hc : c.Sound) :
      Follows (c.handed e) c.rrep.origAddr (c.dest e) ↔ Holds s m src := by
    have hack (n : Ptr) : (c.s.timer (.ackTimer n)).used = (t.timer (.ackTimer n)).used := by
      rw [Daemon.timer, htimers]
      rfl
    rw [send_follows hc, ← h.holds_iff, hrev, breaksLink_congr htbl hack, Daemon.rt, htbl]
    rfl
  by_cases hown : m.destAddr = t.host.ipaddr
  · have hcalls : acceptedCalls e t m rev = [forUsCall t m rev] := by
      rw [acceptedCalls, if_pos hown]
    rw [hcalls] at hsound ⊢
    refine ⟨fun c hc => ?_, fun _ c hc => absurd hc List.not_mem_nil⟩
    cases hc
    exact hsame rfl rfl rfl (hsound _ List.mem_cons_self)
  · rw [accepted_answers hown] at hsound ⊢
    cases ha : answersFrom t m with
    | none =>
        refine ⟨fun c hc => ?_, fun _ c hc => absurd hc List.not_mem_nil⟩
        cases hc
    | some f =>
        rw [ha] at hsound
        dsimp only at hsound ⊢
        rw [answerCalls] at hsound ⊢
        have hfirst := hsound _ List.mem_cons_self
        have hreply : Follows ((answerCall e t.tock rev f (e.clock t.tick)).handed e) _ _ ↔
            Holds s m src := hsame rfl rfl rfl hfirst
        refine ⟨fun c hc => ?_, fun hholds c hc => ?_⟩
        · cases hc
          exact hreply
        · rw [List.tail_cons] at hc
          split at hc
          next hg =>
            rw [if_pos hg] at hsound
            have hsnd := hsound _ (List.mem_cons_of_mem _ List.mem_cons_self)
            obtain ⟨hcheck, hv, -⟩ := answersFrom_some.1 ha
            obtain ⟨hvalid, hno⟩ := h.holds_iff.2 hholds
            have hreplied := replied_second (e := e) ((Kept.tock t).wellFormed h.wellFormed) h.linked
              (rtTableCheck_some hcheck).1 hvalid hno (e.clock t.tick)
            have hbreaks := breaks_replied (f := f) hreplied hno
            change _ ↔ breaksNext t rev f at hbreaks
            rw [List.mem_singleton.1 hc, send_follows hsnd, ← h.holdsBack_iff ha hno, ← hbreaks,
              Bool.not_eq_true]
            exact and_iff_right ((hreplied.untouched f).valid hv)
          · exact absurd hc List.not_mem_nil

theorem notes_congr (h : Notes s src t) (htbl : t'.rtTbl = t.rtTbl)
    (hack : ∀ n, (t'.timer (.ackTimer n)).used = (t.timer (.ackTimer n)).used) :
    Notes s src t' := by
  have hrt (q : Ptr) : t'.rt q = t.rt q := by simp only [Daemon.rt, htbl]
  refine ⟨fun q hq => ?_, fun q hq => ?_, fun d r hd => ?_, fun q hq => ?_⟩
  · rw [htbl, hrt]
    exact h.kept q hq
  · rw [htbl] at hq
    rw [hrt]
    exact h.entry q hq
  · obtain ⟨q, hq, hdest⟩ := h.found d r hd
    refine ⟨q, ?_, ?_⟩
    · rwa [htbl]
    · rwa [hrt]
  · rw [htbl] at hq
    rw [hack, hrt]
    exact h.ack q hq

theorem calls_refused (ht : pkt.buf 0 = aodvRreq) (h : ¬ Accepts s pkt) :
    rreqCalls e s pkt.buf pkt.len pkt.src = [] := by
  rw [rreqCalls]
  dsimp only
  split
  · rfl
  next horig =>
    split
    · rfl
    next hlen =>
      split
      · rfl
      next hbl =>
        split
        · rfl
        next hrec =>
          refine absurd ⟨ht, horig, Nat.le_of_not_lt hlen, ?_, ?_⟩ h
          · simpa using hbl
          · simpa using hrec

theorem sendCalls_setUp (hs : WellFormed s) : sendCalls e s pkt = [] ∨
    ∃ t rev, SetUp s (rreqOf pkt.buf) pkt.src t rev ∧
      sendCalls e s pkt = acceptedCalls e t (rreqOf pkt.buf) rev := by
  rw [sendCalls]
  split
  next h =>
    by_cases hacc : Accepts (neighborAdd e s pkt.src) pkt
    · have hne := (received_iff.1 h.1).2
      have hsound := coarses_sound (coarses_neighborAdd (e := e) (s := s)
        (rfl : Event.recv pkt = _) hne) hs
      obtain ⟨htbl, hhost, -, hack⟩ := recorded_frame (e := e) hacc
      have hnotes := notes_congr (notes_neighborAdd e hs pkt.src) htbl hack
      have hw := wellFormed_recorded e pkt hsound.wellFormed
      have hip : (recorded e (neighborAdd e s pkt.src) pkt).host.ipaddr = s.host.ipaddr := by
        rw [hhost, hsound.ipaddr]
      rw [calls_accepted hacc]
      obtain ⟨t, o, hrev⟩ : ∃ t o, rreqReverse e (recorded e (neighborAdd e s pkt.src) pkt)
          (rreqOf pkt.buf) pkt.src = (t, o) := ⟨_, _, rfl⟩
      rw [hrev]
      cases o with
      | none => exact .inl rfl
      | some rev => exact .inr ⟨t, rev, setUp_reverse hw hip hnotes hrev, rfl⟩
    · exact .inl (calls_refused h.2 hacc)
  · exact .inl rfl

/-- The RREPs that an RREQ or an RREP leads to, and when they follow VALID routes, told
by the table and the RREQ before the event: a forwarded RREP always does, the reply to an
RREQ if and only if the route to the originator holds, and the second RREP of an RREQ
with the g flag, after a reply that does, if and only if the route to the destination
holds too. -/
theorem rreps_follow_routes (h : Reachable e s) (pkt : Packet)
    (ht : pkt.buf 0 = aodvRreq ∨ pkt.buf 0 = aodvRrep) :
    rreps (step e s (.recv pkt)) = (forwardCalls e s pkt).map (ForwardCall.said e) ++
        (((sendCalls e s pkt).map (SendCall.said e)).reverse ++ rreps s) ∧
      (∀ c ∈ forwardCalls e s pkt,
        Follows (c.handed e) (rrepOf (c.bytes e)).origAddr (c.dest e)) ∧
      (∀ c ∈ (sendCalls e s pkt).head?, Follows (c.handed e) c.rrep.origAddr (c.dest e) ↔
        Holds s (rreqOf pkt.buf) pkt.src) ∧
      (Holds s (rreqOf pkt.buf) pkt.src → ∀ c ∈ (sendCalls e s pkt).tail,
        Follows (c.handed e) c.rrep.origAddr (c.dest e) ↔
          HoldsBack s (rreqOf pkt.buf) pkt.src) := by
  have hs := (Reachable.resting h).wellFormed
  refine ⟨rreps_step hs ht, fun c hc => forward_follows (sound_forwardCalls hs c hc), ?_⟩
  have hcases : sendCalls e s pkt = [] ∨ _ := sendCalls_setUp hs
  obtain hnone | ⟨t, rev, hset, hcalls⟩ := hcases
  · rw [hnone]
    refine ⟨fun c hc => ?_, fun _ c hc => absurd hc List.not_mem_nil⟩
    cases hc
  · rw [hcalls]
    exact hset.replies_follow

end Reverse

def rreqGratuitous : Packet :=
  .of (.rreq ⟨false, false, true, false, false, 1, 2, 0x0400000a, 3, 0x0300000a, 5⟩) 0x0500000a
    aodvBroadcast 5 (fits_rreq _)

def rreqBefore : Packet :=
  .of (.rreq ⟨false, false, false, false, false, 1, 1, 0x0100000a, 0, 0x0400000a, 5⟩) 0x0200000a
    aodvBroadcast 5 (fits_rreq _)

def between : Daemon := run plain fresh [.recv rreqBefore]

theorem rreps_follow_routes_between : (sendCalls plain between rreqGratuitous).length = 2 ∧
    ∀ c ∈ sendCalls plain between rreqGratuitous,
      Follows (c.handed plain) c.rrep.origAddr (c.dest plain) := by
  have hlen : (sendCalls plain between rreqGratuitous).length = 2 := by decide +kernel
  have hread : (rreqOf rreqGratuitous.buf).origAddr = 0x0300000a ∧
      (rreqOf rreqGratuitous.buf).destAddr = 0x0400000a := by decide +kernel
  obtain ⟨hnone, hsome⟩ : noted between 0x0500000a 0x0300000a = none ∧
      (noted between 0x0500000a 0x0400000a).map (fun r => r.flags.unidir) = some false := by
    decide +kernel
  have hholds : Holds between (rreqOf rreqGratuitous.buf) 0x0500000a := by
    constructor
    all_goals
      intro r hr
      rw [hread.1, hnone] at hr
      cases hr
  have hback : HoldsBack between (rreqOf rreqGratuitous.buf) 0x0500000a := by
    refine .inr fun r hr hu => ?_
    rw [hread.2] at hr
    rw [hr, Option.map_some, Option.some.injEq] at hsome
    obtain hu | ⟨-, r', hr', -⟩ := hu
    · rw [hsome] at hu
      cases hu
    · rw [hread.1, hnone] at hr'
      cases hr'
  have hreach : Reachable plain between := ⟨0x0100000a, 0xff00000a, 2, _, rfl⟩
  obtain ⟨-, -, hfirst, hsecond⟩ := rreps_follow_routes hreach rreqGratuitous
    (.inl (by decide +kernel))
  refine ⟨hlen, fun c hc => ?_⟩
  cases hcalls : sendCalls plain between rreqGratuitous with
  | nil =>
      rw [hcalls] at hc
      exact absurd hc List.not_mem_nil
  | cons first rest =>
      rw [hcalls] at hc hfirst hsecond
      rcases List.mem_cons.1 hc with rfl | hc
      · exact (hfirst _ rfl).2 hholds
      · exact (hsecond hholds c hc).2 hback

def expired : Daemon := run plain fresh [.recv (rreqVia 1 5), .fire (.rtTimer 2)]

/-- A second RREQ with the old number is answered over the INVALID entry. -/
theorem stale_rreq_answered : ¬ ∀ (e : Env) (s : Daemon) (pkt : Packet), Reachable e s →
    (pkt.buf 0 = aodvRreq ∨ pkt.buf 0 = aodvRrep) →
    ∀ c ∈ sendCalls e s pkt, Follows (c.handed e) c.rrep.origAddr (c.dest e) := by
  intro hall
  have hreach : Reachable plain expired := ⟨0x0100000a, 0xff00000a, 2, _, rfl⟩
  have hsee : (sendCalls plain expired (rreqVia 2 5)).map (fun c => (c.s.rt c.rev).state) =
      [.invalid] := by decide +kernel
  have hvalid : ∀ v ∈ (sendCalls plain expired (rreqVia 2 5)).map (fun c => (c.s.rt c.rev).state),
      v = .valid := by
    intro v hv
    obtain ⟨c, hc, rfl⟩ := List.mem_map.1 hv
    have hsound := sound_sendCalls (Reachable.resting hreach).wellFormed c hc
    exact ((send_follows hsound).1 (hall plain expired _ hreach (.inl (by decide +kernel)) c hc)).1
  rw [hsee] at hvalid
  cases hvalid .invalid List.mem_cons_self

end Aodv.ReverseRoute
