import Aodv.Relays
import Aodv.RreqOutcome
import Aodv.StoredSeqno

namespace Aodv.RouteBack

open Lib.Bytes Requests HashTable Heard
open Relation

/-- A copy of the RREQ m that has made so many hops. The number asked for may have
been raised on the way. -/
def CopyOf (m : RREQ) (hops : U8) (m' : RREQ) : Prop :=
  ∃ seqno, BitVec.sle m.destSeqno seqno = true ∧ m' = { m with hopcnt := hops, destSeqno := seqno }

structure Copy (m : RREQ) (hops ttl : U8) (pkt : Packet) : Prop where
  ttl : pkt.ttl = some ttl
  type : pkt.buf 0 = aodvRreq
  length : rreqSize ≤ pkt.len
  read : CopyOf m hops (rreqOf pkt.buf)

def Older (r : RtEntry) (seqno : U32) : Prop :=
  r.destSeqno = 0 ∨ BitVec.slt r.destSeqno seqno = true

/-- The node takes the RREQ from src for a new one, knows no newer number of its
originator, and cannot answer it from its table. -/
structure Awaits (s : Daemon) (m : RREQ) (src : Addr) : Prop where
  blacklist : rreqBlacklistCheck s src = none
  new : rreqRecordCheck s m.origAddr m.rreqId = none
  room : (entries s.rtTbl).length + 2 < 2 ^ 32
  older : ∀ p, Linked s.rtTbl p → (s.rt p).destAddr = m.origAddr → Older (s.rt p) m.origSeqno
  twoWay : m.destAddr = s.host.ipaddr → ∀ p, Linked s.rtTbl p →
    (s.rt p).destAddr = m.origAddr → (s.rt p).flags.unidir = false
  unanswered : m.destAddr ≠ s.host.ipaddr → m.d = true ∨ ∀ p, Linked s.rtTbl p →
    (s.rt p).destAddr = m.destAddr → (s.rt p).state = .valid → Older (s.rt p) m.destSeqno

section Limiter

variable {e : Env} {s s' : Daemon}

theorem limiter_send (e : Env) {s : Daemon} (ht : s.sendBuf 0 = aodvRerr) (msg : Msg) (dest : Addr)
    (len ttl : Int) : (aodvSocketSend e s msg dest len ttl).rreqRatelimit = s.rreqRatelimit := by
  have hkept (o : Outcome) :
      (transmit e s dest len.toNat o).rreqRatelimit = o.rreqRatelimit := by
    rw [transmit]
    dsimp only
    split <;> rfl
  have hkind : ¬ aodvRerr = aodvRrep ∧ ¬ aodvRerr = aodvRreq := by decide
  change (sendOutcome e s dest len.toNat).rreqRatelimit = _
  rw [sendOutcome]
  dsimp only
  rw [ht, if_neg fun h => hkind.1 h.2, if_neg hkind.2, if_pos rfl]
  split
  · rfl
  · split
    · exact hkept _
    · split
      · rfl
      · exact hkept _

theorem limiter_lb (h : Lb e s s') : s'.rreqRatelimit = s.rreqRatelimit := by
  have hdown (s : Daemon) (p : Ptr) :
      (rtTableInvalidate e s p).rreqRatelimit = s.rreqRatelimit := by
    rw [rtTableInvalidate]
    dsimp only
    split <;> rfl
  cases h with
  | tock | destroy | rerrNew | rerrAdd => rfl
  | down => exact hdown s _
  | @repair p => exact hdown (markRepair s p) p
  | rerrSend m dest len ht => exact limiter_send e ht _ _ _ _

theorem limiter_lbs (h : ReflTransGen (Lb e) s s') : s'.rreqRatelimit = s.rreqRatelimit := by
  induction h with
  | refl => rfl
  | tail _ h ih => exact (limiter_lb h).trans ih

theorem limiter_update (e : Env) {s : Daemon} {p : Ptr} (hp : Linked s.rtTbl p) (next : Addr)
    (hops seqno lifetime : U32) (state : RtState) (flags : RtFlags) :
    (rtTableUpdate e s p next hops seqno lifetime state flags).rreqRatelimit =
      s.rreqRatelimit := by
  have hbreak (s : Daemon) (hp : Linked s.rtTbl p) :
      (updateBreak e s p hops).rreqRatelimit = s.rreqRatelimit := by
    rw [updateBreak]
    dsimp only
    split
    · let s₁ := s.setRt p { s.rt p with lastHelloTime := ⟨0, 0⟩, helloCnt := 0 }
      exact (limiter_lbs (lb_linkBreak e (s := pop s₁ (.helloTimer p)) hp)).trans rfl
    · rfl
  have hobs := Kept.observe s (.rtUpdate p (s.rt p) next hops seqno lifetime state flags)
  have hbegin := hobs.trans (kept_updateBegin e _ p next hops lifetime state flags)
  rw [rtTableUpdate, limiter_updateFinish]
  exact (hbreak _ ((hbegin.keys.linked p).2 hp)).trans (limiter_updateBegin e _ p _ _ _ _ _)

end Limiter

structure Spares (d : Addr) (s s' : Daemon) : Prop where
  wellFormed : WellFormed s'
  ipaddr : s'.host.ipaddr = s.host.ipaddr
  limiter : s'.rreqRatelimit = s.rreqRatelimit
  tick : s.tick ≤ s'.tick
  others : ∀ q, Linked s'.rtTbl q → (s'.rt q).destAddr ≠ d → (s'.rt q).state = .valid →
    ∃ p, Linked s.rtTbl p ∧ (s.rt p).destAddr = (s'.rt q).destAddr ∧ (s.rt p).state = .valid ∧
      (s.rt p).destSeqno = (s'.rt q).destSeqno

section Heard

variable {e : Env} {s s' : Daemon} {m : RREQ} {d : Addr} {hops ttl : U8} {pkt : Packet}
  {p rev : Ptr}

theorem spares_touches (h : Touches d s s') : Spares d s s' := by
  refine ⟨h.sound.wellFormed, h.sound.ipaddr, h.limiter, h.books.tick, fun q hq hd hv => ?_⟩
  obtain ⟨hl, hr⟩ := h.others q hq hd
  rw [hr] at hv ⊢
  exact ⟨q, hl, rfl, hv, rfl⟩

theorem spares_update (e : Env) (hs : WellFormed s) (hp : Linked s.rtTbl p) (next : Addr)
    (hops seqno lifetime : U32) (flags : RtFlags) :
    Spares (s.rt p).destAddr s (rtTableUpdate e s p next hops seqno lifetime .valid flags) := by
  have hsound := update_sound e hs hp next hops seqno lifetime .valid flags
  have hkeys := keys_update (e := e) hp next hops seqno lifetime .valid flags
  refine ⟨hsound.wellFormed, hsound.ipaddr, limiter_update e hp next hops seqno lifetime .valid flags,
    (Frames.Books.update hp next hops seqno lifetime .valid flags).tick, fun q hq hd hv => ?_⟩
  have hdest := hkeys.destAddr q
  have hqp : q ≠ p := by
    rintro rfl
    exact hd hdest
  obtain ⟨hn, hi⟩ | ⟨-, hi, -⟩ :=
    StoredSeqno.Drifted.update (e := e) hs hp hqp next hops seqno lifetime .valid flags
  · refine ⟨q, (hkeys.linked q).1 hq, hdest.symm, ?_, hn.symm⟩
    cases hold : (s.rt q).state with
    | valid => rfl
    | invalid =>
        rw [hi hold] at hv
        cases hv
  · rw [hi] at hv
    cases hv

theorem not_full {t : RoutingTable} {n : Nat} (h : (entries t).length + n < 2 ^ 32) : ¬ Full t := by
  intro hf
  rw [Full] at hf
  omega

theorem reverse_route (e : Env) (hs : WellFormed s) (hfull : ¬ Full s.rtTbl) (m : RREQ) (src : Addr)
    (hy : ∀ p, Linked s.rtTbl p → (s.rt p).destAddr = m.origAddr → Older (s.rt p) m.origSeqno) :
    ∃ s' rev, rreqReverse e s m src = (s', some rev) ∧ Spares m.origAddr s s' ∧
      Linked s'.rtTbl rev ∧ IsRoute (s'.rt rev) m.origAddr src (m.hopcnt + 1) m.origSeqno ∧
      ((∀ p, Linked s.rtTbl p → (s.rt p).destAddr = m.origAddr → (s.rt p).flags.unidir = false) →
        (s'.rt rev).flags.unidir = false) := by
  rw [rreqReverse, ← Mesh.hops_byte]
  dsimp only
  cases hc : rtTableCheck s.rtTbl m.origAddr with
  | none =>
      have habsent : Absent m.origAddr s := by
        intro q hq hd
        rw [(rtTableCheck_eq_some hs.table hfull).2 ⟨hq, hd⟩] at hc
        cases hc
      obtain ⟨s₁, heq, hins, hl, hnew, -⟩ := touches_insert (e := e) hs habsent src
        (m.hopcnt.setWidth 32 + 1) m.origSeqno (rreqLife (m.hopcnt.setWidth 32 + 1)) .zero
      refine ⟨s₁, s.brk, heq, spares_touches hins, hl, ?_, fun _ => ?_⟩
      · rw [hnew]
        exact ⟨rfl, rfl, rfl, rfl, rfl⟩
      · rw [hnew]
        rfl
  | some p =>
      obtain ⟨hl, hd⟩ := rtTableCheck_some hc
      replace hd : (s.rt p).destAddr = m.origAddr := hd
      have hfresh : rreqFresher (s.rt p) m.origSeqno (m.hopcnt.setWidth 32 + 1) = true := by
        rw [rreqFresher, Bool.or_eq_true, Bool.or_eq_true, decide_eq_true_eq]
        exact .inl (hy p hl hd)
      have hspare := spares_update e hs hl src (m.hopcnt.setWidth 32 + 1) m.origSeqno
        (rreqLife (m.hopcnt.setWidth 32 + 1)) (s.rt p).flags
      have hkeys := keys_update (e := e) hl src (m.hopcnt.setWidth 32 + 1) m.origSeqno
        (rreqLife (m.hopcnt.setWidth 32 + 1)) .valid (s.rt p).flags
      obtain ⟨hhops, hnext, hseqno, hstate⟩ := rt_update_self e s p src
        (m.hopcnt.setWidth 32 + 1) m.origSeqno (rreqLife (m.hopcnt.setWidth 32 + 1)) .valid
        (s.rt p).flags
      rw [hd] at hspare
      dsimp only
      rw [if_pos hfresh]
      refine ⟨_, p, rfl, hspare, (hkeys.linked p).2 hl,
        ⟨hstate, (hkeys.destAddr p).trans hd, hnext, hhops, hseqno⟩, fun htwo => ?_⟩
      rw [flags_update]
      exact htwo p hl hd

theorem Awaits.heard (e : Env) (hs : WellFormed s) (src : Addr) (h : Awaits s m src) :
    Touches src s (neighborAdd e s src) ∧ ¬ Full (neighborAdd e s src).rtTbl ∧
      rreqBlacklistCheck (neighborAdd e s src) src = none ∧
      rreqRecordCheck (neighborAdd e s src) m.origAddr m.rreqId = none ∧
      ∀ p, Linked (neighborAdd e s src).rtTbl p →
        ((neighborAdd e s src).rt p).destAddr = m.origAddr →
          Older ((neighborAdd e s src).rt p) m.origSeqno ∧
            (m.destAddr = s.host.ipaddr → ((neighborAdd e s src).rt p).flags.unidir = false) := by
  obtain ⟨ht, hi⟩ := touches_neighborAdd e hs (not_full h.room) src
  have hsize := ht.size
  have hroom := h.room
  refine ⟨ht, not_full (n := 1) (by omega), ?_, ?_, fun p hp hd => ?_⟩
  · rw [rreqBlacklistCheck, ht.books.blacklists]
    exact h.blacklist
  · rw [rreqRecordCheck, ht.books.records]
    exact h.new
  · by_cases hsrc : m.origAddr = src
    · rcases hi p hp (hd.trans hsrc) with ⟨hzero, htwo⟩ | ⟨q, hq, hqd, hseqno, hflags⟩
      · exact ⟨.inl hzero, fun _ => htwo⟩
      · rw [Older, hseqno, hflags]
        exact ⟨h.older q hq (hqd.trans hsrc.symm),
          fun hus => h.twoWay hus q hq (hqd.trans hsrc.symm)⟩
    · have hne : ((neighborAdd e s src).rt p).destAddr ≠ src := by rwa [hd]
      obtain ⟨hl, hr⟩ := ht.others p hp hne
      rw [hr] at hd ⊢
      exact ⟨h.older p hl hd, fun hus => h.twoWay hus p hl hd⟩

theorem recorded_limiter (h : Accepts s pkt) :
    (recorded e s pkt).rreqRatelimit = s.rreqRatelimit ∧ s.tick ≤ (recorded e s pkt).tick := by
  have hnew : rreqRecordCheck (s.observe (.rreqAccepted (rreqOf pkt.buf) pkt.src))
      (rreqOf pkt.buf).origAddr (rreqOf pkt.buf).rreqId = none := h.new
  rw [recorded, rreqRecordInsert, hnew]
  exact ⟨rfl, Nat.le_succ _⟩

/-- The state in which the node looks the destination up. -/
structure Reversed (s : Daemon) (m : RREQ) (src : Addr) (hops : U8) (s' : Daemon) (rev : Ptr) :
    Prop where
  wellFormed : WellFormed s'
  ipaddr : s'.host.ipaddr = s.host.ipaddr
  linked : Linked s'.rtTbl rev
  route : IsRoute (s'.rt rev) m.origAddr src (hops + 1) m.origSeqno
  twoWay : m.destAddr = s.host.ipaddr → (s'.rt rev).flags.unidir = false
  limiter : s'.rreqRatelimit = s.rreqRatelimit
  tick : s.tick ≤ s'.tick
  unanswered : m.destAddr ≠ s.host.ipaddr → m.d = true ∨ ∀ p, Linked s'.rtTbl p →
    (s'.rt p).destAddr = m.destAddr → (s'.rt p).state = .valid → Older (s'.rt p) m.destSeqno

theorem read_copy (e : Env) (hs : WellFormed s) (hc : Copy m hops ttl pkt)
    (hsrc : pkt.src ≠ s.host.ipaddr) (horig : m.origAddr ≠ s.host.ipaddr)
    (hdorig : m.destAddr ≠ m.origAddr) (hdsrc : m.destAddr ≠ pkt.src) (ha : Awaits s m pkt.src) :
    ∃ s' rev, step e s (.recv pkt) = rest e s' pkt rev ttl.toNat ∧
      Reversed s m pkt.src hops s' rev := by
  obtain ⟨seqno, -, hread⟩ := hc.read
  obtain ⟨ht, hfull, hblack, hnew, holder⟩ := ha.heard e hs pkt.src
  have hip : (neighborAdd e s pkt.src).host.ipaddr = s.host.ipaddr := ht.sound.ipaddr
  have hacc : Accepts (neighborAdd e s pkt.src) pkt := by
    refine ⟨hc.type, ?_, hc.length, hblack, ?_⟩
    · rw [hread, hip]
      exact horig
    · rw [hread]
      exact hnew
  have hstep := step_rreq (e := e) hc.ttl hsrc hc.type
  obtain ⟨htbl, hhost, -, -⟩ := recorded_frame (e := e) hacc
  have hw := wellFormed_recorded e pkt ht.sound.wellFormed
  have hlim := recorded_limiter (e := e) hacc
  rw [ht.limiter] at hlim
  generalize hrec : recorded e (neighborAdd e s pkt.src) pkt = s₂ at htbl hhost hw hlim
  have hrt (q : Ptr) : s₂.rt q = (neighborAdd e s pkt.src).rt q := by simp only [Daemon.rt, htbl]
  have holder' (p : Ptr) (hp : Linked s₂.rtTbl p)
      (hd : (s₂.rt p).destAddr = (rreqOf pkt.buf).origAddr) :
      Older (s₂.rt p) (rreqOf pkt.buf).origSeqno ∧
        (m.destAddr = s.host.ipaddr → (s₂.rt p).flags.unidir = false) := by
    rw [hread, hrt] at hd ⊢
    rw [htbl] at hp
    exact holder p hp hd
  obtain ⟨s', rev, heq, hspare, hl, hroute, htwo⟩ := reverse_route e hw (by rwa [htbl])
    (rreqOf pkt.buf) pkt.src fun p hp hd => (holder' p hp hd).1
  rw [hread] at hspare hroute
  refine ⟨s', rev, ?_, hspare.wellFormed, ?_, hl, hroute,
    fun hus => htwo fun p hp hd => (holder' p hp hd).2 hus, hspare.limiter.trans hlim.1,
    (ht.books.tick.trans hlim.2).trans hspare.tick, fun hne => ?_⟩
  · rw [hstep, process_accepted hacc, hrec, heq]
  · rw [hspare.ipaddr, hhost, hip]
  · refine (ha.unanswered hne).imp_right fun hall p hp hd hv => ?_
    obtain ⟨q, hq, hqd, hqv, hn⟩ := hspare.others p hp (by rw [hd]; exact hdorig) hv
    rw [hd] at hqd
    rw [hrt] at hqd hqv hn
    rw [htbl] at hq
    obtain ⟨hl₁, hr₁⟩ := ht.others q hq (by rw [hqd]; exact hdsrc)
    rw [hr₁] at hqd hqv hn
    rw [Older, ← hn]
    exact hall q hl₁ hqd hqv

theorem Reversed.no_answer {src : Addr} (h : Reversed s m src hops s' rev)
    (hne : m.destAddr ≠ s.host.ipaddr) {m' : RREQ} (hm : CopyOf m hops m') :
    answersFrom s' m' = none := by
  obtain ⟨seqno, hle, rfl⟩ := hm
  rw [Option.eq_none_iff_forall_ne_some]
  intro f hf
  obtain ⟨hc, hv, hd, hknown, hnew⟩ := answersFrom_some.1 hf
  obtain ⟨hl, hdest⟩ := rtTableCheck_some hc
  rcases h.unanswered hne with hyes | hall
  · rw [hyes] at hd
    cases hd
  · obtain hzero | hlt := hall f hl hdest hv
    · exact hknown hzero
    · rw [BitVec.sle, decide_eq_true_eq] at hle hnew
      rw [BitVec.slt, decide_eq_true_eq] at hlt
      exact absurd (Int.le_trans hle hnew) (Int.not_le.2 hlt)

theorem route_passes (h : answersFrom s m = none) (e : Env) (buf : Buf) (len : Nat) (rev : Ptr)
    (ttl : Int) : ∃ s₁, (s₁ = s ∨ s₁ = s.tock) ∧ rreqRoute e s buf len m rev ttl =
      if 1 < ttl then
        rreqForward e s₁ (RreqOutcome.passOnBuf s₁ buf m (rtTableCheck s.rtTbl m.destAddr)) len
        (ttl - 1)
      else s₁ := by
  rw [rreqRoute]
  dsimp only
  cases hc : rtTableCheck s.rtTbl m.destAddr with
  | none => exact ⟨s, .inl rfl, rfl⟩
  | some f =>
      dsimp only
      split
      next hv =>
        rw [if_neg]
        · exact ⟨s.tock, .inr rfl, rfl⟩
        · intro hq
          rw [answersFrom_some.2 ⟨hc, hv.1, hv.2, hq⟩] at h
          cases h
      · exact ⟨s, .inl rfl, rfl⟩

theorem Reversed.stays {src : Addr} (h : Reversed s m src hops s' rev) (e : Env)
    (hm : CopyOf m hops (rreqOf pkt.buf)) (ttl : Int) :
    Linked (rest e s' pkt rev ttl).rtTbl rev ∧
      IsRoute ((rest e s' pkt rev ttl).rt rev) m.origAddr src (hops + 1) m.origSeqno := by
  have ⟨seqno, _, hread⟩ := hm
  by_cases hus : m.destAddr = s.host.ipaddr
  · have hkeep := rest_untouched (e := e) pkt h.wellFormed h.linked h.route.state ttl
    have hdown : ¬ takesDown s' (rreqOf pkt.buf) rev := by
      rw [takesDown, if_pos (by rw [hread, h.ipaddr]; exact hus), breaksLink, h.twoWay hus,
        Bool.false_and]
      exact Bool.false_ne_true
    obtain ⟨hd, -⟩ | ⟨-, hsame⟩ := hkeep
    · exact absurd hd hdown
    have hkept : Kept (forUsCall s' (rreqOf pkt.buf) rev).s (rest e s' pkt rev ttl) := by
      rw [rest, if_pos (by rw [hread, h.ipaddr]; exact hus), rreqForUs_eq]
      exact kept_after _
    refine ⟨(hkept.keys.linked rev).2 h.linked, hsame.state.trans h.route.state,
      (hkept.keys.destAddr rev).trans h.route.dest, hsame.nextHop.trans h.route.next,
      hsame.hopcnt.trans h.route.hops, hsame.destSeqno.trans h.route.seqno⟩
  · have htbl : (rest e s' pkt rev ttl).rtTbl = s'.rtTbl := by
      rw [rest, if_neg (by rw [hread, h.ipaddr]; exact hus)]
      obtain ⟨s₁, hs₁, heq⟩ := route_passes (h.no_answer hus hm) e pkt.buf pkt.len rev ttl
      rw [heq]
      rcases hs₁ with rfl | rfl
      · split <;> rfl
      · split <;> rfl
    have hrt : (rest e s' pkt rev ttl).rt rev = s'.rt rev := by simp only [Daemon.rt, htbl]
    rw [htbl, hrt]
    exact ⟨h.linked, h.route⟩

end Heard

def Transmits (e : Env) : Prop := ∀ n, e.setsockopt n = true ∧ e.sendto n = true

def Uncongested (e : Env) (s : Daemon) : Prop :=
  e.ratelimit = true → ∀ n, s.tick ≤ n →
    limit e.arch rreqRatelimitMax (e.clock n) s.rreqRatelimit ≠ none

def Offers (m : RREQ) (hops : U8) (ttl : Int) (s : Daemon) : Prop :=
  ∃ msg len bytes, .socketSend msg aodvBroadcast len ttl (some bytes) ∈ s.trace ∧
    rreqSize ≤ bytes.length ∧ ∀ buf, ReceivedBytes.Received (bytes.take receBufSize) buf →
      buf 0 = aodvRreq ∧ CopyOf m hops (rreqOf buf)

section Sends

variable {e : Env} {s s' : Daemon} {m : RREQ} {hops ttl : U8} {pkt : Packet} {rev : Ptr}

theorem transmit_all (he : Transmits e) (s : Daemon) (dest : Addr) (len : Nat) (o : Outcome) :
    (transmit e s dest len o).sent = some (take s.sendBuf len) := by
  rw [transmit]
  exact if_pos (he _).2

theorem sendOutcome_rreq (he : Transmits e) (hu : Uncongested e s) (ht : s.sendBuf 0 = aodvRreq)
    (dest : Addr) (len : Nat) : (sendOutcome e s dest len).sent = some (take s.sendBuf len) := by
  have hreply : ¬ (s.waitOnReboot ≠ 0 ∧ s.sendBuf 0 = aodvRrep) := by
    rw [ht]
    rintro ⟨-, h⟩
    exact absurd h (by decide)
  have hset : ¬ ((!e.setsockopt s.tick) = true) := by simp [(he s.tick).1]
  rw [sendOutcome]
  dsimp only
  rw [if_neg hreply, if_neg hset]
  split
  · exact transmit_all he _ _ _ _
  next hlimit =>
    split
    next hnone => exact absurd hnone (hu (by simpa using hlimit) _ (Nat.le_succ _))
    · exact transmit_all he _ _ _ _

theorem forward_offers (he : Transmits e) (hu : Uncongested e s) {buf : Buf} {len : Nat}
    (ht : buf 0 = aodvRreq) (hlen : rreqSize ≤ len) (hfit : len ≤ receBufSize)
    (hm : CopyOf m hops (rreqOf buf)) (ttl : Int) :
    Offers m (hops + 1) ttl (rreqForward e s buf len ttl) := by
  obtain ⟨seqno, hle, hread⟩ := hm
  have hagree :
    ReceivedBytes.Agree len (store (copy s.sendBuf buf len) 3 (copy s.sendBuf buf len 3 + 1))
      (store buf 3 (buf 3 + 1)) := by
    intro i hi
    have h3 : 3 < len := Nat.lt_of_lt_of_le (by decide) hlen
    simp only [store, copy]
    rw [if_pos hi, if_pos h3]
  have hfirst : store (copy s.sendBuf buf len) 3 (copy s.sendBuf buf len 3 + 1) 0 = aodvRreq := by
    rw [hagree 0 (Nat.lt_of_lt_of_le (by decide) hlen), store_apply_of_ne _ _ _ _ (by decide)]
    exact ht
  have hsent := sendOutcome_rreq (s := { s with
    sendBuf := store (copy s.sendBuf buf len) 3 (copy s.sendBuf buf len 3 + 1) }) he hu hfirst
    aodvBroadcast len
  refine ⟨.queued (take (store buf 3 (buf 3 + 1)) len), len,
    take (store (copy s.sendBuf buf len) 3 (copy s.sendBuf buf len 3 + 1)) len, ?_, ?_,
    fun b hb => ?_⟩
  · rw [rreqForward, ← hsent]
    exact List.mem_cons_self
  · rw [take_length]
    exact hlen
  · have hb' : ReceivedBytes.Agree rreqSize b (store buf 3 (buf 3 + 1)) := by
      intro i hi
      have hlt : i < len := Nat.lt_of_lt_of_le hi hlen
      rw [List.take_of_length_le (by rwa [take_length])] at hb
      rw [hb.byte (by rwa [take_length]), ← hagree i hlt]
      simp [take]
    refine ⟨?_, seqno, hle, ?_⟩
    · rw [hb' 0 (by decide), store_apply_of_ne _ _ _ _ (by decide)]
      exact ht
    · have hhops : buf 3 = hops := congrArg RREQ.hopcnt hread
      rw [ReceivedBytes.rreqOf_congr hb' (Nat.le_refl _), Mesh.rreqOf_hopcnt, hread, hhops]

theorem Reversed.offers {src : Addr} (h : Reversed s m src hops s' rev) (he : Transmits e)
    (hu : Uncongested e s) (hc : Copy m hops ttl pkt) (hne : m.destAddr ≠ s.host.ipaddr)
    (httl : 1 < ttl.toNat) : Offers m (hops + 1) (ttl.toNat - 1) (rest e s' pkt rev ttl.toNat) := by
  obtain ⟨seqno, hle, hread⟩ := hc.read
  rw [rest, if_neg (by rw [hread, h.ipaddr]; exact hne)]
  obtain ⟨s₁, hs₁, heq⟩ := route_passes (h.no_answer hne hc.read) e pkt.buf pkt.len rev ttl.toNat
  rw [heq, if_pos (by exact_mod_cast httl)]
  have hu₁ : Uncongested e s₁ := by
    intro hlimit n hn
    have hold : s'.rreqRatelimit = s₁.rreqRatelimit ∧ s'.tick ≤ s₁.tick := by
      rcases hs₁ with rfl | rfl
      · exact ⟨rfl, Nat.le_refl _⟩
      · exact ⟨rfl, Nat.le_succ _⟩
    rw [← hold.1, h.limiter]
    exact hu hlimit n (h.tick.trans (hold.2.trans hn))
  refine forward_offers he hu₁ ((RreqOutcome.passOnBuf_type _ _ _ _).trans hc.type) hc.length
    pkt.fits ?_ _
  cases rtTableCheck s'.rtTbl (rreqOf pkt.buf).destAddr with
  | none => exact hc.read
  | some f =>
      rw [RreqOutcome.passOnBuf]
      split
      next hraise =>
        refine ⟨(s₁.rt f).destSeqno, ?_, by rw [Aodv.rreqOf_destSeqno, hread]⟩
        obtain ⟨-, hlt⟩ := hraise
        rw [hread] at hlt
        rw [BitVec.sle, decide_eq_true_eq] at hle ⊢
        rw [BitVec.slt, decide_eq_true_eq] at hlt
        exact Int.le_trans hle (Int.le_of_lt hlt)
      · exact hc.read

end Sends

end Aodv.RouteBack
