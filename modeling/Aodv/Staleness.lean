import Aodv.TimerSteps

namespace Aodv.Staleness

open Lib.Bytes TimerCalls TimerSteps Relation

/-- A deadline that was never set, or that one of the first n readings of the clock
and an interval of at most B milliseconds give. -/
def Dated (e : Env) (B : Int) (n : Nat) (t : Timeval) : Prop :=
  t = ⟨0, 0⟩ ∨ ∃ k L, k < n ∧ 0 ≤ L ∧ L ≤ B ∧ t = timeoutAfter e.arch (e.clock k) L

theorem Dated.mono {e : Env} {B : Int} {n n' : Nat} {t : Timeval} (h : Dated e B n t) (hn : n ≤ n') :
    Dated e B n' t := by
  obtain h | ⟨k, L, hk, h⟩ := h
  · exact .inl h
  · exact .inr ⟨k, L, Nat.lt_of_lt_of_le hk hn, h⟩

def Within (B : Int) (msec : Int) : Prop := 0 ≤ msec ∧ msec ≤ B

theorem dated_call {e : Env} {B : Int} {n n' : Nat} {q : TimerQueue} {c : Call}
    (hc : Current e (Within B) n n' c) (h : ∀ p, Dated e B n' (deadline q (.rtTimer p))) (p : Ptr) :
    Dated e B n' (deadline (Timers.call e.arch ⟨q, []⟩ c).q (.rtTimer p)) := by
  cases c with
  | init t f data =>
      have hinit : deadline (Timers.call e.arch ⟨q, []⟩ (.init t f data)).q (.rtTimer p) =
          if .rtTimer p = t then ⟨0, 0⟩ else deadline q (.rtTimer p) := by
        cases f <;> exact deadline_set q t _ _
      rw [hinit]
      split
      · exact .inl rfl
      · exact h p
  | setTimeout now t msec =>
      obtain ⟨⟨k, -, hk, rfl⟩, hw⟩ := hc
      rw [call_setTimeout, deadline_timerSetTimeout]
      split
      next ht =>
        obtain ⟨h0, hB⟩ := hw p ht.symm
        rw [if_neg (Int.not_lt.2 h0)]
        exact .inr ⟨k, msec, hk, h0, hB, rfl⟩
      · exact h p
  | add t => exact hc.elim
  | remove t =>
      change Dated e B n' (deadline (timerRemove q t) _)
      rw [deadline_timerRemove]
      exact h p
  | setHandler t f =>
      change Dated e B n' (deadline (setHandler q t f) _)
      rw [deadline_setHandler]
      exact h p

theorem dated_timed {e : Env} {B : Int} {s s' : Daemon} (h : Timed e (Within B) s s')
    (hs : ∀ p, Dated e B s.tick (deadline s.timers (.rtTimer p))) :
    ∀ p, Dated e B s'.tick (deadline s'.timers (.rtTimer p)) := by
  obtain ⟨cs, -, hcur, hrun⟩ := h.calls
  have hq : ∀ p, Dated e B s'.tick (deadline s.timers (.rtTimer p)) := fun p => (hs p).mono h.tick
  clear hs
  generalize s.timers = q at hrun hq
  induction cs generalizing q with
  | nil =>
      obtain rfl : q = s'.timers := congrArg Timers.q hrun
      exact hq
  | cons c cs ih =>
      have hone : Timers.call e.arch ⟨q, []⟩ c = ⟨(Timers.call e.arch ⟨q, []⟩ c).q, []⟩ :=
        call_outer e.arch q (fun _ hl => absurd hl List.not_mem_nil) c
      rw [List.foldl_cons, hone] at hrun
      exact ih (fun c' hc' => hcur c' (List.mem_cons_of_mem _ hc')) _ hrun
        (dated_call (hcur c List.mem_cons_self) hq)

def Silent (o : Obs) : Prop := ∀ deadline now, o ≠ .answer deadline now

theorem silent_nl {o : Obs} (h : NlObs o) : Silent o := by
  cases h <;> rintro _ _ ⟨⟩

theorem silent_lb {o : Obs} (h : LbObs o) : Silent o := by
  cases h with
  | route h => cases h <;> rintro _ _ ⟨⟩
  | rerr => rintro _ _ ⟨⟩

def Answers (e : Env) (s : Daemon) (o : Obs) : Prop :=
  ∃ p n, n + 1 = s.tick ∧ o = .answer (deadline s.timers (.rtTimer p)) (e.clock n)

theorem quiet_answers {e : Env} {ev : Event} {s s' : Daemon} (h : Quiet e ev s s')
    (hs : WellFormed s) : Said (fun o => Silent o ∨ Answers e s o) s s' := by
  have hone {o : Obs} (ho : Silent o) (hs' : s'.trace = o :: s.trace) :
      Said (fun o => Silent o ∨ Answers e s o) s s' := .one hs' (.inl ho)
  cases h with
  | lb h => exact (lb_said h).mono fun _ ho => .inl (silent_lb ho)
  | updateTimeout => exact updateTimeout_said e s _ _
  | precursor =>
      refine .same ?_
      simp only [precursorAdd]
      split <;> rfl
  | @answer p n hp hn => exact .one rfl (.inr ⟨p, n, hn, rfl⟩)
  | unidirBreak | rerrSeqno | rrepSend | rrepAck | relay => exact hone (by rintro _ _ ⟨⟩) rfl
  | repairTimeout => exact (repairTimeout_said e s _).mono fun _ ho => .inl (silent_lb ho.lb)
  | delete => exact (delete_said e s _).mono fun _ ho => .inl (silent_nl ho)
  | @helloFire p hp =>
      have hsaid := helloTimeout_said e (s := pop s (.helloTimer p)) (hs.owned _ hp)
      exact hsaid.mono fun _ ho => .inl (silent_lb ho)
  | blacklist =>
      refine .same ?_
      rw [rreqBlacklistInsert]
      split <;> rfl
  | helloArm | helloCount | dropHello | dropAck | armAck | unidir | expireIdle | dropRecord
  | dropBlacklist | armLog | armWorb | rrepWrite => exact .same rfl

theorem fine_answers {e : Env} {ev : Event} {s s' : Daemon} (h : Fine e ev s s')
    (hs : WellFormed s) : Said (fun o => Silent o ∨ Answers e s o) s s' := by
  have hone {s₁ : Daemon} {o : Obs} (ho : Silent o) (hs' : s₁.trace = o :: s.trace) :
      Said (fun o => Silent o ∨ Answers e s o) s s₁ := .one hs' (.inl ho)
  cases h with
  | quiet h => exact quiet_answers h hs
  | @insert src dest next hops seqno lifetime state hl =>
      exact insert_told (.of_nl fun _ ho => .inl (silent_nl ho)) e s (.inl (by rintro _ _ ⟨⟩))
  | @update p src next hops seqno lifetime hp hl =>
      exact update_told (.of_lb fun _ ho => .inl (silent_lb ho)) e hp (.inl (by rintro _ _ ⟨⟩))
  | @record pkt h ht hnew =>
      rw [rreqRecordInsert]
      split
      · exact hone (o := .rreqAccepted (rreqOf pkt.buf) pkt.src) (by rintro _ _ ⟨⟩) rfl
      · exact hone (o := .rreqAccepted (rreqOf pkt.buf) pkt.src) (by rintro _ _ ⟨⟩) rfl
  | rreqSend dest seqno ttl flags hseq =>
      rw [Aodv.rreqSend]
      split
      · exact .one rfl (.inl (by rintro _ _ ⟨⟩))
      · exact .same rfl
  | forUs | discovery | seekCount | repairStart => exact hone (by rintro _ _ ⟨⟩) rfl
  | seekNew | seekRing => exact .same rfl
  | @seekFail q hq =>
      have hobs : Said (fun o => Silent o ∨ Answers e s o) s
          ((pop s (.seekTimer q)).tock.observe (.discoveryFailed q)) := hone (by rintro _ _ ⟨⟩) rfl
      exact hobs.trans ((noRoute_said e _ _).mono fun _ ho => .inl (silent_nl ho))

def bound (M : Nat) : Int := max M (max deletePeriod (max myRouteTimeout pathDiscoveryTime))

theorem bound_large (M : Nat) : 15000 ≤ bound M :=
  Int.le_trans (by decide) (le_max_right (M : Int) _)

/-- No RREP that is long enough to carry a lifetime carries one above M. -/
def modest (M : Nat) : Event → Bool
  | .recv pkt => decide (pkt.buf 0 = aodvRrep → rrepSize ≤ pkt.len →
      (rrepOf pkt.buf).lifetime.toNat ≤ M)
  | _ => true

/-- The calls that keep to the bound: an entry is given the life of a reverse
route, at its insertion or while it is VALID and keeps its link, only when the
route has at most 70 hops or that life is no longer than M; and a node answers
from an entry only before the entry's deadline. -/
def spared (M : Nat) : Obs → Bool
  | .rtInsert _ _ hops _ lifetime _ _ =>
      decide (lifetime = rreqLife hops → hops.toNat ≤ 70 ∨ lifetime.toNat ≤ M)
  | .rtUpdate _ old _ hops _ lifetime _ _ =>
      decide (old.state = .valid → ¬ (1 < hops ∧ old.hopcnt = 1) →
        lifetime = rreqLife hops → hops.toNat ≤ 70 ∨ lifetime.toNat ≤ M)
  | .answer deadline now => decide (0 ≤ timevalDiff .long64 deadline now)
  | _ => true

theorem rreqLife_le {hops : U32} (h : hops.toNat ≤ 70) : (rreqLife hops).toNat ≤ 5600 := by
  have hpath : u32 pathDiscoveryTime = 5600 := by decide
  have hnode : u32 nodeTraversalTime = 40 := by decide
  have htwice : (2 * hops).toNat = 2 * hops.toNat := by
    rw [BitVec.toNat_mul]
    exact Nat.mod_eq_of_lt (by change 2 * hops.toNat < _; omega)
  have hspent : (2 * hops * 40).toNat = 80 * hops.toNat := by
    rw [BitVec.toNat_mul, htwice]
    change 2 * hops.toNat * 40 % 2 ^ 32 = _
    omega
  rw [rreqLife, hpath, hnode, BitVec.toNat_sub, hspent]
  have hwrap : 2 ^ 32 - 80 * hops.toNat + 5600 = (5600 - 80 * hops.toNat) + 2 ^ 32 := by omega
  change (2 ^ 32 - 80 * hops.toNat + 5600) % 2 ^ 32 ≤ 5600
  rw [hwrap, Nat.add_mod_right]
  exact Nat.le_trans (Nat.mod_le _ _) (Nat.sub_le _ _)

theorem learned_lifetime {own : Addr} {ev : Event} {old : U32} {src : Source} {dest next : Addr}
    {hops seqno lifetime : U32} {M : Nat}
    (h : Learned own ev old src dest next hops seqno lifetime) (hev : modest M ev = true)
    (hok : lifetime = rreqLife hops → hops.toNat ≤ 70 ∨ lifetime.toNat ≤ M) :
    (lifetime.toNat : Int) ≤ bound M := by
  have hlarge := bound_large M
  have hM : (M : Int) ≤ bound M := le_max_left _ _
  cases h with
  | neighbor => exact Int.le_trans (by decide) hlarge
  | rreq =>
      rcases hok rfl with hhops | hM'
      · have hlife := rreqLife_le hhops
        omega
      · omega
  | @rrep pkt h ht hlen hne =>
      subst h
      have hlife : (rrepOf pkt.buf).lifetime.toNat ≤ M := of_decide_eq_true hev ht hlen
      omega
  | hello => exact Int.le_trans (by decide) hlarge

theorem gives_le {e : Env} {ev : Event} {s s' : Daemon} {M : Nat} {lifetime : U32}
    (h : Gives e ev s s' lifetime) (hev : modest M ev = true)
    (hok : ∀ o ∈ s'.trace, spared M o = true) : (lifetime.toNat : Int) ≤ bound M := by
  cases h with
  | @insert src dest next hops seqno _ state p hl hi =>
      refine learned_lifetime hl hev (of_decide_eq_true (hok (.rtInsert dest next hops seqno lifetime
        state .zero) ?_))
      obtain hnone | ⟨_, hsome⟩ := rtTableInsert_cases e s dest next hops seqno lifetime state .zero
      · rw [hnone] at hi
        cases hi
      · rw [hsome]
        exact (insertEntry_said e _ _ hops lifetime).suffix.subset List.mem_cons_self
  | @update p src next hops seqno _ hp hl hv hd =>
      have hmem := hok _ ((update_said e hp next hops seqno lifetime .valid
        (s.rt p).flags).suffix.subset List.mem_cons_self)
      exact learned_lifetime hl hev (of_decide_eq_true hmem hv hd)

theorem timed_fine {e : Env} {ev : Event} {s s' : Daemon} {M : Nat} (h : Fine e ev s s')
    (hs : WellFormed s) (h64 : e.arch = .long64) (hev : modest M ev = true)
    (hok : ∀ o ∈ s'.trace, spared M o = true) : Timed e (Within (bound M)) s s' := by
  refine .fine (fun msec h0 hB => ⟨h0, Int.le_trans hB (bound_large M)⟩) h hs fun lifetime hl => ?_
  rw [h64]
  exact ⟨Int.natCast_nonneg _, gives_le hl hev hok⟩

/-- The clock shows a time after the epoch, and is not set back. -/
structure Onward (e : Env) : Prop where
  start : 0 ≤ micros (e.clock 0)
  step : ∀ n, micros (e.clock n) ≤ micros (e.clock (n + 1))

theorem Onward.le {e : Env} (h : Onward e) {k n : Nat} (hkn : k ≤ n) :
    micros (e.clock k) ≤ micros (e.clock n) := by
  induction hkn with
  | refl => exact Int.le_refl _
  | step _ ih => exact Int.le_trans ih (h.step _)

theorem tdiv_le {x B : Int} (hB : 0 ≤ B) (h : x ≤ B * 1000) : x.tdiv 1000 ≤ B := by
  rcases tdiv_thousand x with ⟨hx, heq⟩ | ⟨hx, heq⟩
  · omega
  · exact Int.le_trans (by omega) hB

/-- A dated deadline is at most the bound ahead of a later reading of the clock. -/
theorem Dated.diff {e : Env} {B : Int} {n : Nat} {t : Timeval} (h : Dated e B (n + 1) t)
    (h64 : e.arch = .long64) (hclock : Onward e) (hB : 0 ≤ B) :
    timevalDiff .long64 t (e.clock n) ≤ B := by
  rw [timevalDiff_eq, Arch.signed]
  apply tdiv_le hB
  obtain rfl | ⟨k, L, hk, -, hL, rfl⟩ := h
  · have hzero : micros ⟨0, 0⟩ = 0 := rfl
    have hnow := hclock.le (Nat.zero_le n)
    have hstart := hclock.start
    omega
  · have hpast := hclock.le (Nat.le_of_lt_succ hk)
    have hset : timeoutAfter e.arch (e.clock k) L = timevalAddMsec .long64 (e.clock k) L := by
      rw [h64]
      rfl
    rw [hset, micros_addMsec]
    omega

def Fair (M : Nat) : Obs → Prop
  | .answer deadline now => timevalDiff .long64 deadline now ≤ bound M
  | .socketSend (.rrep m) _ _ _ _ => (m.lifetime.toNat : Int) ≤ bound M
  | _ => True

theorem u32_le {i : Int} (h : 0 ≤ i) : ((u32 i).toNat : Int) ≤ i := by
  rw [u32, BitVec.toNat_ofInt]
  omega

theorem offered_le {M : Nat} {tr : List Obs} {lifetime : U32} (h : Offered .long64 tr lifetime)
    (hok : ∀ o ∈ tr, spared M o = true) (htr : ∀ o ∈ tr, Fair M o) :
    (lifetime.toNat : Int) ≤ bound M := by
  obtain rfl | ⟨deadline, now, hm, rfl⟩ := h
  · exact Int.le_trans (by decide) (bound_large M)
  · exact Int.le_trans (u32_le (of_decide_eq_true (hok _ hm))) (htr _ hm)

theorem fine_fair {M : Nat} {tr : List Obs} {o : Obs} (h : FineObs .long64 tr o) (ho : Silent o)
    (hok : ∀ o ∈ tr, spared M o = true) (htr : ∀ o ∈ tr, Fair M o) : Fair M o := by
  cases h with
  | table h =>
      cases h with
      | quiet h =>
          cases h with
          | lb h =>
              cases h with
              | route h => cases h <;> trivial
              | rerr => trivial
          | rrep m dest len ttl sent hf hoff => exact offered_le hoff hok htr
          | answer deadline now => exact absurd rfl (ho deadline now)
          | rrepAck | queued | rerrSeqno | unidirBreak => trivial
      | rtInsert | rtUpdate | accepted | localRepair => trivial
  | mark h => cases h <;> trivial
  | rreq | forUs => trivial

structure Fresh (e : Env) (M : Nat) (s : Daemon) : Prop where
  dated : ∀ p, Dated e (bound M) s.tick (deadline s.timers (.rtTimer p))
  fair : ∀ o ∈ s.trace, Fair M o

theorem Fresh.fine {e : Env} {ev : Event} {s s' : Daemon} {M : Nat} (hJ : Fresh e M s)
    (h : Fine e ev s s') (hs : WellFormed s) (h64 : e.arch = .long64) (hclock : Onward e)
    (hev : modest M ev = true) (hok : ∀ o ∈ s'.trace, spared M o = true) : Fresh e M s' := by
  have hsaid := fine_said h hs
  have hbefore : ∀ o ∈ s.trace, spared M o = true := fun o ho => hok o (hsaid.suffix.subset ho)
  refine ⟨dated_timed (timed_fine h hs h64 hev hok) hJ.dated, ?_⟩
  -- each new observation is an answer from a dated entry, or is no answer
  obtain ⟨l, hl, hP⟩ := hsaid
  obtain ⟨l', hl', hQ⟩ := fine_answers h hs
  obtain rfl : l' = l := List.append_cancel_right (hl'.symm.trans hl)
  intro o ho
  rw [hl] at ho
  rcases List.mem_append.1 ho with ho | ho
  · rcases hQ o ho with hsilent | ⟨p, n, hn, rfl⟩
    · exact fine_fair (h64 ▸ hP o ho) hsilent hbefore hJ.fair
    · have hdated := hJ.dated p
      rw [← hn] at hdated
      exact hdated.diff h64 hclock (Int.le_trans (by decide) (bound_large M))
  · exact hJ.fair o ho

/-- The states an event passes through, one after each of its single steps. -/
def Passes (e : Env) (ev : Event) (s s' : Daemon) : Prop :=
  ∃ s₁, (s₁ = s ∨ ∃ now, s₁ = takeDue e.arch now s) ∧ ReflTransGen (Fine e ev) s₁ s'

theorem passes_step {e : Env} {s : Daemon} (hs : Resting s) (ev : Event) :
    Passes e ev s (step e s ev) := by
  obtain ⟨s₁, hfrom, hrun, -⟩ := coarses_step (e := e) hs.wellFormed hs.batch ev
  refine ⟨s₁, hfrom, fines_of_coarses hrun ?_⟩
  rcases hfrom with rfl | ⟨now, rfl⟩
  · exact hs.wellFormed
  · exact wellFormed_takeDue _ now hs.wellFormed hs.batch

theorem passes_trace {e : Env} {ev : Event} {s s' : Daemon} (h : Passes e ev s s')
    (hs : Resting s) : s.trace <:+ s'.trace := by
  obtain ⟨s₁, hfrom, hrun⟩ := h
  rcases hfrom with rfl | ⟨now, rfl⟩
  · exact fines_trace hrun hs.wellFormed
  · have hsuffix := fines_trace hrun (wellFormed_takeDue _ now hs.wellFormed hs.batch)
    exact hsuffix

theorem Fresh.passes {e : Env} {ev : Event} {s s' : Daemon} {M : Nat} (hJ : Fresh e M s)
    (h : Passes e ev s s') (hs : Resting s) (h64 : e.arch = .long64) (hclock : Onward e)
    (hev : modest M ev = true) (hok : ∀ o ∈ s'.trace, spared M o = true) : Fresh e M s' := by
  obtain ⟨s₁, hfrom, hrun⟩ := h
  have hstart : WellFormed s₁ ∧ Fresh e M s₁ := by
    rcases hfrom with rfl | ⟨now, rfl⟩
    · exact ⟨hs.wellFormed, hJ⟩
    · exact ⟨wellFormed_takeDue _ now hs.wellFormed hs.batch, hJ.dated, hJ.fair⟩
  clear hfrom
  induction hrun with
  | refl => exact hstart.2
  | tail hrun hstep ih =>
      have hw := (fines_sound hrun hstart.1).wellFormed
      have hsaid := fine_said hstep hw
      exact (ih fun o ho => hok o (hsaid.suffix.subset ho)).fine hstep hw h64 hclock hev hok

/-- Every deadline of a routing entry is the reading of the clock at which it was
set and at most the bound, and no RREP of the node's own promises more. -/
structure BoundedStaleness (e : Env) (M : Nat) (s : Daemon) : Prop where
  deadlines : ∀ p, Dated e (bound M) s.tick (s.timer (.rtTimer p)).timeout
  lifetimes : ∀ m dest len ttl sent, .socketSend (.rrep m) dest len ttl sent ∈ s.trace →
    (m.lifetime.toNat : Int) ≤ bound M

theorem fresh_init (e : Env) (M : Nat) (ipaddr broadcast : Addr) (ifindex : Int) :
    Fresh e M (init e ipaddr broadcast ifindex) := by
  refine ⟨fun p => .inl ?_, fun o ho => absurd ho List.not_mem_nil⟩
  change deadline (timerSetTimeout e.arch (e.clock 0)
    (timerInit noTimers .rtLogTimer .printRtTable .null) .rtLogTimer rtLogInterval) _ = _
  rw [deadline_timerSetTimeout, if_neg (by simp), deadline_timerInit, if_neg (by simp)]
  rfl

theorem fresh_run {e : Env} (h64 : e.arch = .long64) (hclock : Onward e) (M : Nat)
    (ipaddr broadcast : Addr) (ifindex : Int) (es : List Event)
    (hes : ∀ ev ∈ es, modest M ev = true)
    (hok : ∀ o ∈ (run e (init e ipaddr broadcast ifindex) es).trace, spared M o = true) :
    Fresh e M (run e (init e ipaddr broadcast ifindex) es) := by
  induction es using List.reverseRecOn with
  | nil => exact fresh_init e M ipaddr broadcast ifindex
  | append_singleton es ev ih =>
      have hrest : Resting (run e (init e ipaddr broadcast ifindex) es) :=
        Reachable.resting ⟨_, _, _, es, rfl⟩
      have hpass := passes_step (e := e) hrest ev
      have hrun : run e (init e ipaddr broadcast ifindex) (es ++ [ev]) =
          step e (run e (init e ipaddr broadcast ifindex) es) ev := List.foldl_append
      rw [hrun] at hok ⊢
      have hbefore := ih (fun ev' hev' => hes ev' (List.mem_append_left _ hev'))
        fun o ho => hok o ((passes_trace hpass hrest).subset ho)
      exact hbefore.passes hpass hrest h64 hclock
        (hes ev (List.mem_append_right _ List.mem_cons_self)) hok

theorem staleness_bounded {e : Env} (h64 : e.arch = .long64) (hclock : Onward e) (M : Nat)
    (ipaddr broadcast : Addr) (ifindex : Int) (es : List Event) (ev : Event)
    (hes : ∀ ev' ∈ es ++ [ev], modest M ev' = true) {s : Daemon}
    (h : Passes e ev (run e (init e ipaddr broadcast ifindex) es) s)
    (hok : ∀ o ∈ s.trace, spared M o = true) : BoundedStaleness e M s := by
  have hrest : Resting (run e (init e ipaddr broadcast ifindex) es) :=
    Reachable.resting ⟨_, _, _, es, rfl⟩
  have hbefore := fresh_run h64 hclock M ipaddr broadcast ifindex es
    (fun ev' hev' => hes ev' (List.mem_append_left _ hev'))
    fun o ho => hok o ((passes_trace h hrest).subset ho)
  have hfresh := hbefore.passes h hrest h64 hclock
    (hes ev (List.mem_append_right _ List.mem_cons_self)) hok
  exact ⟨hfresh.dated, fun m dest len ttl sent hm => hfresh.fair _ hm⟩

def ticking : Env := { plain with arch := .long64, clock := fun n => ⟨n, 0⟩ }

theorem onward_ticking : Onward ticking := by
  refine ⟨by decide, fun n => ?_⟩
  change (n : Int) * 1000000 + 0 ≤ ((n + 1 : Nat) : Int) * 1000000 + 0
  omega

def askedOver (hopcnt : U8) : Packet :=
  .of (.rreq ⟨false, false, false, false, false, hopcnt, 1, 0x0900000a, 0, 0x0300000a, 5⟩)
    0x0200000a aodvBroadcast 3 (fits_rreq _)

theorem staleness_bounded_near : BoundedStaleness ticking 6000
    (run ticking (init ticking 0x0100000a 0xff00000a 2) [.recv (askedOver 3)]) :=
  staleness_bounded rfl onward_ticking 6000 0x0100000a 0xff00000a 2 [] (.recv (askedOver 3))
    (by decide +kernel) (passes_step (resting_init _ _ _ _) _) (by decide +kernel)

theorem Dated.micros_le {B : Int} {n : Nat} {t : Timeval} (h : Dated ticking B n t) (hB : 0 ≤ B) :
    micros t ≤ n * 1000000 + B * 1000 := by
  obtain rfl | ⟨k, L, hk, -, hL, rfl⟩ := h
  · have hzero : micros ⟨0, 0⟩ = 0 := rfl
    omega
  · have hnow : micros (ticking.clock k) = (k : Int) * 1000000 + 0 := rfl
    change micros (timevalAddMsec .long64 (ticking.clock k) L) ≤ _
    rw [micros_addMsec, hnow]
    omega

/-- A reverse route of 71 hops lasts for seven weeks. -/
theorem staleness_unbounded : ¬ ∀ es, (∀ ev ∈ es, modest 6000 ev = true) →
    BoundedStaleness ticking 6000 (run ticking (init ticking 0x0100000a 0xff00000a 2) es) := by
  intro hall
  let s := run ticking (init ticking 0x0100000a 0xff00000a 2) [.recv (askedOver 70)]
  have hmodest : ∀ ev ∈ [Event.recv (askedOver 70)], modest 6000 ev = true := by
    simp only [List.mem_singleton, forall_eq]
    decide +kernel
  have hdated := (hall _ hmodest).deadlines 2
  have hle := hdated.micros_le (by decide)
  have hsee : s.tick = 14 ∧ 1000000000000 < micros (s.timer (.rtTimer 2)).timeout := by
    decide +kernel
  have hbound : bound 6000 = 15000 := by decide
  change micros (s.timer (.rtTimer 2)).timeout ≤ (s.tick : Int) * 1000000 + bound 6000 * 1000 at hle
  rw [hsee.1, hbound] at hle
  omega

end Aodv.Staleness
