import Aodv.Acknowledged
import Aodv.Duplicates

namespace Aodv.Blacklist

open Lib.Bytes Frames
open Relation

def rrepSent : Obs → Bool
  | .socketSend _ _ _ _ (some bytes) => decide (bytes[0]? = some aodvRrep)
  | _ => false

theorem first_byte {b : Buf} {len : Nat} {x : U8} (h : (take b len)[0]? = some x) : b 0 = x := by
  cases len with
  | zero => cases h
  | succ len => simpa [take] using h

structure Mute (s s' : Daemon) : Prop where
  reboot : s'.waitOnReboot = s.waitOnReboot
  said : s.waitOnReboot ≠ 0 → Said (fun o => rrepSent o = false) s s'

namespace Mute

variable {e : Env} {ev : Event} {s s' s'' : Daemon} {p : Ptr}

theorem trans (h : Mute s s') (h' : Mute s' s'') : Mute s s'' := by
  refine ⟨h'.reboot.trans h.reboot, fun hw => (h.said hw).trans (h'.said ?_)⟩
  rw [h.reboot]
  exact hw

theorem same (hr : s'.waitOnReboot = s.waitOnReboot) (ht : s'.trace = s.trace) : Mute s s' :=
  ⟨hr, fun _ => .same ht⟩

theorem refl : Mute s s := same rfl rfl

theorem prior {s₁ : Daemon} (h : Mute s₁ s') (hr : s₁.waitOnReboot = s.waitOnReboot)
    (ht : s₁.trace = s.trace) : Mute s s' := (same hr ht).trans h

theorem said_of {P : Obs → Prop} (hr : s'.waitOnReboot = s.waitOnReboot) (h : Said P s s')
    (hP : ∀ o, P o → rrepSent o = false) : Mute s s' := ⟨hr, fun _ => h.mono hP⟩

theorem silent_route {o : Obs} (h : RouteObs o) : rrepSent o = false := by
  cases h <;> rfl

theorem silent_nl {o : Obs} (h : NlObs o) : rrepSent o = false := silent_route h.route

theorem socketSend (e : Env) (s : Daemon) (msg : Msg) (dest : Addr) (len ttl : Int) :
    Mute s (aodvSocketSend e s msg dest len ttl) := by
  refine ⟨rfl, fun hw => .one rfl ?_⟩
  cases hsent : (sendOutcome e s dest len.toNat).sent with
  | none => rfl
  | some bytes =>
      obtain ⟨rfl, hpass⟩ := sendOutcome_sent e s dest len.toNat bytes hsent
      have htype : s.sendBuf 0 ≠ aodvRrep := fun ht => hpass ⟨hw, ht⟩
      apply decide_eq_false
      intro hfirst
      exact htype (first_byte hfirst)

theorem invalidate (hp : Linked s.rtTbl p) : Mute s (rtTableInvalidate e s p) :=
  .said_of (kept_invalidate e hp).reboot (invalidate_said e s p) fun _ => silent_route

theorem lb (h : Lb e s s') : Mute s s' := by
  cases h with
  | tock | destroy | rerrNew | rerrAdd => exact same rfl rfl
  | down hp hv => exact invalidate hp
  | @repair p hp hv => exact (invalidate (s := markRepair s p) hp).prior rfl rfl
  | rerrSend m dest len ht hc => exact socketSend e s _ dest len 1

theorem lbs (h : ReflTransGen (Lb e) s s') : Mute s s' := by
  induction h with
  | refl => exact refl
  | tail _ h ih => exact ih.trans (lb h)

theorem linkBreak (hp : Linked s.rtTbl p) : Mute s (neighborLinkBreak e s p) :=
  lbs (lb_linkBreak e hp)

theorem repairTimeout (e : Env) (s : Daemon) (p : Ptr) : Mute s (localRepairTimeout e s p) := by
  have hover : Mute s (repairOver e s p) :=
    .said_of rfl (delRoute_said e (s.setRt p _) _ _ _) fun _ => silent_nl
  have hreport : Mute (repairOver e s p) (repairReport e (repairOver e s p) p) := by
    rw [repairReport]
    dsimp only
    split
    · exact (socketSend e _ _ _ _ 1).prior rfl rfl
    · exact refl
  exact (hover.trans hreport).trans (same rfl rfl)

theorem helloTimeout (hp : Linked s.rtTbl p) : Mute s (helloTimeout e s p) := by
  rw [Aodv.helloTimeout]
  dsimp only
  split
  · split
    · exact (linkBreak (s := markRepair s.tock p) hp).prior rfl rfl
    · exact (linkBreak (s := s.tock) hp).prior rfl rfl
  · exact same rfl rfl

theorem quiet (h : Quiet e ev s s') (hs : WellFormed s) : Mute s s' := by
  have hreboot := (quiet_sound h hs).reboot
  cases h with
  | lb h => exact lb h
  | updateTimeout => exact .said_of hreboot (updateTimeout_said e s _ _) fun _ => silent_nl
  | @precursor p r hp hr =>
      refine same hreboot ?_
      simp only [precursorAdd]
      split <;> rfl
  | unidirBreak reports => exact ⟨rfl, fun _ => .one rfl rfl⟩
  | answer | rerrSeqno => exact ⟨rfl, fun _ => .one rfl rfl⟩
  | rrepSend m dest hc ho => exact socketSend e s _ dest _ _
  | rrepAck p => exact (socketSend e (rrepAckCreate s) _ _ _ _).prior rfl rfl
  | relay buf len hopcnt dest ttl hlen hr => exact (socketSend e
      { s with sendBuf := store (copy s.sendBuf buf len) 3 hopcnt } _ dest len ttl).prior rfl rfl
  | repairTimeout => exact repairTimeout e s _
  | delete => exact .said_of hreboot (delete_said e s _) fun _ => silent_nl
  | @helloFire p hp =>
      exact (helloTimeout (s := pop s (.helloTimer p)) (hs.owned _ hp)).prior rfl rfl
  | blacklist dest =>
      refine same hreboot ?_
      rw [rreqBlacklistInsert]
      split <;> rfl
  | helloArm | helloCount | dropHello | dropAck | armAck | unidir | expireIdle | dropRecord
  | dropBlacklist | armLog | armWorb | rrepWrite => exact same rfl rfl

theorem insert (e : Env) (hs : WellFormed s) (dest next : Addr) (hops seqno lifetime : U32)
    (state : RtState) (flags : RtFlags) :
    Mute s (rtTableInsert e s dest next hops seqno lifetime state flags).1 :=
  ⟨(insert_sound e hs dest next hops seqno lifetime state flags).reboot,
    fun _ => insert_told (.of_nl fun _ => silent_nl) e s rfl⟩

theorem update (e : Env) (hs : WellFormed s) (hp : Linked s.rtTbl p) (next : Addr)
    (hops seqno lifetime : U32)
    (state : RtState) (flags : RtFlags) :
    Mute s (rtTableUpdate e s p next hops seqno lifetime state flags) := by
  have hobs := Kept.observe s (.rtUpdate p (s.rt p) next hops seqno lifetime state flags)
  have hkept := kept_updateBegin e (s.observe (.rtUpdate p (s.rt p) next hops seqno lifetime state
    flags)) p next hops lifetime state flags
  have hp₁ := ((hobs.trans hkept).keys.linked p).2 hp
  have hbegin := said_of hkept.reboot (updateBegin_said e _ p next hops lifetime state flags)
    fun _ => silent_nl
  have hbreak (s : Daemon) (hp : Linked s.rtTbl p) : Mute s (updateBreak e s p hops) := by
    rw [updateBreak]
    dsimp only
    split
    · exact (linkBreak (s := pop (s.setRt p { s.rt p with lastHelloTime := ⟨0, 0⟩, helloCnt := 0 })
        (.helloTimer p)) hp).prior rfl rfl
    · exact refl
  have hfirst : Mute s (s.observe (.rtUpdate p (s.rt p) next hops seqno lifetime state flags)) :=
    ⟨rfl, fun _ => .one rfl rfl⟩
  have hparts := (hfirst.trans hbegin).trans (hbreak _ hp₁)
  exact ⟨(update_sound e hs hp next hops seqno lifetime state flags).reboot,
    fun hw => (hparts.said hw).trans (.same (updateFinish_trace e _ _ _ _ _ _ _ _))⟩

theorem fine (h : Fine e ev s s') (hs : WellFormed s) : Mute s s' := by
  have hreboot := (fine_sound h hs).reboot
  cases h with
  | quiet h => exact quiet h hs
  | insert lifetime state hl => exact insert e hs _ _ _ _ lifetime state .zero
  | update lifetime hp hl => exact update e hs hp _ _ _ lifetime .valid _
  | record h ht hnew =>
      refine ⟨hreboot, fun _ => ?_⟩
      rw [rreqRecordInsert]
      split <;> exact .one rfl rfl
  | rreqSend dest seqno ttl flags _ =>
      rw [Aodv.rreqSend]
      split
      · exact (socketSend e _ _ _ _ _).prior rfl rfl
      · exact refl
  | seekNew | seekRing => exact same rfl rfl
  | forUs | discovery | seekCount | repairStart => exact ⟨rfl, fun _ => .one rfl rfl⟩
  | @seekFail q hq =>
      have hobs : Said (fun o => rrepSent o = false) s
          ((pop s (.seekTimer q)).tock.observe (.discoveryFailed q)) := .one rfl rfl
      exact ⟨rfl, fun _ => hobs.trans ((noRoute_said e _ _).mono fun _ => silent_nl)⟩

end Mute

/-- No run ever hands an RREP to sendto. -/
theorem never_sent {e : Env} {s : Daemon} (h : Reachable e s) : ∀ o ∈ s.trace, rrepSent o = false := by
  have hall := Reachable.fines (C := fun _ => True)
    (J := fun s => s.waitOnReboot ≠ 0 ∧ ∀ o ∈ s.trace, rrepSent o = false) (fun _ _ _ => id)
    (fun _ _ _ => ⟨by simp [init], fun o ho => absurd ho List.not_mem_nil⟩) (fun _ _ _ _ => id) ?_ h
      trivial
  · exact hall.2.2
  · rintro ev s s' hs - ⟨hw, htr⟩ hstep
    have hmute := Mute.fine hstep hs
    refine ⟨?_, (hmute.said hw).forall_mem htr fun _ _ => id⟩
    rw [hmute.reboot]
    exact hw

def firings (e : Env) : Nat → Daemon → List (Daemon × TimerId)
  | 0, _ => []
  | n + 1, s =>
      match s.timers.exptq with
      | [] => []
      | t :: _ => (s, t) :: firings e n (fire e s t)

def fired (e : Env) (s : Daemon) : Event → List (Daemon × TimerId)
  | .age =>
      if s.timers.tq = [] then []
      else
        let due := takeDue e.arch (e.clock s.tick) s.tock
        firings e due.timers.exptq.length due
  | .fire t => if t ∈ s.timers.tq then [(s, t)] else []
  | .recv _ | .kernel _ => []

/-- The acknowledgement that is overdue is that of a neighbour off the blacklist. -/
def blames (n : Addr) (x : Daemon × TimerId) : Prop :=
  ∃ p, x.2 = .ackTimer p ∧ (x.1.rt p).destAddr = n ∧ rreqBlacklistCheck x.1 n = none

section Timers

variable {e : Env} {s : Daemon} {t : TimerId} {b : RreqBlacklist} {n : Addr}

theorem blames_unique {m : Addr} {x : Daemon × TimerId} (hm : blames m x) (hn : blames n x) :
    m = n := by
  obtain ⟨p, hp, rfl, -⟩ := hm
  obtain ⟨q, hq, rfl, -⟩ := hn
  rw [hp] at hq
  cases hq
  rfl

theorem blacklistInsert_new (h : rreqBlacklistCheck s n = none) :
    (rreqBlacklistInsert e s n).rreqBlacklists = ⟨s.brk, n⟩ :: s.rreqBlacklists := by
  rw [rreqBlacklistInsert, h]

theorem blacklistInsert_old (h : rreqBlacklistCheck s n ≠ none) : rreqBlacklistInsert e s n = s := by
  rw [rreqBlacklistInsert]
  cases hc : rreqBlacklistCheck s n with
  | none => exact absurd hc h
  | some b => rfl

/-- One timer: the blacklist gets the neighbour whose acknowledgement is
overdue, or loses an entry that has run out. -/
theorem fire_blacklists (hs : WellFormed s) (ht : Pending s.timers t) :
    (∃ n, blames n (s, t) ∧ (fire e s t).rreqBlacklists = ⟨s.brk, n⟩ :: s.rreqBlacklists) ∨
    (∃ c, t = .blTimer c ∧
      (fire e s t).rreqBlacklists = s.rreqBlacklists.filter fun x => decide (x.ptr ≠ c)) ∨
    ((∀ n, ¬ blames n (s, t)) ∧ (fire e s t).rreqBlacklists = s.rreqBlacklists) := by
  have hother (h : ∀ p, t ≠ .ackTimer p) : ∀ n, ¬ blames n (s, t) := by
    rintro n ⟨p, heq, _⟩
    exact h p heq
  by_cases hbooks : (∀ c, t ≠ .recTimer c) ∧ (∀ c, t ≠ .blTimer c) ∧ ∀ p, t ≠ .ackTimer p
  · exact .inr (.inr ⟨hother hbooks.2.2, (Books.fire hs ht hbooks.1 hbooks.2.1 hbooks.2.2).blacklists⟩)
  have hdone := fire_handled e hs ht
  generalize fire e s t = s' at hdone
  cases hdone with
  | blacklist c => exact .inr (.inl ⟨c, rfl, rfl⟩)
  | record => exact .inr (.inr ⟨hother (by simp), rfl⟩)
  | @ack p =>
      change (∃ n, _ ∧ (rreqBlacklistInsert e (pop s (.ackTimer p)) (s.rt p).destAddr).rreqBlacklists =
        _) ∨ _ ∨ _ ∧ (rreqBlacklistInsert e (pop s (.ackTimer p)) (s.rt p).destAddr).rreqBlacklists = _
      cases hc : rreqBlacklistCheck s (s.rt p).destAddr with
      | none =>
          left
          exact ⟨_, ⟨p, rfl, rfl, hc⟩, blacklistInsert_new (s := pop s (.ackTimer p)) hc⟩
      | some b =>
          right
          right
          constructor
          · rintro n ⟨q, heq, rfl, hnone⟩
            cases heq
            rw [hc] at hnone
            cases hnone
          · have hold : rreqBlacklistCheck (pop s (.ackTimer p)) (s.rt p).destAddr ≠ none := by
              change rreqBlacklistCheck s (s.rt p).destAddr ≠ none
              simp [hc]
            rw [blacklistInsert_old hold]
            rfl
  | expire | repair | delete | hello | seek | log => exact absurd ⟨by simp, by simp, by simp⟩ hbooks

theorem fire_added (hs : WellFormed s) (ht : Pending s.timers t)
    (hb : b ∈ (fire e s t).rreqBlacklists) :
    b ∈ s.rreqBlacklists ∨ blames b.destAddr (s, t) := by
  rcases fire_blacklists (e := e) hs ht with ⟨n, hn, heq⟩ | ⟨c, -, heq⟩ | ⟨-, heq⟩
  · rw [heq] at hb
    rcases List.mem_cons.1 hb with rfl | hb
    · exact .inr hn
    · exact .inl hb
  · rw [heq] at hb
    exact .inl (List.mem_filter.1 hb).1
  · rw [heq] at hb
    exact .inl hb

theorem fire_stays (hs : WellFormed s) (ht : Pending s.timers t) (hb : b ∈ s.rreqBlacklists)
    (hne : t ≠ .blTimer b.ptr) : b ∈ (fire e s t).rreqBlacklists := by
  rcases fire_blacklists (e := e) hs ht with ⟨n, -, heq⟩ | ⟨c, rfl, heq⟩ | ⟨-, heq⟩
  · rw [heq]
    exact List.mem_cons_of_mem _ hb
  · rw [heq]
    refine List.mem_filter.2 ⟨hb, ?_⟩
    simpa using fun h => hne (by rw [h])
  · rw [heq]
    exact hb

theorem drain_stays (k : Nat) (hs : WellFormed s) (hb : b ∈ s.rreqBlacklists)
    (hn : .blTimer b.ptr ∉ s.timers.exptq) : b ∈ (drain e k s).rreqBlacklists := by
  have hfire {s₁ : Daemon} {t : TimerId} (hs₁ : WellFormed s₁) (ht : t ∈ s₁.timers.exptq)
      (h : b ∈ s₁.rreqBlacklists ∧ .blTimer b.ptr ∉ s₁.timers.exptq) :
      b ∈ (fire e s₁ t).rreqBlacklists ∧ .blTimer b.ptr ∉ (fire e s₁ t).timers.exptq := by
    have hne : t ≠ .blTimer b.ptr := fun heq => h.2 (heq ▸ ht)
    have hbatch := (batch_fire (e := e) hs₁ (.inr ht)).trans (exptq_timerRemove_sublist _ t)
    exact ⟨fire_stays hs₁ (.inr ht) h.1 hne, fun hmem => h.2 (hbatch.subset hmem)⟩
  exact (drain_keeps hfire k hs ⟨hb, hn⟩).2.1

theorem drain_added (k : Nat) (hs : WellFormed s) (hb : b ∈ (drain e k s).rreqBlacklists) :
    b ∈ s.rreqBlacklists ∨ ∃ x ∈ firings e k s, blames b.destAddr x := by
  induction k generalizing s with
  | zero => exact .inl hb
  | succ k ih =>
      rw [drain] at hb
      rw [firings]
      cases hq : s.timers.exptq with
      | nil =>
          rw [hq] at hb
          exact .inl hb
      | cons t rest =>
          rw [hq] at hb
          have ht : Pending s.timers t := .inr (hq ▸ List.mem_cons_self)
          rcases ih (wellFormed_fire hs ht) hb with hmem | ⟨x, hx, hbl⟩
          · rcases fire_added hs ht hmem with hold | hbl
            · exact .inl hold
            · exact .inr ⟨(s, t), List.mem_cons_self, hbl⟩
          · exact .inr ⟨x, List.mem_cons_of_mem _ hx, hbl⟩

theorem drain_blames (k : Nat) (hs : WellFormed s) {x : Daemon × TimerId} (hx : x ∈ firings e k s)
    (hbl : blames n x) :
    ∃ b ∈ (drain e k s).rreqBlacklists, b.destAddr = n ∧ s.brk ≤ b.ptr := by
  induction k generalizing s with
  | zero => exact absurd hx List.not_mem_nil
  | succ k ih =>
      rw [firings] at hx
      rw [drain]
      cases hq : s.timers.exptq with
      | nil =>
          rw [hq] at hx
          exact absurd hx List.not_mem_nil
      | cons t rest =>
          rw [hq] at hx
          have ht : Pending s.timers t := .inr (hq ▸ List.mem_cons_self)
          have hws := wellFormed_fire (e := e) hs ht
          rcases List.mem_cons.1 hx with rfl | hx
          · have hbatch := batch_fire (e := e) hs ht
            have hfresh : TimerId.blTimer s.brk ∉ (fire e s t).timers.exptq := by
              intro hmem
              have hp := (pending_timerRemove s.timers t _).1 (.inr (hbatch.subset hmem))
              obtain ⟨b, hb, hbrk⟩ := hs.owned _ hp.1
              exact Nat.lt_irrefl _ (hbrk ▸ hs.blacklistBelow b hb)
            rcases fire_blacklists (e := e) hs ht with ⟨m, hm, heq⟩ | ⟨c, rfl, -⟩ | ⟨hno, -⟩
            · obtain rfl := blames_unique hm hbl
              refine ⟨⟨s.brk, m⟩, drain_stays k hws ?_ hfresh, rfl, Nat.le_refl _⟩
              rw [heq]
              exact List.mem_cons_self
            · obtain ⟨p, hp, -⟩ := hbl
              cases hp
            · exact absurd hbl (hno n)
          · obtain ⟨b, hb, hd, hle⟩ := ih hws hx
            have hfire : ReflTransGen (Coarse e .age) s (fire e s _) := coarses_fire hs ht
            have hbrk := (coarses_sound hfire hs).brk
            exact ⟨b, hb, hd, Nat.le_trans hbrk hle⟩

end Timers

def Adds (e : Env) (s : Daemon) (ev : Event) (n : Addr) : Prop :=
  ∃ b ∈ (step e s ev).rreqBlacklists, b ∉ s.rreqBlacklists ∧ b.destAddr = n

section Insertions

variable {e : Env} {s : Daemon} {n : Addr}

theorem not_adds {ev : Event} (h : (step e s ev).rreqBlacklists = s.rreqBlacklists) :
    ¬ Adds e s ev n := by
  rintro ⟨b, hb, hnew, -⟩
  rw [h] at hb
  exact hnew hb

theorem read_blacklists (hs : WellFormed s) (pkt : Packet) :
    (step e s (.recv pkt)).rreqBlacklists = s.rreqBlacklists := by
  by_cases h : Duplicates.Accepted e s pkt
  · rw [(Duplicates.read_accepted h).blacklists, Duplicates.recorded_eq h.2]
    exact (Books.neighborAdd e s pkt.src).blacklists
  · exact (Duplicates.read_refused hs h).blacklists

theorem adds_age (hs : Resting s) : Adds e s .age n ↔ ∃ x ∈ fired e s .age, blames n x := by
  have hage : step e s .age = if s.timers.tq = [] then s.tock
      else timerTimeout e (e.clock s.tick) s.tock := rfl
  by_cases hempty : s.timers.tq = []
  · rw [if_pos hempty] at hage
    have hnone : ¬ Adds e s .age n := not_adds (by rw [hage]; rfl)
    simp [fired, hempty, hnone]
  · rw [if_neg hempty] at hage
    rw [Adds, hage, fired, if_neg hempty]
    have hws := hs.wellFormed_due e.arch (e.clock s.tick)
    constructor
    · rintro ⟨b, hb, hnew, rfl⟩
      exact (drain_added _ hws hb).resolve_left hnew
    · rintro ⟨x, hx, hbl⟩
      obtain ⟨b, hb, hd, hle⟩ := drain_blames _ hws hx hbl
      refine ⟨b, hb, fun hold => ?_, hd⟩
      exact Nat.not_le_of_lt (hs.wellFormed.blacklistBelow b hold) hle

theorem adds_fire (hs : WellFormed s) (t : TimerId) :
    Adds e s (.fire t) n ↔ ∃ x ∈ fired e s (.fire t), blames n x := by
  have hstep : step e s (.fire t) = if t ∈ s.timers.tq then fire e s t else s := rfl
  by_cases ht : t ∈ s.timers.tq
  · have hone : (∃ x ∈ [(s, t)], blames n x) ↔ blames n (s, t) := by simp
    rw [Adds, hstep, if_pos ht, fired, if_pos ht, hone]
    constructor
    · rintro ⟨b, hb, hnew, rfl⟩
      exact (fire_added hs (.inl ht) hb).resolve_left hnew
    · intro hbl
      rcases fire_blacklists (e := e) hs (.inl ht) with ⟨m, hm, heq⟩ | ⟨c, rfl, -⟩ | ⟨hno, -⟩
      · rw [heq]
        refine ⟨_, List.mem_cons_self, fun hold => ?_, blames_unique hm hbl⟩
        exact Nat.lt_irrefl _ (hs.blacklistBelow _ hold)
      · obtain ⟨p, hp, -⟩ := hbl
        cases hp
      · exact absurd hbl (hno n)
  · have hnone : ¬ Adds e s (.fire t) n := not_adds (by rw [hstep, if_neg ht])
    simp [fired, ht, hnone]

theorem adds_iff (hs : Resting s) (ev : Event) :
    Adds e s ev n ↔ ∃ x ∈ fired e s ev, blames n x := by
  cases ev with
  | recv pkt => simp [fired, not_adds (read_blacklists hs.wellFormed pkt)]
  | kernel m =>
      have hsame : (step e s (.kernel m)).rreqBlacklists = s.rreqBlacklists :=
        (Books.kernel e s m).blacklists
      simp [fired, not_adds hsame]
  | age => exact adds_age hs
  | fire t => exact adds_fire hs.wellFormed t

end Insertions

def wantsAck (n : Addr) : Obs → Bool
  | .socketSend _ dest _ _ (some bytes) =>
      decide (dest = n ∧ bytes[0]? = some aodvRrep) && (bytes.getD 1 0).getLsbD 1
  | _ => false

theorem rrepSent_of_wantsAck {n : Addr} {o : Obs} (h : wantsAck n o = true) : rrepSent o = true := by
  cases o with
  | socketSend msg dest len ttl sent =>
      cases sent with
      | none => cases h
      | some bytes =>
          have hboth : (dest = n ∧ bytes[0]? = some aodvRrep) ∧ (bytes.getD 1 0).getLsbD 1 = true := by
            simpa [wantsAck] using h
          exact decide_eq_true hboth.1.2
  | _ => cases h

/-- What was to be before the event ev that ends the run es: one event in which
an RREP asked n for an acknowledgement, early enough before ev, and none from
then on in which the RREP_ACK of n was processed. -/
def Justified (e : Env) (s : Daemon) (es : List Event) (ev : Event) (n : Addr) : Prop :=
  ∃ es₁ ev₁ es₂, es = es₁ ++ ev₁ :: es₂ ∧
    (∃ o ∈ since (run e s es₁) (run e s (es₁ ++ [ev₁])), wantsAck n o = true) ∧
    (∃ k k', (run e s es₁).tick ≤ k ∧ k ≤ (run e s (es₁ ++ [ev₁])).tick ∧
      (run e s es).tick ≤ k' ∧ k' ≤ (run e s (es ++ [ev])).tick ∧
      micros (e.clock k) + (nextHopWait - 1) * 1000 ≤ micros (e.clock k')) ∧
    ∀ ev' ∈ es₂, Acknowledged.acks s.host.ipaddr n ev' = false

theorem not_justified (e : Env) (ipaddr broadcast : Addr) (ifindex : Int) (es : List Event) (ev : Event)
    (n : Addr) : ¬ Justified e (init e ipaddr broadcast ifindex) es ev n := by
  rintro ⟨es₁, ev₁, es₂, -, ⟨o, ho, hwants⟩, -, -⟩
  have hreach : Reachable e (run e (init e ipaddr broadcast ifindex) (es₁ ++ [ev₁])) :=
    ⟨ipaddr, broadcast, ifindex, _, rfl⟩
  have hnever := never_sent hreach o (List.mem_of_mem_take ho)
  rw [rrepSent_of_wantsAck hwants] at hnever
  cases hnever

/-- In a run all insertions are justified if and only if no acknowledgement
runs out in it while its neighbour is off the blacklist. -/
theorem blacklisted_justified_iff (e : Env) (ipaddr broadcast : Addr) (ifindex : Int)
    (es : List Event) :
    let s := init e ipaddr broadcast ifindex
    (∀ es₁ ev es₂ n, es = es₁ ++ ev :: es₂ → Adds e (run e s es₁) ev n → Justified e s es₁ ev n) ↔
      ∀ es₁ ev es₂, es = es₁ ++ ev :: es₂ →
        ∀ x ∈ fired e (run e s es₁) ev, ∀ n, ¬ blames n x := by
  intro s
  have hrest (es₁ : List Event) : Resting (run e s es₁) :=
    Reachable.resting ⟨ipaddr, broadcast, ifindex, es₁, rfl⟩
  constructor
  · intro hall es₁ ev es₂ hes x hx n hbl
    have hadds := (adds_iff (hrest es₁) ev).2 ⟨x, hx, hbl⟩
    exact not_justified e ipaddr broadcast ifindex es₁ ev n (hall es₁ ev es₂ n hes hadds)
  · intro hnone es₁ ev es₂ n hes hadds
    obtain ⟨x, hx, hbl⟩ := (adds_iff (hrest es₁) ev).1 hadds
    exact absurd hbl (hnone es₁ ev es₂ hes x hx n)

/-- The clock of plain, 20 ms further on at each reading. -/
def slow : Env := { plain with clock := fun n => ⟨n / 50, n % 50 * 20000⟩ }

def passing : List Event := Acknowledged.asked ++ [.age]

def blamed : Daemon := run slow (init slow 0x0100000a 0xff00000a 2) passing

/-- 10.0.0.2 is blacklisted for an RREP that it was never sent. -/
theorem blacklisted_unasked : ¬ ∀ es₁ ev es₂ n, passing ++ [.age] = es₁ ++ ev :: es₂ →
    Adds slow (run slow (init slow 0x0100000a 0xff00000a 2) es₁) ev n →
      Justified slow (init slow 0x0100000a 0xff00000a 2) es₁ ev n := by
  intro hall
  have hnew : (step slow blamed .age).rreqBlacklists = [⟨4, 0x0200000a⟩] := by decide +kernel
  have hold : blamed.rreqBlacklists = [] := by decide +kernel
  have hadds : Adds slow blamed .age 0x0200000a := by
    refine ⟨⟨4, 0x0200000a⟩, ?_, ?_, rfl⟩
    · rw [hnew]
      exact List.mem_singleton_self _
    · rw [hold]
      exact List.not_mem_nil
  exact not_justified slow _ _ _ passing .age _ (hall passing .age [] _ rfl hadds)

end Aodv.Blacklist
