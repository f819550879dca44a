import Aodv.Duplicates
import Aodv.ReceivedBytes
import Aodv.Ranks

namespace Aodv.Mesh

open Lib.Bytes
open Relation

/-- The datagram is an RERR that takes routes down, or an RREQ. An RREQ that is
passed on offers a longer route than its sender has noted. -/
inductive Backs (own : Addr) (K : Addr → Int → Prop) (ttl : U8) (b : Buf) : Prop
  | rerr (ht : b 0 = aodvRerr) (hn : (b 1).getLsbD 0 = false)
  | rreq (ht : b 0 = aodvRreq) (hops : (rreqOf b).hopcnt.toNat ≤ 254)
      (httl : (rreqOf b).hopcnt.toNat + ttl.toNat ≤ 255)
      (hk : (rreqOf b).origAddr = own ∨
        ∃ x, K (rreqOf b).origAddr x ∧ rank .valid (rreqOf b).origSeqno (rreqOf b).hopcnt ≤ x)

/-- What is sent is so, for whoever reads it into a buffer of RECE_BUF_SIZE bytes. -/
def Honest (own : Addr) (K : Addr → Int → Prop) : Obs → Prop
  | .socketSend _ _ _ ttl (some bytes) =>
      ∀ b, ReceivedBytes.Received (bytes.take receBufSize) b → Backs own K (BitVec.ofInt 8 ttl) b
  | o => obeys o = true

structure Opened (s : Daemon) : Prop where
  type : s.sendBuf 0 = aodvRerr
  delete : (s.sendBuf 1).getLsbD 0 = false

/-- The RERR of the loops, when there is one, is in the send buffer, which is
else as it was. -/
def Drafted (buf : Buf) (b : RerrBuild) : Prop :=
  b.rerr = none ∧ b.s.sendBuf = buf ∨ Opened b.s

section Sends

variable {own : Addr} {K : Addr → Int → Prop} {e : Env} {s s' : Daemon} {p : Ptr} {buf : Buf}
  {b : RerrBuild}

theorem Backs.mono {K' : Addr → Int → Prop} {ttl : U8} (h : Backs own K ttl buf)
    (hk : ∀ d x, K d x → K' d x) : Backs own K' ttl buf := by
  cases h with
  | rerr ht hn => exact .rerr ht hn
  | rreq ht hops httl h =>
      refine .rreq ht hops httl (h.imp id ?_)
      rintro ⟨x, hx, hle⟩
      exact ⟨x, hk _ _ hx, hle⟩

theorem Honest.mono {K' : Addr → Int → Prop} {o : Obs} (h : Honest own K o)
    (hk : ∀ d x, K d x → K' d x) : Honest own K' o := by
  cases o with
  | socketSend msg dest len ttl sent =>
      cases sent with
      | none => rfl
      | some bytes => exact fun b hb => (h b hb).mono hk
  | _ => exact h

theorem Honest.obeys {o : Obs} (h : Honest own K o) : obeys o = true := by
  cases o with
  | socketSend => rfl
  | _ => exact h

theorem honest_nl {o : Obs} (h : NlObs o) : Honest own K o := by
  cases h <;> rfl

theorem honest_route {o : Obs} (h : RouteObs o) : Honest own K o := by
  cases h <;> rfl

theorem honest_send (msg : Msg) (dest : Addr) (len ttl : Int)
    (h : ∀ b, (∀ i, i < len.toNat → i < receBufSize → b i = s.sendBuf i) →
      ¬ (s.waitOnReboot ≠ 0 ∧ s.sendBuf 0 = aodvRrep) → Backs own K (BitVec.ofInt 8 ttl) b) :
    Said (Honest own K) s (aodvSocketSend e s msg dest len ttl) := by
  refine .one rfl ?_
  cases hsent : (sendOutcome e s dest len.toNat).sent with
  | none => rfl
  | some bytes =>
      obtain ⟨rfl, hpass⟩ := sendOutcome_sent e s dest len.toNat bytes hsent
      intro b hb
      refine h b (fun i hi hi' => ?_) hpass
      have hlt : i < ((take s.sendBuf len.toNat).take receBufSize).length := by
        rw [List.length_take, take_length]
        exact lt_min hi' hi
      rw [hb.byte hlt, List.getElem_take]
      simp [take]

theorem backs_opened {ttl : U8} {b : Buf} {len : Nat} (h : Opened s) (hlen : 2 ≤ len)
    (hb : ∀ i, i < len → i < receBufSize → b i = s.sendBuf i) : Backs own K ttl b := by
  refine .rerr ?_ ?_
  · rw [hb 0 (by omega) (by decide)]
    exact h.type
  · rw [hb 1 (by omega) (by decide)]
    exact h.delete

theorem rerr_said (h : Opened s) (m : RERR) (dest : Addr) :
    Said (Honest own K) s (aodvSocketSend e s (.rerr m) dest (rerrCalcSize (s.sendBuf 3)) 1) := by
  refine honest_send _ _ _ _ fun b hb _ => backs_opened h ?_ hb
  rw [rerrCalcSize]
  omega

theorem Opened.same (h : Opened s) (hs : s'.sendBuf = s.sendBuf) : Opened s' :=
  ⟨hs ▸ h.type, hs ▸ h.delete⟩

theorem opened_create (s : Daemon) (dest : Addr) (seqno : U32) :
    Opened (rerrCreate s false dest seqno).1 := by
  constructor
  · change store (storeUdest (rerrHeader false) (udestOffset 0) (dest, seqno)) 3 1 0 = aodvRerr
    rw [store_apply_of_ne _ _ _ _ (by decide), storeUdest_below _ _ (by decide)]
    rfl
  · change (store (storeUdest (rerrHeader false) (udestOffset 0) (dest, seqno)) 3 1 1).getLsbD 0 =
      false
    rw [store_apply_of_ne _ _ _ _ (by decide), storeUdest_below _ _ (by decide)]
    rfl

theorem opened_add (h : Opened s) (m : RERR) (dest : Addr) (seqno : U32) :
    Opened (rerrAddUdest s m dest seqno).1 := by
  have hoff : 4 ≤ (rerrCalcSize (s.sendBuf 3)).toNat := by
    rw [rerrCalcSize]
    omega
  have hbyte (i : Nat) (hi : i < 3) : (rerrAddUdest s m dest seqno).1.sendBuf i = s.sendBuf i := by
    change store (storeUdest s.sendBuf _ (dest, seqno)) 3 (s.sendBuf 3 + 1) i = _
    rw [store_apply_of_ne _ _ _ _ (by omega), storeUdest_below _ _ (by omega)]
  constructor
  · rw [hbyte 0 (by decide)]
    exact h.type
  · rw [hbyte 1 (by decide)]
    exact h.delete

theorem Drafted.opened (h : Drafted buf b) {m : RERR} (hm : b.rerr = some m) : Opened b.s := by
  rcases h with ⟨hnone, -⟩ | h
  · rw [hm] at hnone
    cases hnone
  · exact h

theorem Drafted.same {b' : RerrBuild} (h : Drafted buf b) (hr : b'.rerr = b.rerr)
    (hs : b'.s.sendBuf = b.s.sendBuf) : Drafted buf b' := by
  rcases h with ⟨hnone, hbuf⟩ | h
  · exact .inl ⟨hr.trans hnone, hs.trans hbuf⟩
  · exact .inr (h.same hs)

theorem drafted_list (h : Drafted buf b) (p : Ptr) : Drafted buf (rerrList b false p) := by
  rw [rerrList]
  cases hr : b.rerr with
  | none => exact .inr (opened_create b.s _ _)
  | some m => exact .inr (opened_add (h.opened hr) m _ _)

theorem invalidate_honest (e : Env) (s : Daemon) (p : Ptr) :
    Said (Honest own K) s (rtTableInvalidate e s p) :=
  (invalidate_said e s p).mono fun _ => honest_route

structure Drafts (own : Addr) (K : Addr → Int → Prop) (buf : Buf) (b b' : RerrBuild) : Prop where
  said : Said (Honest own K) b.s b'.s
  drafted : Drafted buf b'

theorem Drafts.refl (h : Drafted buf b) : Drafts own K buf b b := ⟨.same rfl, h⟩

theorem Drafts.trans {b' b'' : RerrBuild} (h : Drafts own K buf b b')
    (h' : Drafts own K buf b' b'') : Drafts own K buf b b'' := ⟨h.said.trans h'.said, h'.drafted⟩

theorem drafts_list (h : Drafted buf b) (p : Ptr) : Drafts own K buf b (rerrList b false p) :=
  ⟨.same (trace_rerrList b false p), drafted_list h p⟩

theorem drafts_destroy (h : Drafted buf b) (p : Ptr) :
    Drafts own K buf b { b with s := precursorListDestroy b.s p } :=
  ⟨.same rfl, h.same rfl rfl⟩

theorem drafts_linkBreakStep (e : Env) (p : Ptr) (h : Drafted buf b) (q : Ptr) :
    Drafts own K buf b (linkBreakStep e p b q) := by
  rw [linkBreakStep]
  split
  · dsimp only
    split
    · have hmark : Said (Honest own K) _ _ := invalidate_honest e (markRepair b.s q) q
      exact ⟨hmark, h.same rfl (sendBuf_invalidate e (markRepair b.s q) q)⟩
    · have hdown : Drafts own K buf b { b with s := rtTableInvalidate e b.s q } :=
        ⟨invalidate_honest e b.s q, h.same rfl (sendBuf_invalidate e b.s q)⟩
      split
      · have hlist := hdown.trans (drafts_list hdown.drafted q)
        exact hlist.trans (drafts_destroy hlist.drafted q)
      · exact hdown.trans (drafts_destroy hdown.drafted q)
  · exact .refl h

theorem drafts_foldl (e : Env) (p : Ptr) (l : List Ptr) (h : Drafted buf b) :
    Drafts own K buf b (l.foldl (linkBreakStep e p) b) := by
  induction l generalizing b with
  | nil => exact .refl h
  | cons q l ih =>
      have hstep : Drafts own K buf b _ := drafts_linkBreakStep e p h q
      exact hstep.trans (ih hstep.drafted)

theorem drafts_linkBreakSelf (e : Env) (s : Daemon) (p : Ptr) :
    Drafts own K s.sendBuf ⟨s, none, 0⟩ (linkBreakSelf e s p) := by
  have hdown : Drafts own K s.sendBuf ⟨s, none, 0⟩ ⟨rtTableInvalidate e s p, none, 0⟩ :=
    ⟨invalidate_honest e s p, .inl ⟨rfl, sendBuf_invalidate e s p⟩⟩
  rw [linkBreakSelf]
  dsimp only
  split
  · have hlist := hdown.trans (drafts_list hdown.drafted p)
    split
    · exact hlist
    · exact hlist.trans (drafts_destroy hlist.drafted p)
  · split
    · exact hdown
    · exact hdown.trans (drafts_destroy hdown.drafted p)

theorem linkBreak_honest (e : Env) (s : Daemon) (p : Ptr) :
    Said (Honest own K) s (neighborLinkBreak e s p) ∧
      ((neighborLinkBreak e s p).sendBuf = s.sendBuf ∨ Opened (neighborLinkBreak e s p)) := by
  rw [neighborLinkBreak]
  split
  · exact ⟨.same rfl, .inl rfl⟩
  · have hself : Drafts own K s.sendBuf ⟨s, none, 0⟩ _ := drafts_linkBreakSelf e s p
    have hloop := hself.trans (drafts_foldl e p (linkBreakSelf e s p).s.linked hself.drafted)
    dsimp only
    generalize (linkBreakSelf e s p).s.linked.foldl (linkBreakStep e p) (linkBreakSelf e s p) = b at *
    rw [linkBreakSend]
    cases hr : b.rerr with
    | none =>
        refine ⟨hloop.said, ?_⟩
        rcases hloop.drafted with ⟨-, hbuf⟩ | hopen
        · exact .inl hbuf
        · exact .inr hopen
    | some m =>
        have hopen := hloop.drafted.opened hr
        exact ⟨hloop.said.trans (rerr_said hopen m _), .inr ⟨hopen.type, hopen.delete⟩⟩

theorem insert_honest (e : Env) (s : Daemon) (dest next : Addr) (hops seqno lifetime : U32)
    (state : RtState) (flags : RtFlags) :
    Said (Honest own K) s (rtTableInsert e s dest next hops seqno lifetime state flags).1 :=
  insert_told (.of_nl fun _ => honest_nl) e s rfl

theorem updateBreak_honest (e : Env) (s : Daemon) (p : Ptr) (hops : U32) :
    Said (Honest own K) s (updateBreak e s p hops) := by
  rw [updateBreak]
  dsimp only
  split
  · exact (linkBreak_honest e (pop (s.setRt p { s.rt p with
      lastHelloTime := ⟨0, 0⟩, helloCnt := 0 }) (.helloTimer p)) p).1
  · exact .same rfl

theorem update_honest (e : Env) (s : Daemon) (p : Ptr) (next : Addr) (hops seqno lifetime : U32)
    (state : RtState) (flags : RtFlags) :
    Said (Honest own K) s (rtTableUpdate e s p next hops seqno lifetime state flags) := by
  have hobs : Said (Honest own K) s
      (s.observe (.rtUpdate p (s.rt p) next hops seqno lifetime state flags)) := .one rfl rfl
  have hbegin := hobs.trans ((updateBegin_said e _ p next hops lifetime state flags).mono
    fun _ => honest_nl)
  rw [rtTableUpdate]
  exact (hbegin.trans (updateBreak_honest e _ p hops)).trans
    (.same (updateFinish_trace e _ p next hops seqno lifetime state _))

theorem trace_neighborRefresh (e : Env) (s : Daemon) (p : Ptr) (now : Timeval) :
    (neighborRefresh e s p now).trace = s.trace := by
  rw [neighborRefresh]
  split <;> rfl

theorem neighborAdd_honest (e : Env) (s : Daemon) (src : Addr) :
    Said (Honest own K) s (neighborAdd e s src) := by
  rw [neighborAdd]
  dsimp only
  cases rtTableCheck s.tock.rtTbl src with
  | none =>
      have hins : Said (Honest own K) s.tock _ := insert_honest e s.tock src src 1 0
        (u32 activeRouteTimeout) .valid .zero
      dsimp only
      obtain ⟨s₁, o, hi⟩ : ∃ s₁ o, rtTableInsert e s.tock src src 1 0 (u32 activeRouteTimeout) .valid
          .zero = (s₁, o) := ⟨_, _, rfl⟩
      rw [hi] at hins ⊢
      cases o with
      | none => exact hins
      | some p => exact hins.trans (.same (trace_neighborRefresh e s₁ p _))
  | some p =>
      dsimp only
      split
      · exact .same rfl
      · have hupdate : Said (Honest own K) s.tock _ := update_honest e s.tock p src 1
          (s.tock.rt p).destSeqno (u32 activeRouteTimeout) .valid (s.tock.rt p).flags
        exact hupdate.trans (.same (trace_neighborRefresh e _ p _))

theorem drafts_report (h : Drafted buf b) (p : Ptr) :
    Drafts own K buf b (rerrReport b false p) := by
  rw [rerrReport]
  split
  · have hlist : Drafts own K buf b _ := drafts_list h p
    split
    · exact hlist.trans (drafts_destroy hlist.drafted p)
    · exact hlist
  · split
    · exact drafts_destroy h p
    · exact .refl h

theorem drafts_rerrStep (e : Env) (src : Addr) (h : Drafted buf b) (udest : Addr × U32) :
    Drafts own K buf b (rerrStep e false src b udest) := by
  rw [rerrStep]
  cases rerrHits b.s src udest with
  | none => exact .refl h
  | some p =>
      dsimp only
      rw [if_neg Bool.false_ne_true]
      have hdown : Said (Honest own K) b.s _ := invalidate_honest e b.s p
      have hbuf := sendBuf_invalidate e b.s p
      have hi := state_invalidate e b.s p
      generalize rtTableInvalidate e b.s p = s₁ at hdown hbuf hi
      have hobs : Said (Honest own K) s₁ ((s₁.observe (.rerrSeqno p (s₁.rt p) udest.2)).setRt p
          { s₁.rt p with destSeqno := udest.2 }) := .one rfl (decide_eq_true hi)
      have hset : Drafts own K buf b { b with
          s := (s₁.observe (.rerrSeqno p (s₁.rt p) udest.2)).setRt p
            { s₁.rt p with destSeqno := udest.2 } } := ⟨hdown.trans hobs, h.same rfl hbuf⟩
      exact hset.trans (drafts_report hset.drafted p)

theorem rerr_honest (e : Env) (s : Daemon) {buf : Buf} (hn : (buf 1).getLsbD 0 = false) (len : Nat)
    (src : Addr) : Said (Honest own K) s (rerrProcess e s buf len src) := by
  have hloop (l : List (Addr × U32)) (b : RerrBuild) (h : Drafted s.sendBuf b) :
      Drafts own K s.sendBuf b (l.foldl (rerrStep e false src) b) := by
    induction l generalizing b with
    | nil => exact .refl h
    | cons u l ih =>
        have hstep : Drafts own K s.sendBuf b _ := drafts_rerrStep e src h u
        exact hstep.trans (ih _ hstep.drafted)
  rw [rerrProcess]
  split
  · exact .same rfl
  · rw [hn]
    have hall := hloop (listed buf) ⟨s, none, 0⟩ (.inl ⟨rfl, rfl⟩)
    dsimp only
    generalize (listed buf).foldl (rerrStep e false src) ⟨s, none, 0⟩ = b at *
    refine hall.said.trans ?_
    rw [rerrReply]
    cases hr : b.rerr with
    | none => exact .same rfl
    | some m =>
        have hopen := hall.drafted.opened hr
        dsimp only
        split
        · cases rtTableCheck b.s.rtTbl b.unicast with
          | none => exact .same rfl
          | some q => exact rerr_said hopen m _
        · exact rerr_said hopen m _

theorem loadLE_storeBE_after (b : Buf) (off : Nat) (v w : U32) :
    loadLE (storeBE (storeLE b off v) (off + 4) w) off = v := by
  have hread : loadLE (storeBE (storeLE b off v) (off + 4) w) off = loadLE (storeLE b off v) off :=
    loadLE_congr fun i _ hi => storeBE_apply_of_disjoint _ _ _ _ (.inl hi)
  rw [hread, loadLE_storeLE]

theorem rreqBuf_fields (m : RREQ) :
    rreqBuf m 0 = aodvRreq ∧ (rreqOf (rreqBuf m)).hopcnt = m.hopcnt ∧
      (rreqOf (rreqBuf m)).origAddr = m.origAddr := by
  have hlow (i : Nat) (hi : i < 4) : rreqBuf m i =
      store (store (store zeroed 0 aodvRreq) 1 (rreqFlagByte m)) 3 m.hopcnt i := by
    rw [rreqBuf]
    rw [storeBE_apply_of_disjoint _ _ _ _ (by omega), storeLE_apply_of_disjoint _ _ _ _ (by omega),
      storeBE_apply_of_disjoint _ _ _ _ (by omega), storeLE_apply_of_disjoint _ _ _ _ (by omega),
      storeBE_apply_of_disjoint _ _ _ _ (by omega)]
  refine ⟨?_, ?_, ?_⟩
  · rw [hlow 0 (by decide)]
    rfl
  · exact hlow 3 (by decide)
  · exact loadLE_storeBE_after _ 16 m.origAddr m.origSeqno

theorem rreqSend_honest (e : Env) (s : Daemon) (dest : Addr) (seqno : U32) (ttl : Int) (flags : U8) :
    Said (Honest s.host.ipaddr K) s (rreqSend e s dest seqno ttl flags) := by
  rw [rreqSend]
  split
  · let m : RREQ := (rreqCreate s flags dest seqno s.host.ipaddr).2
    have hcreate : Said (Honest s.host.ipaddr K) s (rreqCreate s flags dest seqno s.host.ipaddr).1 :=
      .same rfl
    obtain ⟨htype, hhops, horig⟩ := rreqBuf_fields m
    refine hcreate.trans (honest_send _ _ _ _ fun b hb _ => ?_)
    have hagree : ReceivedBytes.Agree rreqSize b (rreqBuf m) :=
      fun i hi => hb i hi (Nat.lt_of_lt_of_le hi (by decide))
    have hread : rreqOf b = rreqOf (rreqBuf m) := ReceivedBytes.rreqOf_congr hagree (Nat.le_refl _)
    have hzero : (rreqOf b).hopcnt = 0 := by
      rw [hread, hhops]
      rfl
    have hfirst : b 0 = aodvRreq := (hagree 0 (by decide)).trans htype
    refine .rreq hfirst ?_ ?_ (.inl ?_)
    · rw [hzero]
      decide
    · rw [hzero]
      have hbyte := (BitVec.ofInt 8 ttl).isLt
      have hnone : (0 : U8).toNat = 0 := rfl
      omega
    · rw [hread, horig]
      rfl
  · exact .same rfl

theorem expire_honest (e : Env) (s : Daemon) (p : Ptr) :
    Said (Honest own K) s (routeExpireTimeout e s p) := by
  rw [routeExpireTimeout]
  split
  · exact (linkBreak_honest e s p).1
  · exact (invalidate_honest e s p).trans (.same rfl)

theorem discovery_honest (e : Env) (s : Daemon) (dest : Addr) (flags : U8) :
    Said (Honest s.host.ipaddr K) s (rreqRouteDiscovery e s dest flags) := by
  have hsend (s : Daemon) (seqno : U32) (ttl : Int) (found : Option RtEntry) :
      Said (Honest s.host.ipaddr K) s (discoverySend e s dest seqno ttl flags found) :=
    (rreqSend_honest e s dest seqno ttl flags).trans (.one rfl rfl)
  rw [rreqRouteDiscovery]
  dsimp only
  cases seekListCheck s.tock dest with
  | some q => exact .same rfl
  | none =>
      cases rtTableCheck s.tock.rtTbl dest with
      | none => exact hsend s.tock _ _ _
      | some p =>
          obtain ⟨q, n, heq⟩ := seekRefresh_eq e s.tock p (e.clock s.tick)
          dsimp only
          rw [heq]
          exact hsend { s.tock with timers := q, tick := n } _ _ _

theorem localRepair_honest (e : Env) (s : Daemon) (p : Ptr) (src : Addr) :
    Said (Honest s.host.ipaddr K) s (rreqLocalRepair e s p src) := by
  rw [rreqLocalRepair]
  split
  · exact .same rfl
  · split
    · exact .same rfl
    · dsimp only
      have hstart : Said (Honest s.host.ipaddr K) s (repairStart s.tock p) := .one rfl rfl
      obtain ⟨q, n, heq⟩ := seekRefresh_eq e (repairStart s.tock p) p (e.clock s.tick)
      rw [heq]
      exact hstart.trans ((rreqSend_honest e { repairStart s.tock p with timers := q, tick := n }
        _ _ _ 0).trans (.same rfl))

theorem refreshes_said {P : Obs → Prop} (h : ReflTransGen (Refreshes e) s s') : Said P s s' := by
  induction h with
  | refl => exact .same rfl
  | tail _ hstep ih =>
      obtain ⟨p, _, rfl⟩ := hstep
      exact ih.trans (updateTimeout_said e _ p _)

theorem sendRerr_honest (e : Env) (s : Daemon) (src dest : Addr) :
    Said (Honest own K) s (sendRerr e s src dest) := by
  have hfor : Said (Honest own K) s (rerrFor e s dest).1 ∧ Opened (rerrFor e s dest).1 := by
    rw [rerrFor]
    cases rtTableCheck s.rtTbl dest with
    | none => exact ⟨.same rfl, opened_create s dest 0⟩
    | some f =>
        have hopen := opened_create s (s.rt f).destAddr (s.rt f).destSeqno
        obtain ⟨q, n, heq⟩ := updateTimeout_eq e
          (rerrCreate s false (s.rt f).destAddr (s.rt f).destSeqno).1 f (u32 deletePeriod)
        dsimp only
        rw [heq]
        exact ⟨.same rfl, hopen.type, hopen.delete⟩
  rw [sendRerr]
  dsimp only
  have hsend := hfor.1.trans (rerr_said (e := e) hfor.2 (rerrFor e s dest).2
    (rerrTarget (rerrFor e s dest).1 (rtTableCheck s.rtTbl src)))
  split
  · exact hsend.trans (.same rfl)
  · exact hsend

theorem kernel_honest (e : Env) (s : Daemon) (m : KernelMsg) :
    Said (Honest s.host.ipaddr K) s (nlKaodvCallback e s m) := by
  have hdone := kernel_ledTo e s m
  generalize nlKaodvCallback e s m = s' at hdone
  cases hdone with
  | nothing => exact .same rfl
  | expire => exact expire_honest e s _
  | discover dest => exact discovery_honest e s dest 0
  | repair src => exact localRepair_honest e s _ src
  | refresh h => exact refreshes_said h
  | report src dest => exact sendRerr_honest e s src dest

theorem repairTimeout_honest (e : Env) (s : Daemon) (p : Ptr) :
    Said (Honest own K) s (localRepairTimeout e s p) := by
  have hover : Said (Honest own K) s (repairOver e s p) :=
    (delRoute_said e (s.setRt p _) _ _ _).mono fun _ => honest_nl
  have hreport : Said (Honest own K) (repairOver e s p) (repairReport e (repairOver e s p) p) := by
    rw [repairReport]
    dsimp only
    split
    · exact rerr_said (opened_create (repairOver e s p) _ _) _ _
    · exact .same rfl
  exact hover.trans (hreport.trans (.same rfl))

theorem helloTimeout_honest (e : Env) (s : Daemon) (p : Ptr) :
    Said (Honest own K) s (helloTimeout e s p) := by
  rw [helloTimeout]
  dsimp only
  split
  · split
    · exact (linkBreak_honest e (markRepair s.tock p) p).1
    · exact (linkBreak_honest e s.tock p).1
  · exact .same rfl

theorem discoveryTimeout_honest (e : Env) (s : Daemon) (q : Ptr) :
    Said (Honest s.host.ipaddr K) s (routeDiscoveryTimeout e s q) := by
  have hsend (s : Daemon) : Said (Honest s.host.ipaddr K) s (seekSend e s q) :=
    (rreqSend_honest e s _ _ _ _).trans (.one rfl rfl)
  rw [routeDiscoveryTimeout]
  split
  · have hrearm : (seekRearm e s.tock q).host = s.host ∧ (seekRearm e s.tock q).trace = s.trace := by
      rw [seekRearm]
      dsimp only
      split <;> exact ⟨rfl, rfl⟩
    obtain ⟨k, n, heq⟩ := refreshSought_eq e (seekRearm e s.tock q) (s.tock.seek q).destAddr
      (e.clock s.tick)
    have hagain := hsend { seekRearm e s.tock q with timers := k, tick := n }
    rw [seekAgain, heq]
    rw [hrearm.1] at hagain
    exact Said.trans (.same hrearm.2) hagain
  · have hfail : Said (Honest s.host.ipaddr K) s (s.tock.observe (.discoveryFailed q)) := .one rfl rfl
    have hnone := hfail.trans ((noRoute_said e (s.tock.observe (.discoveryFailed q))
      (s.tock.seek q).destAddr).mono fun _ => honest_nl)
    rw [seekGiveUp]
    refine hnone.trans ?_
    split
    · exact .same rfl
    · split
      · exact (repairTimeout_honest e (seekListRemove (nlSendNoRouteFoundMsg e
          (s.tock.observe (.discoveryFailed q)) (s.tock.seek q).destAddr) (some q)) _)
      · exact .same rfl

theorem fire_honest (e : Env) {t : TimerId} (hs : WellFormed s) (ht : Pending s.timers t) :
    Said (Honest s.host.ipaddr K) s (fire e s t) := by
  have hpop : Said (Honest s.host.ipaddr K) s (pop s t) := .same rfl
  have hdone := fire_handled e hs ht
  generalize fire e s t = s' at hdone
  refine hpop.trans ?_
  cases hdone with
  | expire => exact expire_honest e _ _
  | repair => exact repairTimeout_honest e _ _
  | delete => exact (delete_said e _ _).mono fun _ => honest_nl
  | hello => exact helloTimeout_honest e _ _
  | seek => exact discoveryTimeout_honest e _ _
  | ack =>
      refine .same ?_
      rw [rrepAckTimeout, rreqBlacklistInsert]
      split <;> rfl
  | record | blacklist => exact .same rfl
  | log =>
      refine .same ?_
      rw [printRtTable]
      split <;> rfl

theorem drain_honest (e : Env) (n : Nat) (hs : WellFormed s) :
    Said (Honest s.host.ipaddr K) s (drain e n s) := by
  have hfire {s₁ : Daemon} {t : TimerId} (hs₁ : WellFormed s₁) (ht : t ∈ s₁.timers.exptq)
      (h : s₁.host.ipaddr = s.host.ipaddr ∧ Said (Honest s.host.ipaddr K) s s₁) :
      (fire e s₁ t).host.ipaddr = s.host.ipaddr ∧
        Said (Honest s.host.ipaddr K) s (fire e s₁ t) := by
    have hrun : ReflTransGen (Coarse e .age) s₁ (fire e s₁ t) := coarses_fire hs₁ (.inr ht)
    have hsaid : Said (Honest s₁.host.ipaddr K) s₁ (fire e s₁ t) := fire_honest e hs₁ (.inr ht)
    rw [h.1] at hsaid
    exact ⟨(coarses_sound hrun hs₁).ipaddr.trans h.1, h.2.trans hsaid⟩
  exact (drain_keeps hfire n hs ⟨rfl, .same rfl⟩).2.2

end Sends

end Aodv.Mesh
