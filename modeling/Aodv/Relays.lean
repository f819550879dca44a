import Aodv.Datagrams

namespace Aodv.Mesh

open Lib.Bytes Requests Duplicates
open Relation

section Sends

variable {own : Addr} {K : Addr → Int → Prop} {e : Env} {s s' : Daemon} {p : Ptr}

theorem rrepUnidir_honest (e : Env) (s : Daemon) (rev : Ptr) :
    Said (Honest own K) s (rrepUnidir e s rev) ∧
      ((rrepUnidir e s rev).sendBuf = s.sendBuf ∨ Opened (rrepUnidir e s rev)) := by
  rw [rrepUnidir]
  split
  · cases rtTableCheck s.rtTbl (s.rt rev).nextHop with
    | none => exact ⟨.same rfl, .inl rfl⟩
    | some n =>
        dsimp only
        split
        · let s₁ := s.observe (.unidirBreak (linkBreakReports s n))
          let s₂ := s₁.setRt n { s.rt n with flags := { (s.rt n).flags with unidir := true } }
          have hmark : Said (Honest own K) s (pop s₂ (.helloTimer n)) := .one rfl rfl
          obtain ⟨hsaid, hbuf⟩ : Said (Honest own K) _ _ ∧ _ :=
            linkBreak_honest e (pop s₂ (.helloTimer n)) n
          refine ⟨(hmark.trans hsaid).trans (.same rfl), hbuf.imp id fun h => ?_⟩
          exact ⟨h.type, h.delete⟩
        · exact ⟨.same rfl, .inl rfl⟩
  · exact ⟨.same rfl, .inl rfl⟩

/-- While wait_on_reboot stands, an RREP does not leave; an RERR that has taken
its place in the send buffer does. -/
theorem rrepSend_honest (e : Env) (s : Daemon) (hw : s.waitOnReboot ≠ 0)
    (ht : s.sendBuf 0 = aodvRrep) (m : RREP)
    (rev : Ptr) (fwd : Option Ptr) : Said (Honest own K) s (rrepSend e s m rev fwd rrepSize) := by
  obtain ⟨hsaid, hbuf⟩ : Said (Honest own K) _ _ ∧ _ := rrepUnidir_honest e s rev
  have hreboot : (rrepUnidir e s rev).waitOnReboot = s.waitOnReboot := (kept_rrepUnidir e).reboot
  have hsend : Said (Honest own K) (rrepUnidir e s rev) (aodvSocketSend e (rrepUnidir e s rev)
      (.rrep m) ((rrepUnidir e s rev).rt rev).nextHop rrepSize maxTtl) := by
    refine honest_send _ _ _ _ fun b hb hpass => ?_
    rcases hbuf with hsame | hopen
    · rw [hreboot, hsame] at hpass
      exact absurd ⟨hw, ht⟩ hpass
    · exact backs_opened hopen (by decide) hb
  have hsent := hsaid.trans hsend
  cases fwd with
  | none => exact hsent
  | some f =>
      refine hsent.trans (.same ?_)
      exact (Requests.trace_precursorAdd _ _).trans (Requests.trace_precursorAdd _ _)

theorem reply_honest (e : Env) (s : Daemon) (hw : s.waitOnReboot ≠ 0) (m : RREP) (rev : Ptr)
    (fwd : Option Ptr) :
    Said (Honest own K) s (rrepSend e { s with sendBuf := rrepBuf m } m rev fwd rrepSize) := by
  have hwrite : Said (Honest own K) s { s with sendBuf := rrepBuf m } := .same rfl
  refine hwrite.trans (rrepSend_honest e { s with sendBuf := rrepBuf m } hw ?_ m rev fwd)
  have hlow : rrepBuf m 0 = aodvRrep := by
    rw [rrepBuf]
    rw [storeBE_apply_of_disjoint _ _ _ _ (by omega), storeLE_apply_of_disjoint _ _ _ _ (by omega),
      storeBE_apply_of_disjoint _ _ _ _ (by omega), storeLE_apply_of_disjoint _ _ _ _ (by omega)]
    rfl
  exact hlow

theorem forUs_honest (e : Env) (s : Daemon) (hw : s.waitOnReboot ≠ 0) (m : RREQ) (rev : Ptr) :
    Said (Honest own K) s (rreqForUs e s m rev) := by
  have hmark : Said (Honest own K) s { s.observe (.rreqForUs s.host.seqno m.destSeqno) with
      host := { s.host with seqno := ownSeqno s.host.seqno m.destSeqno } } := .one rfl rfl
  simp only [rreqForUs, rrepCreate_eq]
  exact hmark.trans (reply_honest e { s.observe (.rreqForUs s.host.seqno m.destSeqno) with
    host := { s.host with seqno := ownSeqno s.host.seqno m.destSeqno } } hw _ rev none)

theorem answer_honest (e : Env) (s : Daemon) (hw : s.waitOnReboot ≠ 0) (m : RREQ) (rev fwd : Ptr)
    (now : Timeval) :
    Said (Honest own K) s (rreqAnswer e s m rev fwd now) := by
  have hmark : Said (Honest own K) s
      (s.observe (.answer (s.timer (.rtTimer fwd)).timeout now)) := .one rfl rfl
  simp only [rreqAnswer, rrepCreate_eq]
  split
  · refine hmark.trans ((reply_honest e _ ?_ _ _ _).trans (reply_honest e _ ?_ _ _ _))
    · exact hw
    · rw [(kept_reply e _ _ _ _).reboot]
      exact hw
  · refine hmark.trans (reply_honest e _ ?_ _ _ _)
    exact hw

theorem rreqOf_hopcnt (b : Buf) (v : U8) : rreqOf (store b 3 v) = { rreqOf b with hopcnt := v } := by
  simp [rreqOf, store, loadBE, loadLE]

theorem forward_honest (e : Env) (s : Daemon) {buf : Buf} {len : Nat} {ttl : Int}
    (hlen : rreqSize ≤ len) (ht : buf 0 = aodvRreq) (hops : (rreqOf buf).hopcnt.toNat ≤ 253)
    (httl : (rreqOf buf).hopcnt.toNat + 1 + (BitVec.ofInt 8 ttl).toNat ≤ 255)
    (hk : ∃ x, K (rreqOf buf).origAddr x ∧
      rank .valid (rreqOf buf).origSeqno ((rreqOf buf).hopcnt + 1) ≤ x) :
    Said (Honest own K) s (rreqForward e s buf len ttl) := by
  have hqueue : Said (Honest own K) s { s with
      sendBuf := store (copy s.sendBuf buf len) 3 (copy s.sendBuf buf len 3 + 1) } := .same rfl
  rw [rreqForward]
  refine hqueue.trans (honest_send _ _ _ _ fun b hb _ => ?_)
  have hagree : ReceivedBytes.Agree rreqSize b (store buf 3 (buf 3 + 1)) := by
    intro i hi
    have hi' : i < len := Nat.lt_of_lt_of_le hi hlen
    have h3 : 3 < len := Nat.lt_of_lt_of_le (by decide) hlen
    rw [hb i hi' (Nat.lt_of_lt_of_le hi (by decide))]
    change store (copy s.sendBuf buf len) 3 (copy s.sendBuf buf len 3 + 1) i = _
    simp only [store, copy]
    rw [if_pos hi', if_pos h3]
  have hread : rreqOf b = { rreqOf buf with hopcnt := buf 3 + 1 } :=
    (ReceivedBytes.rreqOf_congr hagree (Nat.le_refl _)).trans (rreqOf_hopcnt buf _)
  have hhop : (rreqOf b).hopcnt = (rreqOf buf).hopcnt + 1 := by
    rw [hread]
    rfl
  have hnat : (rreqOf b).hopcnt.toNat = (rreqOf buf).hopcnt.toNat + 1 := by
    have hone : (1 : U8).toNat = 1 := rfl
    rw [hhop, BitVec.toNat_add, hone, Nat.mod_eq_of_lt (by omega)]
  have hfirst : b 0 = aodvRreq := by
    rw [hagree 0 (by decide), store_apply_of_ne _ _ _ _ (by decide)]
    exact ht
  refine .rreq hfirst (by omega) (by omega) (.inr ?_)
  rw [hhop, hread]
  exact hk

theorem passOn_honest (e : Env) (s : Daemon) {buf : Buf} {len : Nat} {ttl : U8} (m : RREQ)
    (fwd : Option Ptr) (hlen : rreqSize ≤ len) (ht : buf 0 = aodvRreq)
    (hle : (rreqOf buf).hopcnt.toNat + ttl.toNat ≤ 255)
    (hk : ∃ x, K (rreqOf buf).origAddr x ∧
      rank .valid (rreqOf buf).origSeqno ((rreqOf buf).hopcnt + 1) ≤ x) :
    Said (Honest own K) s (rreqPassOn e s buf len m fwd ttl.toNat) := by
  unfold rreqPassOn
  split
  next hmore =>
    have hbyte := ttl.isLt
    have hless : (BitVec.ofInt 8 ((ttl.toNat : Int) - 1)).toNat = ttl.toNat - 1 := by
      rw [BitVec.toNat_ofInt]
      omega
    have hsend {b : Buf} (hb : b 0 = aodvRreq) (seqno : U32)
        (hread : rreqOf b = { rreqOf buf with destSeqno := seqno }) :
        Said (Honest own K) s (rreqForward e s b len (ttl.toNat - 1)) := by
      refine forward_honest e s hlen hb ?_ ?_ ?_
      · rw [hread]
        change (rreqOf buf).hopcnt.toNat ≤ 253
        omega
      · rw [hread, hless]
        change (rreqOf buf).hopcnt.toNat + 1 + (ttl.toNat - 1) ≤ 255
        omega
      · rw [hread]
        exact hk
    cases fwd with
    | none => exact hsend ht (rreqOf buf).destSeqno rfl
    | some f =>
        dsimp only
        split
        · refine hsend ?_ (s.rt f).destSeqno (rreqOf_destSeqno buf _)
          rw [storeBE_apply_of_disjoint _ _ _ _ (by omega)]
          exact ht
        · exact hsend ht (rreqOf buf).destSeqno rfl
  · exact .same rfl

theorem route_honest (e : Env) (s : Daemon) (hw : s.waitOnReboot ≠ 0) {buf : Buf} {len : Nat}
    {ttl : U8} (m : RREQ) (rev : Ptr) (hlen : rreqSize ≤ len) (ht : buf 0 = aodvRreq)
    (hle : (rreqOf buf).hopcnt.toNat + ttl.toNat ≤ 255)
    (hk : ∃ x, K (rreqOf buf).origAddr x ∧
      rank .valid (rreqOf buf).origSeqno ((rreqOf buf).hopcnt + 1) ≤ x) :
    Said (Honest own K) s (rreqRoute e s buf len m rev ttl.toNat) := by
  rw [rreqRoute]
  dsimp only
  cases rtTableCheck s.rtTbl m.destAddr with
  | none => exact passOn_honest e s m none hlen ht hle hk
  | some f =>
      have htock : Said (Honest own K) s s.tock := .same rfl
      dsimp only
      split
      · split
        · exact htock.trans (answer_honest e s.tock hw m rev f _)
        · exact htock.trans (passOn_honest e s.tock m (some f) hlen ht hle hk)
      · exact passOn_honest e s m (some f) hlen ht hle hk

end Sends

def Noted (s : Daemon) : Prop :=
  ∀ p, Linked s.rtTbl p → rankOf (s.rt p) ∈ known (s.rt p).destAddr s.trace

section Received

variable {own : Addr} {K : Addr → Int → Prop} {e : Env} {ev : Event} {s s' : Daemon} {pkt : Packet}

theorem rank_kept {r : RtEntry} {seqno : U32} {h : U8} (hle : h.toNat ≤ 254)
    (hf : rreqFresher r seqno (h.setWidth 32 + 1) = false) :
    rank .valid seqno (h + 1) ≤ rankOf r := by
  have hone : (1 : U8).toNat = 1 := rfl
  have hnext : (h + 1).toNat = h.toNat + 1 := by
    rw [BitVec.toNat_add, hone, Nat.mod_eq_of_lt (by omega)]
  have hbyte := r.hopcnt.isLt
  simp only [rreqFresher, Bool.or_eq_false_iff, decide_eq_false_iff_not, Bool.and_eq_false_iff] at hf
  obtain ⟨⟨hr, hlt⟩, heq⟩ := hf
  by_cases hsame : seqno = r.destSeqno
  · obtain ⟨hv, hhops⟩ := heq.resolve_left fun hne => hne hsame
    have hvalid : r.state = .valid := by
      cases hs : r.state with
      | valid => rfl
      | invalid => exact absurd hs hv
    have hwide : (h.setWidth 32 + (1 : U32)).toNat = h.toNat + 1 := by
      have hone' : (1 : U32).toNat = 1 := rfl
      rw [BitVec.toNat_add, hone', BitVec.toNat_setWidth, Nat.mod_eq_of_lt (by omega),
        Nat.mod_eq_of_lt (by omega)]
    rw [BitVec.lt_def, hwide, BitVec.toNat_setWidth, Nat.mod_eq_of_lt (by omega)] at hhops
    rw [rankOf, hvalid, hsame, rank, rank, hnext]
    omega
  · have hnum : number seqno < number r.destSeqno := by
      rw [number, number, if_neg hr]
      split
      · have hlow := BitVec.le_toInt r.destSeqno
        omega
      · have hne : seqno.toInt ≠ r.destSeqno.toInt := fun hi => hsame (BitVec.toInt_inj.1 hi)
        rw [BitVec.slt, decide_eq_false_iff_not] at hlt
        omega
    rw [rankOf]
    cases r.state with
    | invalid =>
        rw [rank, rank]
        omega
    | valid =>
        rw [rank, rank]
        omega

theorem hops_byte (h : U8) : (h.setWidth 32 + (1 : U32)).setWidth 8 = h + 1 := by
  apply BitVec.eq_of_toNat_eq
  have hone : (1 : U8).toNat = 1 := rfl
  have hone' : (1 : U32).toNat = 1 := rfl
  have hbyte := h.isLt
  rw [BitVec.toNat_setWidth, BitVec.toNat_add, BitVec.toNat_add, BitVec.toNat_setWidth, hone, hone']
  omega

/-- Whether the reverse route is stored or left alone, the daemon has then noted
a rank that is no lower than the one it passes on. -/
theorem reverse_noted {m : RREQ} {src : Addr} {rev : Ptr}
    (hnoted : Noted s) (hle : m.hopcnt.toNat ≤ 254) (h : rreqReverse e s m src = (s', some rev)) :
    ∃ x ∈ known m.origAddr s'.trace, rank .valid m.origSeqno (m.hopcnt + 1) ≤ x := by
  rw [rreqReverse] at h
  cases hc : rtTableCheck s.rtTbl m.origAddr with
  | none =>
      rw [hc] at h
      dsimp only at h
      have hrt : s' = (rtTableInsert e s m.origAddr src (m.hopcnt.setWidth 32 + 1) m.origSeqno
          (rreqLife (m.hopcnt.setWidth 32 + 1)) .valid .zero).1 := (congrArg Prod.fst h).symm
      obtain hi | ⟨-, hi⟩ := rtTableInsert_cases e s m.origAddr src (m.hopcnt.setWidth 32 + 1)
        m.origSeqno (rreqLife (m.hopcnt.setWidth 32 + 1)) .valid .zero
      · rw [hi] at h
        cases h
      · rw [hi] at hrt
        refine ⟨_, ?_, Int.le_refl _⟩
        rw [hrt]
        apply known_mono (insertEntry_said e _ _ _ _).suffix
        refine List.mem_filterMap.2 ⟨_, List.mem_cons_self, ?_⟩
        rw [given, if_pos rfl, hops_byte]
  | some p =>
      rw [hc] at h
      dsimp only at h
      obtain ⟨hp, hdest⟩ := rtTableCheck_some hc
      change (s.rt p).destAddr = m.origAddr at hdest
      split at h
      · obtain ⟨rfl, -⟩ := Prod.mk.inj h
        refine ⟨_, ?_, Int.le_refl _⟩
        apply known_mono (update_suffix hp _ _ _ _ _ _)
        refine List.mem_filterMap.2 ⟨_, List.mem_cons_self, ?_⟩
        rw [given, if_pos hdest, hops_byte]
      next hold =>
        obtain ⟨rfl, -⟩ := Prod.mk.inj h
        refine ⟨rankOf (s.rt p), ?_, rank_kept hle (Bool.eq_false_of_not_eq_true hold)⟩
        have hmem := hnoted p hp
        rwa [hdest] at hmem

theorem reverse_honest (e : Env) (hs : WellFormed s) (m : RREQ) (src : Addr) :
    Said (Honest own K) s (rreqReverse e s m src).1 ∧
      (rreqReverse e s m src).1.waitOnReboot = s.waitOnReboot := by
  rw [rreqReverse]
  cases hc : rtTableCheck s.rtTbl m.origAddr with
  | none => exact ⟨insert_honest e s _ _ _ _ _ _ _, (insert_sound e hs _ _ _ _ _ _ _).reboot⟩
  | some p =>
      dsimp only
      split
      · exact ⟨update_honest e s p _ _ _ _ _ _,
          (update_sound e hs (rtTableCheck_some hc).1 _ _ _ _ _ _).reboot⟩
      · exact ⟨.same rfl, rfl⟩

theorem rest_honest (e : Env) (s : Daemon) (hw : s.waitOnReboot ≠ 0) (rev : Ptr) {ttl : U8}
    (hlen : rreqSize ≤ pkt.len) (ht : pkt.buf 0 = aodvRreq)
    (hle : (rreqOf pkt.buf).hopcnt.toNat + ttl.toNat ≤ 255)
    (hk : ∃ x, K (rreqOf pkt.buf).origAddr x ∧
      rank .valid (rreqOf pkt.buf).origSeqno ((rreqOf pkt.buf).hopcnt + 1) ≤ x) :
    Said (Honest own K) s (rest e s pkt rev ttl.toNat) := by
  rw [rest]
  split
  · exact forUs_honest e s hw _ rev
  · exact route_honest e s hw _ rev hlen ht hle hk

theorem rreq_honest (e : Env) (hs : WellFormed s) (hfull : ¬ HashTable.Full s.rtTbl)
    (hw : s.waitOnReboot ≠ 0) (hnoted : Noted s) {ttl : U8}
    (ht : pkt.buf 0 = aodvRreq) (hops : (rreqOf pkt.buf).hopcnt.toNat ≤ 254)
    (hle : (rreqOf pkt.buf).hopcnt.toNat + ttl.toNat ≤ 255) :
    Said (Honest own fun d x => x ∈ known d (rreqProcess e s pkt.buf pkt.len pkt.src ttl.toNat).trace) s
      (rreqProcess e s pkt.buf pkt.len pkt.src ttl.toNat) := by
  by_cases hacc : Accepts s pkt
  · have hframe := recorded_frame (e := e) hacc
    have heq := recorded_eq (e := e) hacc
    have hrec : Said (Honest own fun d x =>
        x ∈ known d (rreqProcess e s pkt.buf pkt.len pkt.src ttl.toNat).trace) s (recorded e s pkt) :=
      .one hframe.2.2.1 rfl
    have hnoted' : Noted (recorded e s pkt) := by
      intro p hp
      have hrt : (recorded e s pkt).rt p = s.rt p := by simp only [Daemon.rt, hframe.1]
      rw [hframe.1] at hp
      rw [hrt, hframe.2.2.1]
      exact hnoted p hp
    have hw' : (recorded e s pkt).waitOnReboot ≠ 0 := by
      rw [heq]
      exact hw
    have hws := wellFormed_recorded e pkt hs
    refine hrec.trans ?_
    rw [process_accepted hacc]
    obtain ⟨s₁, rev, hrev⟩ := reverse_some (e := e) hws (by rwa [hframe.1]) (rreqOf pkt.buf) pkt.src
    have hsaid (K : Addr → Int → Prop) : Said (Honest own K) _ _ ∧ _ :=
      reverse_honest e hws (rreqOf pkt.buf) pkt.src
    rw [hrev] at hsaid ⊢
    dsimp only
    obtain ⟨x, hx, hrank⟩ := reverse_noted hnoted' hops hrev
    have hw₁ : s₁.waitOnReboot ≠ 0 := by
      rw [(hsaid fun _ _ => True).2]
      exact hw'
    have hrest : Said (Honest own fun d x => x ∈ known d s₁.trace) s₁ _ :=
      rest_honest e s₁ hw₁ rev hacc.length ht hle ⟨x, hx, hrank⟩
    refine (hsaid _).1.trans (hrest.mono fun o ho => ho.mono fun d x hx => ?_)
    exact known_mono hrest.suffix hx
  · rw [process_refused ht hacc]
    exact .same rfl

theorem package_rerr (ht : pkt.buf 0 = aodvRerr) (ttl : Int) :
    aodvSocketPackageProcess e s pkt.buf pkt.len pkt.src pkt.dest ttl =
      rerrProcess e (neighborAdd e s pkt.src) pkt.buf pkt.len pkt.src := by
  have hlabel : ¬ (pkt.buf 0 = aodvRrep ∧ ttl = 1 ∧ pkt.dest = aodvBroadcast) := by
    rintro ⟨h, _⟩
    rw [ht] at h
    exact absurd h (by decide)
  have hhello : ¬ pkt.buf 0 = aodvHello := by
    rw [ht]
    decide
  have hrreq : ¬ pkt.buf 0 = aodvRreq := by
    rw [ht]
    decide
  have hrrep : ¬ pkt.buf 0 = aodvRrep := by
    rw [ht]
    decide
  rw [aodvSocketPackageProcess, if_neg hlabel, if_neg hhello, if_neg hrreq, if_neg hrrep, if_pos ht]

def Trusted (own : Addr) (ev : Event) : Prop :=
  ∀ pkt, ev = .recv pkt → received own pkt = true →
    ∃ own' K' ttl, pkt.ttl = some ttl ∧ Backs own' K' ttl pkt.buf

end Received

section Events

variable {via : Addr → Addr → Int → Prop} {own : Addr} {e : Env} {ev : Event} {s s' : Daemon}
  {pkt : Packet}

theorem coarses_moves (h : ReflTransGen (Coarse e ev) s s') (hs : WellFormed s) :
    ReflTransGen (Move e ev) s s' := by
  induction h with
  | refl => exact .refl
  | tail hrun hstep ih => exact ih.trans (coarse_moves hstep (coarses_sound hrun hs).wellFormed)

theorem heard_noted (hs : WellFormed s) (hrank : Ranked via s) (hback : Backed via (.recv pkt))
    (hobeys : ∀ o ∈ s.trace, obeys o = true) (hsrc : pkt.src ≠ s.host.ipaddr)
    (hc : Rising (neighborAdd e s pkt.src).trace) : Noted (neighborAdd e s pkt.src) := by
  have hsaid : Said (Honest s.host.ipaddr fun _ _ => True) s (neighborAdd e s pkt.src) :=
    neighborAdd_honest e s pkt.src
  have hmoves := coarses_moves (coarses_neighborAdd (e := e) rfl hsrc) hs
  have hafter := hrank.moves hs hback hc (hsaid.forall_mem hobeys fun o _ ho => ho.obeys) hmoves
  exact fun p hp => (hafter p hp).noted

theorem recv_honest (hs : WellFormed s) (hstrangers : Strangers s.host.ipaddr s)
    (hw : s.waitOnReboot ≠ 0)
    (hev : Trusted s.host.ipaddr (.recv pkt)) (hrank : Ranked via s) (hback : Backed via (.recv pkt))
    (hobeys : ∀ o ∈ s.trace, obeys o = true) (hc : Rising (step e s (.recv pkt)).trace) :
    Said (Honest own fun d x => x ∈ known d (step e s (.recv pkt)).trace) s (step e s (.recv pkt)) := by
  cases hr : received s.host.ipaddr pkt with
  | false =>
      rw [step_dropped e hs hr]
      exact .same rfl
  | true =>
      obtain ⟨own', K', ttl, httl, hsent⟩ := hev pkt rfl hr
      have hsrc : pkt.src ≠ s.host.ipaddr := by
        rintro hsrc
        simp [received, hsrc] at hr
      have hread : step e s (.recv pkt) =
          aodvSocketPackageProcess e s pkt.buf pkt.len pkt.src pkt.dest ttl.toNat := by
        change aodvSocketRead e s pkt = _
        rw [aodvSocketRead, httl]
        exact if_neg fun h => hsrc h.2
      rw [hread] at hc ⊢
      cases hsent with
      | rerr ht hn =>
          rw [package_rerr ht]
          exact (neighborAdd_honest e s pkt.src).trans (rerr_honest e _ hn _ _)
      | rreq ht hops hle hk =>
          rw [package_rreq ht] at hc ⊢
          have hadd := coarses_sound (coarses_neighborAdd (e := e) rfl hsrc) hs
          have hw' : (neighborAdd e s pkt.src).waitOnReboot ≠ 0 := by
            rw [hadd.reboot]
            exact hw
          have hrest := coarses_trace (coarses_rreq (e := e) ttl.toNat hadd.wellFormed rfl ht)
            hadd.wellFormed
          have hnoted := heard_noted hs hrank hback hobeys hsrc (hc.suffix hrest)
          have hmoves := coarses_moves (coarses_neighborAdd (e := e) rfl hsrc) hs
          have hfull : ¬ HashTable.Full (neighborAdd e s pkt.src).rtTbl := by
            refine HashTable.not_full_of_absent hadd.wellFormed.table
              (hstrangers.moves hs hmoves ?_).dests
            rintro _ ⟨⟩ hhello
            rw [isHello, decide_eq_true_iff, ht] at hhello
            rcases hhello with h | ⟨h, -⟩
            · exact absurd h (by decide)
            · exact absurd h (by decide)
          exact (neighborAdd_honest e s pkt.src).trans
            (rreq_honest e hadd.wellFormed hfull hw' hnoted ht hops hle)

theorem step_honest (hs : Resting s) (hstrangers : Strangers s.host.ipaddr s)
    (hw : s.waitOnReboot ≠ 0) (hev : Trusted s.host.ipaddr ev)
    (hrank : Ranked via s) (hback : Backed via ev) (hobeys : ∀ o ∈ s.trace, obeys o = true)
    (hc : Rising (step e s ev).trace) :
    Said (Honest s.host.ipaddr fun d x => x ∈ known d (step e s ev).trace) s (step e s ev) := by
  cases ev with
  | recv pkt => exact recv_honest hs.wellFormed hstrangers hw hev hrank hback hobeys hc
  | kernel m => exact kernel_honest e s m
  | age =>
      change Said _ s (timerAgeQueue e s)
      generalize (fun d x => x ∈ known d (step e s .age).trace) = K
      rw [timerAgeQueue]
      split
      · exact .same rfl
      · have hws := hs.wellFormed_due e.arch (e.clock s.tick)
        have htake : Said (Honest s.host.ipaddr K) s (takeDue e.arch (e.clock s.tick) s.tock) :=
          .same rfl
        exact htake.trans (drain_honest e _ hws)
  | fire t =>
      generalize (fun d x => x ∈ known d (step e s (.fire t)).trace) = K
      rw [step]
      split
      next ht => exact fire_honest e hs.wellFormed (.inl ht)
      · exact .same rfl

end Events

end Aodv.Mesh
