import Aodv.Routes

namespace Aodv.Mesh

open Lib.Bytes Relation

/-- The order of rreq_process and rrep_process, which compare as signed numbers,
with the unknown number below all others. -/
def number (seqno : U32) : Int := if seqno = 0 then -2147483649 else seqno.toInt

/-- How good a route is: first by its number, then VALID before INVALID, then by
the hops. -/
def rank (state : RtState) (seqno : U32) (hopcnt : U8) : Int :=
  match state with
  | .invalid => number seqno * 1024
  | .valid => number seqno * 1024 + 256 - hopcnt.toNat

def rankOf (r : RtEntry) : Int := rank r.state r.destSeqno r.hopcnt

theorem number_seqnoIncr {a b : U32} (h : number a < number b) : number (seqnoIncr a) ≤ number b := by
  have hb : b ≠ 0 := by
    rintro rfl
    rw [number, number, if_pos rfl] at h
    split at h
    · omega
    · have hle := BitVec.le_toInt a
      omega
  rw [seqnoIncr]
  split
  next ha =>
    rw [← ha]
    omega
  next ha =>
    rw [number, number, if_neg ha, if_neg hb] at h
    have hpos : b.toInt ≠ 0 := fun hz => hb (BitVec.toInt_inj.1 hz)
    split
    next hmax =>
      have hneg : a.toInt = -1 := by
        rw [hmax]
        rfl
      rw [number, number, if_neg (by decide), if_neg hb]
      change (1 : Int) ≤ _
      omega
    next hmax =>
      have hnext : (a + 1).toInt ≤ a.toInt + 1 := by
        have hone : (1 : U32).toNat = 1 := rfl
        have hlt : a.toNat ≠ 4294967295 := fun he => hmax (BitVec.eq_of_toNat_eq he)
        have hbound := a.isLt
        rw [BitVec.toInt_eq_toNat_cond, BitVec.toInt_eq_toNat_cond, BitVec.toNat_add, hone,
          Nat.mod_eq_of_lt (by omega)]
        split <;> split <;> omega
      have hne : a + 1 ≠ 0 := by
        have hincr := seqnoIncr_ne_zero ha
        rwa [seqnoIncr, if_neg ha, if_neg hmax] at hincr
      rw [number, number, if_neg hne, if_neg hb]
      omega

/-- A neighbour's entry that takes a longer route of no lower rank gets a newer
number, not older than the one an invalidation counts up to. -/
theorem rank_demoted {a b : U32} {h h' : U8} (hlong : 1 < h.toNat)
    (hle : rank .valid a 1 ≤ rank .valid b h) : rank .invalid (seqnoIncr a) h' ≤ rank .valid b h := by
  have hone : (1 : U8).toNat = 1 := rfl
  have hbyte := h.isLt
  simp only [rank, hone] at hle ⊢
  have hnew := number_seqnoIncr (a := a) (b := b) (by omega)
  omega

def given (d : Addr) : Obs → Option Int
  | .rtInsert dest _ hops seqno _ state _ =>
      if dest = d then some (rank state seqno (hops.setWidth 8)) else none
  | .rtUpdate _ old _ hops seqno _ state _ =>
      if old.destAddr = d then some (rank state seqno (hops.setWidth 8)) else none
  | .rtInvalidate _ old =>
      if old.destAddr = d then some (rank .invalid (seqnoIncr old.destSeqno) old.hopcnt) else none
  | .rerrSeqno _ old seqno =>
      if old.destAddr = d then some (rank old.state seqno old.hopcnt) else none
  | _ => none

def known (d : Addr) (tr : List Obs) : List Int := tr.filterMap (given d)

structure Route where
  dest : Addr
  next : Addr
  rank : Int

def stored : Obs → Option Route
  | .rtInsert dest next hops seqno _ .valid _ =>
      some ⟨dest, next, rank .valid seqno (hops.setWidth 8)⟩
  | .rtUpdate _ old next hops seqno _ .valid _ =>
      some ⟨old.destAddr, next, rank .valid seqno (hops.setWidth 8)⟩
  | _ => none

/-- A call that stores a VALID route over another node gives it no lower rank
than the daemon has known for its destination before. -/
def Climbs (o : Obs) (tr : List Obs) : Prop :=
  ∀ r ∈ stored o, r.next = r.dest ∨ ∀ x ∈ known r.dest tr, x ≤ r.rank

instance (o : Obs) (tr : List Obs) : Decidable (Climbs o tr) :=
  inferInstanceAs (Decidable (∀ r ∈ stored o, r.next = r.dest ∨ ∀ x ∈ known r.dest tr, x ≤ r.rank))

def Rising : List Obs → Prop
  | [] => True
  | o :: tr => Climbs o tr ∧ Rising tr

instance decidableRising : (tr : List Obs) → Decidable (Rising tr)
  | [] => inferInstanceAs (Decidable True)
  | o :: tr =>
      have := decidableRising tr
      inferInstanceAs (Decidable (Climbs o tr ∧ Rising tr))

theorem Rising.suffix {tr tr' : List Obs} (h : tr <:+ tr') (h' : Rising tr') : Rising tr := by
  obtain ⟨l, rfl⟩ := h
  induction l with
  | nil => exact h'
  | cons o l ih => exact ih h'.2

def obeys : Obs → Bool
  | .rerrSeqno _ old _ => decide (old.state = .invalid)
  | _ => true

section Known

variable {e : Env} {s s' : Daemon} {d : Addr} {p q : Ptr}

theorem known_said (h : Said (fun o => given d o = none) s s') :
    known d s'.trace = known d s.trace := by
  obtain ⟨l, hl, ho⟩ := h
  rw [known, hl, List.filterMap_append, List.filterMap_eq_nil_iff.2 ho]
  rfl

theorem known_mono {tr tr' : List Obs} (h : tr <:+ tr') : known d tr ⊆ known d tr' :=
  (h.sublist.filterMap (given d)).subset

theorem given_ofRoute {o : Obs} (h : ofRoute o = false) : given d o = none := by
  cases o <;> first | rfl | cases h

theorem given_nl {o : Obs} (h : NlObs o) : given d o = none := by
  cases h <;> rfl

theorem given_report {o : Obs} (h : ReportObs o) : given d o = none := by
  cases h with
  | nl h => exact given_nl h
  | rerr => rfl

theorem known_nl (h : Said NlObs s s') : known d s'.trace = known d s.trace :=
  known_said (h.mono fun _ => given_nl)

theorem invalidate_trace (hv : (s.rt q).state = .valid) :
    Said NlObs (s.observe (.rtInvalidate q (s.rt q))) (rtTableInvalidate e s q) := by
  have hv' : (s.tock.rt q).state = .valid := hv
  rw [rtTableInvalidate]
  simp only [hv']
  exact delRoute_said e _ _ _ _

end Known

/-- The rank of the entry was noted when it got it. A VALID route over another
node has the highest rank that was ever noted, and is good in the sense of via. -/
structure Placed (via : Addr → Addr → Int → Prop) (tr : List Obs) (r : RtEntry) : Prop where
  noted : rankOf r ∈ known r.destAddr tr
  top : r.state = .valid → r.nextHop ≠ r.destAddr → ∀ x ∈ known r.destAddr tr, x ≤ rankOf r
  via : r.state = .valid → r.nextHop ≠ r.destAddr → via r.nextHop r.destAddr (rankOf r)

structure SameRank (r r' : RtEntry) : Prop where
  destAddr : r'.destAddr = r.destAddr
  nextHop : r'.nextHop = r.nextHop
  destSeqno : r'.destSeqno = r.destSeqno
  hopcnt : r'.hopcnt = r.hopcnt
  state : r'.state = r.state

theorem SameRank.refl (r : RtEntry) : SameRank r r := ⟨rfl, rfl, rfl, rfl, rfl⟩

theorem SameRank.of_eq {r r' : RtEntry} (h : r' = r) : SameRank r r' := h ▸ .refl r'

theorem SameRoute.sameRank {r r' : RtEntry} (h : SameRoute r r') : SameRank r r' :=
  ⟨h.destAddr, h.nextHop, h.destSeqno, h.hopcnt, h.state⟩

def Backed (via : Addr → Addr → Int → Prop) (ev : Event) : Prop :=
  ∀ own old src dest next hops seqno lifetime,
    Learned own ev old src dest next hops seqno lifetime →
    hops.toNat ≤ 255 ∧ (next = dest ∨ via next dest (rank .valid seqno (hops.setWidth 8)))

section Entries

variable {via : Addr → Addr → Int → Prop} {e : Env} {ev : Event} {s s' : Daemon} {p q : Ptr}

theorem Placed.mono {via' : Addr → Addr → Int → Prop} {tr : List Obs} {r : RtEntry}
    (h : Placed via tr r) (hv : ∀ c d x, via c d x → via' c d x) : Placed via' tr r :=
  ⟨h.noted, h.top, fun hs hn => hv _ _ _ (h.via hs hn)⟩

theorem Placed.same (h : Placed via s.trace (s.rt p)) (hr : SameRank (s.rt p) (s'.rt p))
    (hsaid : Said (fun o => given (s.rt p).destAddr o = none) s s') :
    Placed via s'.trace (s'.rt p) := by
  have hknown := known_said hsaid
  have hrank : rankOf (s'.rt p) = rankOf (s.rt p) := by
    rw [rankOf, rankOf, hr.state, hr.destSeqno, hr.hopcnt]
  constructor
  · rw [hrank, hr.destAddr, hknown]
    exact h.noted
  · rw [hrank, hr.destAddr, hr.state, hr.nextHop, hknown]
    exact h.top
  · rw [hrank, hr.destAddr, hr.state, hr.nextHop]
    exact h.via

theorem Placed.down {tr : List Obs} {r : RtEntry} (hi : r.state = .invalid)
    (h : rankOf r ∈ known r.destAddr tr) : Placed via tr r := by
  refine ⟨h, fun hv => ?_, fun hv => ?_⟩
  · rw [hi] at hv
    cases hv
  · rw [hi] at hv
    cases hv

theorem dest_ne (hs : WellFormed s) (hp : Linked s.rtTbl p) (hq : Linked s.rtTbl q) (hne : p ≠ q) :
    (s.rt q).destAddr ≠ (s.rt p).destAddr :=
  fun h => hne (hs.table.dests p q hp hq h.symm)

theorem sameRank_setRt {r : RtEntry} (hr : SameRank (s.rt q) r) (p : Ptr) :
    SameRank (s.rt p) ((s.setRt q r).rt p) := by
  by_cases hne : p = q
  · subst q
    rw [rt_setRt_self]
    exact hr
  · exact .of_eq (rt_setRt_ne s r hne)

theorem placed_invalidate (h : Placed via s.trace (s.rt p)) (hs : WellFormed s)
    (hp : Linked s.rtTbl p) (hq : Linked s.rtTbl q) (hv : (s.rt q).state = .valid) :
    Placed via (rtTableInvalidate e s q).trace ((rtTableInvalidate e s q).rt p) := by
  have hsaid := invalidate_trace (e := e) hv
  by_cases hne : p = q
  · subst q
    apply Placed.down (state_invalidate e s p)
    have hrt : (rtTableInvalidate e s p).rt p = { s.rt p with
        state := .invalid, helloCnt := 0, destSeqno := seqnoIncr (s.rt p).destSeqno
        lastHelloTime := ⟨0, 0⟩ } := by
      simp only [Daemon.rt, rt_invalidate_valid e hv, Function.update_self]
    rw [hrt]
    apply known_mono hsaid.suffix
    apply List.mem_filterMap.2
    exact ⟨_, List.mem_cons_self, if_pos rfl⟩
  · refine h.same (.of_eq (rt_invalidate_ne e s hne)) ?_
    have hobs : Said (fun o => given (s.rt p).destAddr o = none) s
        (s.observe (.rtInvalidate q (s.rt q))) := .one rfl (if_neg (dest_ne hs hp hq hne))
    exact hobs.trans (hsaid.mono fun _ => given_nl)

theorem placed_slide (h : Placed via s.trace (s.rt p)) (hs : WellFormed s) (hp : Linked s.rtTbl p)
    (hm : Slide e s s') : Placed via s'.trace (s'.rt p) := by
  cases hm with
  | idle hi => exact h.same (SameRoute.sameRank (hi.rt p)) (hi.said.mono fun _ => given_ofRoute)
  | down hq hv => exact placed_invalidate h hs hp hq hv
  | @repair q hq hv =>
      have hkept := kept_markRepair s q
      have hmark : SameRank (s.rt p) ((markRepair s q).rt p) := by
        apply sameRank_setRt
        exact ⟨rfl, rfl, rfl, rfl, rfl⟩
      have hv' : ((markRepair s q).rt q).state = .valid := by
        rw [markRepair, rt_setRt_self]
        exact hv
      exact placed_invalidate (h.same hmark (.same rfl)) (hkept.wellFormed hs)
        ((hkept.keys.linked p).2 hp) ((hkept.keys.linked q).2 hq) hv'

theorem placed_slides (h : Placed via s.trace (s.rt p)) (hs : WellFormed s) (hp : Linked s.rtTbl p)
    (hm : ReflTransGen (Slide e) s s') : Placed via s'.trace (s'.rt p) := by
  induction hm with
  | refl => exact h
  | tail hrun hm ih =>
      exact placed_slide ih (slides_wellFormed hrun hs) ((slides_linked hrun p).2 hp) hm

theorem slide_down (hs : WellFormed s) (hq : Linked s.rtTbl q) (hi : (s.rt q).state = .invalid)
    (hm : Slide e s s') : Said (fun o => given (s.rt q).destAddr o = none) s s' := by
  have hother {s : Daemon} {k : Ptr} (hs : WellFormed s) (hq : Linked s.rtTbl q)
      (hk : Linked s.rtTbl k) (hi : (s.rt q).state = .invalid) (hv : (s.rt k).state = .valid) :
      Said (fun o => given (s.rt q).destAddr o = none) s (rtTableInvalidate e s k) := by
    have hne : q ≠ k := by
      rintro rfl
      rw [hi] at hv
      cases hv
    have hobs : Said (fun o => given (s.rt q).destAddr o = none) s
        (s.observe (.rtInvalidate k (s.rt k))) := .one rfl (if_neg (dest_ne hs hq hk hne))
    exact hobs.trans ((invalidate_trace hv).mono fun _ => given_nl)
  cases hm with
  | idle hidle => exact hidle.said.mono fun _ => given_ofRoute
  | down hk hv => exact hother hs hq hk hi hv
  | @repair k hk hv =>
      have hkept := kept_markRepair s k
      have hne : q ≠ k := by
        rintro rfl
        rw [hi] at hv
        cases hv
      have hrt : (markRepair s k).rt q = s.rt q := rt_setRt_ne s _ hne
      have hv' : ((markRepair s k).rt k).state = .valid := by
        rw [markRepair, rt_setRt_self]
        exact hv
      have hsaid := hother (hkept.wellFormed hs) ((hkept.keys.linked q).2 hq)
        ((hkept.keys.linked k).2 hk) (by rwa [hrt]) hv'
      rw [hrt] at hsaid
      exact hsaid

theorem slides_down (hs : WellFormed s) (hq : Linked s.rtTbl q) (hi : (s.rt q).state = .invalid)
    (hm : ReflTransGen (Slide e) s s') : Said (fun o => given (s.rt q).destAddr o = none) s s' := by
  induction hm with
  | refl => exact .same rfl
  | tail hrun hm ih =>
      obtain ⟨hdest, -, -, hdown⟩ := slides_route hrun q
      have hlast := slide_down (slides_wellFormed hrun hs) ((slides_linked hrun q).2 hq) (hdown hi) hm
      rw [hdest] at hlast
      exact ih.trans hlast

theorem known_break (hs : WellFormed s) (hq : Linked s.rtTbl q) (hops : U32) {x : Int}
    (hx : x ∈ known (s.rt q).destAddr (updateBreak e s q hops).trace) :
    x ∈ known (s.rt q).destAddr s.trace ∨
      (1 < hops ∧ (s.rt q).hopcnt = 1 ∧ (s.rt q).state = .valid ∧
        x = rank .invalid (seqnoIncr (s.rt q).destSeqno) (s.rt q).hopcnt) := by
  by_cases hbreak : 1 < hops ∧ (s.rt q).hopcnt = 1
  · obtain ⟨s₁, hidle, -, hrest⟩ := updateBreak_demoted e hs hq hbreak
    have hsame := hidle.rt q
    have hq₁ := (hidle.linked q).2 hq
    have hkept := kept_invalidate e hq₁
    have hrest' := slides_down (hkept.wellFormed hidle.wellFormed) ((hkept.keys.linked q).2 hq₁)
      (state_invalidate e s₁ q) hrest
    rw [(rt_invalidate_self e s₁ q).2.2, hsame.destAddr] at hrest'
    rw [known_said hrest'] at hx
    have hstart : known (s.rt q).destAddr s₁.trace = known (s.rt q).destAddr s.trace :=
      known_said (hidle.said.mono fun _ => given_ofRoute)
    cases hv : (s.rt q).state with
    | invalid =>
        left
        rw [invalidate_invalid e s₁ (hsame.state.trans hv)] at hx
        rwa [← hstart]
    | valid =>
        have hdown := invalidate_trace (e := e) (hsame.state.trans hv)
        rw [known_nl hdown] at hx
        have hcons : known (s.rt q).destAddr (s₁.observe (.rtInvalidate q (s₁.rt q))).trace =
            rank .invalid (seqnoIncr (s.rt q).destSeqno) (s.rt q).hopcnt ::
              known (s.rt q).destAddr s.trace := by
          rw [← hstart, ← hsame.destSeqno, ← hsame.hopcnt]
          exact List.filterMap_cons_some (if_pos hsame.destAddr)
        rw [hcons] at hx
        rcases List.mem_cons.1 hx with hx | hx
        · exact .inr ⟨hbreak.1, hbreak.2, rfl, hx⟩
        · exact .inl hx
  · rw [updateBreak_same e hbreak] at hx
    exact .inl hx

theorem update_suffix (hq : Linked s.rtTbl q) (next : Addr) (hops seqno lifetime : U32)
    (state : RtState) (flags : RtFlags) :
    .rtUpdate q (s.rt q) next hops seqno lifetime state flags :: s.trace <:+
      (rtTableUpdate e s q next hops seqno lifetime state flags).trace :=
  (update_said e hq next hops seqno lifetime state flags).suffix

theorem placed_update_self (h : Placed via s.trace (s.rt q)) (hs : WellFormed s)
    (hq : Linked s.rtTbl q) {next : Addr} {hops seqno : U32} (lifetime : U32) (flags : RtFlags)
    (hhops : hops.toNat ≤ 255)
    (hvia : next = (s.rt q).destAddr ∨ via next (s.rt q).destAddr (rank .valid seqno (hops.setWidth 8)))
    (hc : Climbs (.rtUpdate q (s.rt q) next hops seqno lifetime .valid flags) s.trace) :
    Placed via (rtTableUpdate e s q next hops seqno lifetime .valid flags).trace
      ((rtTableUpdate e s q next hops seqno lifetime .valid flags).rt q) := by
  obtain ⟨s₁, f, hbegin, -, hrt, -, hw₁, htbl, -, heq⟩ :=
    Aodv.update_parts e hs hq next hops seqno lifetime .valid flags
  obtain ⟨hhopcnt, hnext, hseqno, hstate⟩ :=
    rt_update_self e s q next hops seqno lifetime .valid flags
  have hdest : ((rtTableUpdate e s q next hops seqno lifetime .valid flags).rt q).destAddr =
      (s.rt q).destAddr := by
    obtain ⟨s₃, hkept, heq'⟩ := update_kept e s hq next hops seqno lifetime .valid flags
    rw [heq', rt_routeFound]
    exact hkept.keys.destAddr q
  have hrank : rankOf ((rtTableUpdate e s q next hops seqno lifetime .valid flags).rt q) =
      rank .valid seqno (hops.setWidth 8) := by
    rw [rankOf, hstate, hseqno, hhopcnt]
  refine ⟨?_, fun _ hn => ?_, fun _ hn => ?_⟩
  · rw [hrank, hdest]
    apply known_mono (update_suffix hq next hops seqno lifetime .valid flags)
    exact List.mem_filterMap.2 ⟨_, List.mem_cons_self, if_pos rfl⟩
  · rw [hnext, hdest] at hn
    have hold := (hc _ rfl).resolve_left hn
    intro x hx
    rw [hdest, heq, updateFinish_trace] at hx
    have hdest₁ : (s₁.rt q).destAddr = (s.rt q).destAddr := congrArg RtEntry.destAddr (congrFun hrt q)
    have hq₁ : Linked s₁.rtTbl q := by
      rw [Linked, htbl]
      exact hq
    rw [← hdest₁] at hx
    rw [hrank]
    rcases known_break hw₁ hq₁ hops hx with hx | ⟨hlong, hone, hv, rfl⟩
    · rw [hdest₁, hbegin, known_nl (updateBegin_said e _ q next hops lifetime .valid flags)] at hx
      have hcons : known (s.rt q).destAddr (s.observe (.rtUpdate q (s.rt q) next hops seqno lifetime
          .valid flags)).trace =
            rank .valid seqno (hops.setWidth 8) :: known (s.rt q).destAddr s.trace :=
        List.filterMap_cons_some (if_pos rfl)
      rw [hcons] at hx
      rcases List.mem_cons.1 hx with rfl | hx
      · exact Int.le_refl _
      · exact hold x hx
    · -- the entry was VALID and one hop long, so its number is older
      rw [hrt] at hone hv ⊢
      have hnoted := hold _ h.noted
      rw [rankOf, hv, hone] at hnoted
      apply rank_demoted _ hnoted
      rw [BitVec.toNat_setWidth, Nat.mod_eq_of_lt (by omega)]
      exact BitVec.lt_def.1 hlong
  · rw [hnext, hdest] at hn
    rw [hrank, hnext, hdest]
    exact hvia.resolve_left hn

theorem placed_update_ne (h : Placed via s.trace (s.rt p)) (hs : WellFormed s)
    (hp : Linked s.rtTbl p) (hq : Linked s.rtTbl q) (hne : p ≠ q) (next : Addr)
    (hops seqno lifetime : U32) (state : RtState) (flags : RtFlags) :
    Placed via (rtTableUpdate e s q next hops seqno lifetime state flags).trace
      ((rtTableUpdate e s q next hops seqno lifetime state flags).rt p) := by
  obtain ⟨s₁, f, hbegin, -, hrt, -, hw₁, htbl, hslides, heq⟩ :=
    Aodv.update_parts e hs hq next hops seqno lifetime state flags
  have hp₁ : Linked s₁.rtTbl p := by
    rw [Linked, htbl]
    exact hp
  have hsaid : Said (fun o => given (s.rt p).destAddr o = none) s s₁ := by
    have hobs : Said (fun o => given (s.rt p).destAddr o = none) s
        (s.observe (.rtUpdate q (s.rt q) next hops seqno lifetime state flags)) :=
      .one rfl (if_neg (dest_ne hs hp hq hne))
    rw [hbegin]
    exact hobs.trans ((updateBegin_said e _ q next hops lifetime state flags).mono fun _ => given_nl)
  have hstart : Placed via s₁.trace (s₁.rt p) := h.same (.of_eq (congrFun hrt p)) hsaid
  have hbroken := placed_slides hstart hw₁ hp₁ hslides
  rw [heq]
  refine hbroken.same (.of_eq ?_) (.same (updateFinish_trace e _ _ _ _ _ _ _ _))
  rw [rt_updateFinish, if_neg hne]

theorem placed_insert {dest next : Addr} {hops seqno : U32}
    (h : Linked s.rtTbl p → Placed via s.trace (s.rt p)) (hs : WellFormed s)
    (lifetime : U32) (state : RtState)
    (hvia : next = dest ∨ via next dest (rank .valid seqno (hops.setWidth 8)))
    (hc : Rising (rtTableInsert e s dest next hops seqno lifetime state .zero).1.trace)
    (hp : Linked (rtTableInsert e s dest next hops seqno lifetime state .zero).1.rtTbl p) :
    Placed via (rtTableInsert e s dest next hops seqno lifetime state .zero).1.trace
      ((rtTableInsert e s dest next hops seqno lifetime state .zero).1.rt p) := by
  obtain hi | ⟨hnew, hi⟩ := rtTableInsert_cases e s dest next hops seqno lifetime state .zero
  · rw [hi] at hp ⊢
    exact h hp
  · rw [hi] at hc hp ⊢
    let o : Obs := .rtInsert dest next hops seqno lifetime state .zero
    have hsaid := insertEntry_said e (s.observe o) (newEntry dest next hops seqno state .zero) hops
      lifetime
    have hknown : known dest _ = _ := known_nl hsaid
    have hcons : known dest (s.observe o).trace =
        rank state seqno (hops.setWidth 8) :: known dest s.trace :=
      List.filterMap_cons_some (if_pos rfl)
    rcases (linked_insertEntry e (s.observe o) _ hops lifetime p).1 hp with rfl | hold
    · rw [rt_insertEntry, rt_linkEntry_self]
      have hclimbs : Climbs o s.trace := (hc.suffix hsaid.suffix).1
      refine ⟨?_, fun hv hn => ?_, fun hv hn => ?_⟩
      · change rank state seqno (hops.setWidth 8) ∈ known dest _
        rw [hknown, hcons]
        exact List.mem_cons_self
      · change state = .valid at hv
        subst hv
        intro x hx
        change x ∈ known dest _ at hx
        rw [hknown, hcons] at hx
        rcases List.mem_cons.1 hx with rfl | hx
        · exact Int.le_refl _
        · exact (hclimbs _ rfl).resolve_left hn x hx
      · change state = .valid at hv
        subst hv
        exact hvia.resolve_left hn
    · have hne : p ≠ s.brk := by
        rintro rfl
        exact hs.brk_not_linked hold
      have hdest : (s.rt p).destAddr ≠ dest := by
        obtain ⟨i, hpi⟩ := hold
        intro hd
        have hbucket : hashing (s.rt p).destAddr = i := (hs.table.bucket i p hpi).1
        refine hnew p ?_ hd
        rw [← hd, hbucket]
        exact hpi
      have hobs : Said (fun o => given (s.rt p).destAddr o = none) s (s.observe o) :=
        .one rfl (if_neg fun hd => hdest hd.symm)
      refine (h hold).same (.of_eq ?_) (hobs.trans (hsaid.mono fun _ => given_nl))
      rw [rt_insertEntry]
      exact rt_linkEntry_ne (s.observe o) _ hne

theorem placed_quietly (h : Linked s.rtTbl p → Placed via s.trace (s.rt p))
    (hp : Linked s'.rtTbl p) (hl : Linked s'.rtTbl p → Linked s.rtTbl p)
    (hr : SameRank (s.rt p) (s'.rt p)) (hsaid : ∀ d, Said (fun o => given d o = none) s s') :
    Placed via s'.trace (s'.rt p) := (h (hl hp)).same hr (hsaid _)

theorem placed_rerrSeqno (h : Placed via s.trace (s.rt p)) (hs : WellFormed s)
    (hp : Linked s.rtTbl p) (hq : Linked s.rtTbl q) (hi : (s.rt q).state = .invalid) (seqno : U32) :
    Placed via (.rerrSeqno q (s.rt q) seqno :: s.trace)
      (((s.observe (.rerrSeqno q (s.rt q) seqno)).setRt q { s.rt q with
        destSeqno := seqno }).rt p) := by
  by_cases hne : p = q
  · subst q
    rw [rt_setRt_self]
    exact .down hi (List.mem_filterMap.2 ⟨_, List.mem_cons_self, if_pos rfl⟩)
  · rw [rt_setRt_ne _ _ hne]
    have hobs : Said (fun o => given (s.rt p).destAddr o = none) s
        (s.observe (.rerrSeqno q (s.rt q) seqno)) := .one rfl (if_neg (dest_ne hs hp hq hne))
    have hafter : Placed via (s.observe (.rerrSeqno q (s.rt q) seqno)).trace
        ((s.observe (.rerrSeqno q (s.rt q) seqno)).rt p) := h.same (.refl _) hobs
    exact hafter

theorem placed_move (h : Linked s.rtTbl p → Placed via s.trace (s.rt p)) (hs : WellFormed s)
    (hev : Backed via ev) (hc : Rising s'.trace) (hobeys : ∀ o ∈ s'.trace, obeys o = true)
    (hm : Move e ev s s') (hp : Linked s'.rtTbl p) : Placed via s'.trace (s'.rt p) := by
  cases hm with
  | slide hm =>
      have hold := (slide_linked hm p).1 hp
      exact placed_slide (h hold) hs hold hm
  | @updateTimeout q lifetime hl hq =>
      refine placed_quietly h hp ((kept_updateTimeout e lifetime hq).keys.linked p).1 (.of_eq ?_)
        fun d => updateTimeout_said e s q lifetime
      rw [rt_updateTimeout]
  | @helloArm q now time hq hh =>
      have hset : SameRank (s.rt p) ((s.setRt q { s.rt q with lastHelloTime := now }).rt p) := by
        apply sameRank_setRt
        exact ⟨rfl, rfl, rfl, rfl, rfl⟩
      exact placed_quietly h hp id hset fun d => .same rfl
  | @helloMark q ht hh hu =>
      have hset : SameRank (s.rt p) ((markRepair s q).rt p) := by
        apply sameRank_setRt
        exact ⟨rfl, rfl, rfl, rfl, rfl⟩
      exact placed_quietly h hp id hset fun d => .same rfl
  | @rerrSeqno q pkt udest hq _ _ _ =>
      have hi := hobeys _ List.mem_cons_self
      exact placed_rerrSeqno (h hp) hs hp hq (of_decide_eq_true hi) udest.2
  | @repairTimeout q hq hr =>
      refine placed_quietly h hp ((kept_localRepairTimeout e hq).keys.linked p).1 ?_
        fun d => (repairTimeout_said e s q).mono fun _ => given_report
      rw [rt_repairTimeout]
      split
      next he =>
        subst he
        exact ⟨rfl, rfl, rfl, rfl, rfl⟩
      · exact .refl _
  | @delete q hq hh =>
      obtain ⟨hold, hne⟩ := (linked_delete e s q p).1 hp
      exact placed_quietly h hp (fun _ => hold) (.of_eq (rt_delete e s hne))
        fun d => (delete_said e s q).mono fun _ => given_nl
  | expireIdle => exact placed_quietly h hp id (.refl _) fun d => .same rfl
  | insert lifetime state hl => exact placed_insert h hs lifetime state (hev _ _ _ _ _ _ _ _ hl).2 hc hp
  | @update q src next hops seqno lifetime hq hl =>
      have hold : Linked s.rtTbl p := by
        obtain ⟨s₁, hkept, heq⟩ := update_kept e s hq next hops seqno lifetime .valid (s.rt q).flags
        rw [heq, tbl_routeFound] at hp
        exact (hkept.keys.linked p).1 hp
      by_cases hne : p = q
      · subst q
        obtain ⟨hhops, hvia⟩ := hev _ _ _ _ _ _ _ _ hl
        exact placed_update_self (h hold) hs hold lifetime _ hhops hvia
          (hc.suffix (update_suffix hold _ _ _ _ _ _)).1
      · exact placed_update_ne (h hold) hs hold hq hne _ _ _ _ _ _
  | seekNew => exact placed_quietly h hp id (.refl _) fun d => .same rfl
  | @seekFail q hq =>
      refine placed_quietly h hp id (.refl _) fun d => ?_
      have hobs : Said (fun o => given d o = none) s
          ((pop s (.seekTimer q)).tock.observe (.discoveryFailed q)) := .one rfl rfl
      exact hobs.trans ((noRoute_said e _ (s.seek q).destAddr).mono fun _ => given_nl)
  | repairStart => exact placed_quietly h hp id (.refl _) fun d => .one rfl rfl

end Entries

def Ranked (via : Addr → Addr → Int → Prop) (s : Daemon) : Prop :=
  ∀ p, Linked s.rtTbl p → Placed via s.trace (s.rt p)

section Daemons

variable {via : Addr → Addr → Int → Prop} {e : Env} {ev : Event} {s s' : Daemon}

theorem Ranked.moves (h : Ranked via s) (hs : WellFormed s) (hev : Backed via ev)
    (hc : Rising s'.trace) (hobeys : ∀ o ∈ s'.trace, obeys o = true)
    (hm : ReflTransGen (Move e ev) s s') : Ranked via s' := by
  induction hm with
  | refl => exact h
  | tail hrun hm ih =>
      have htrace := move_trace hm
      have hmid := ih (hc.suffix htrace) fun o ho => hobeys o (htrace.subset ho)
      exact fun p hp => placed_move (hmid p) (moves_wellFormed hrun hs) hev hc hobeys hm hp

theorem Ranked.step (h : Ranked via s) (hs : Resting s) (hev : Backed via ev)
    (hc : Rising (step e s ev).trace) (hobeys : ∀ o ∈ (step e s ev).trace, obeys o = true) :
    Ranked via (step e s ev) :=
  h.moves hs.wellFormed hev hc hobeys (step_moves hs ev).1

end Daemons

end Aodv.Mesh
