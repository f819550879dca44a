import Aodv.Addressees
import Aodv.LoopFreedom
import Aodv.RouteBack
import Aodv.WireFormat

namespace Aodv.Flood

open Lib.Bytes
open Mesh RouteBack
open Relation

section Networks

variable {ι : Type} {N : Network ι} {σ τ : ι → Daemon} {m : RREQ} {hops : U8} {ttl : Int} {i j : ι}
variable {path : List ι}

/-- The node passes the RREQ on if it is not the destination. -/
structure Forwards (e : Env) (s : Daemon) (m : RREQ) : Prop where
  foreign : m.destAddr ≠ s.host.ipaddr
  transmits : Transmits e
  uncongested : Uncongested e s

/-- The RREQ comes from node i, and along the path every node waits for it from the
node before; all but the last can pass it on. -/
def Ready (N : Network ι) (σ : ι → Daemon) (m : RREQ) : ι → List ι → Prop
  | _, [] => True
  | i, j :: path => Awaits (σ j) m (N.addr i) ∧
      (path ≠ [] → Forwards (N.env j) (σ j) m) ∧ Ready N σ m j path

/-- Each node of the path has a route to the originator over the node before, one
hop longer than that one's. -/
def Traced (N : Network ι) (σ : ι → Daemon) (m : RREQ) : ι → U8 → List ι → Prop
  | _, _, [] => True
  | i, hops, j :: path => (∃ p, Linked (σ j).rtTbl p ∧
      Heard.IsRoute ((σ j).rt p) m.origAddr (N.addr i) (hops + 1) m.origSeqno) ∧
        Traced N σ m j (hops + 1) path

theorem ready_congr (h : ∀ k ∈ path, τ k = σ k) (hr : Ready N σ m i path) : Ready N τ m i path := by
  induction path generalizing i with
  | nil => trivial
  | cons j path ih =>
      obtain ⟨hj, hpath⟩ := List.forall_mem_cons.1 h
      rw [Ready, hj]
      exact ⟨hr.1, hr.2.1, ih hpath hr.2.2⟩

theorem carried_offer (h : Offers m hops ttl (σ j)) (i : ι) :
    ∃ pkt, Carried N σ i pkt ∧ Copy m hops (BitVec.ofInt 8 ttl) pkt ∧ pkt.src = N.addr j := by
  obtain ⟨msg, len, bytes, hsent, hlen, hread⟩ := h
  have hbuf := ReceivedBytes.received_overlay (bytes.take receBufSize) zeroed
  obtain ⟨htype, hfields⟩ := hread _ hbuf
  have hfits : min bytes.length receBufSize ≤ receBufSize := Nat.min_le_right _ _
  refine ⟨⟨overlay (bytes.take receBufSize) zeroed, min bytes.length receBufSize, hfits, N.addr j,
    aodvBroadcast, some (BitVec.ofInt 8 ttl)⟩, .of hsent rfl (.inl rfl) rfl hbuf rfl, ?_, rfl⟩
  exact ⟨rfl, htype, Nat.le_min.2 ⟨hlen, by decide⟩, hfields⟩

theorem offers_sent {s : Daemon} {msg : Msg} {len : Int}
    (h : .socketSend msg aodvBroadcast len ttl (some (wireBytes (.rreq m))) ∈ s.trace) :
    Offers m m.hopcnt ttl s := by
  refine ⟨msg, len, _, h, ?_, fun buf hbuf => ?_⟩
  · rw [WireFormat.wireBytes_length]
    exact Nat.le_refl _
  · have hfits : (wireBytes (.rreq m)).length ≤ receBufSize := by
      rw [WireFormat.wireBytes_length]
      exact fits_rreq m
    rw [List.take_of_length_le hfits] at hbuf
    have hagree : ReceivedBytes.Agree rreqSize buf (rreqBuf m) := WireFormat.agree_take hbuf
    refine ⟨?_, m.destSeqno, decide_eq_true (Int.le_refl _), ?_⟩
    · rw [hagree 0 (by decide), WireFormat.rreqBuf_head m (by decide)]
      rfl
    · rw [ReceivedBytes.rreqOf_congr hagree (Nat.le_refl _), WireFormat.rreqOf_rreqBuf]

variable [DecidableEq ι]

theorem own_addr (h : Reached N σ) (k : ι) : (σ k).host.ipaddr = N.addr k := by
  induction h with
  | start => rfl
  | @step σ h i ev hev ih =>
      by_cases hk : k = i
      · subst k
        rw [Function.update_self]
        exact (Mesh.resting_step (e := N.env i) (Reachable.resting (daemons h i)) ev).2.trans ih
      · rw [Function.update_of_ne hk]
        exact ih

theorem hears (h : Reached N σ) {ttl : Nat} (hle : ttl < 256) (ho : Offers m hops ttl (σ i))
    (hij : j ≠ i) (horig : N.addr j ≠ m.origAddr) (hdorig : m.destAddr ≠ m.origAddr)
    (hdest : m.destAddr ≠ N.addr i) (ha : Awaits (σ j) m (N.addr i)) :
    ∃ s, Reached N (Function.update σ j s) ∧ (∃ p, Linked s.rtTbl p ∧
        Heard.IsRoute (s.rt p) m.origAddr (N.addr i) (hops + 1) m.origSeqno) ∧
      (Forwards (N.env j) (σ j) m → 1 < ttl → Offers m (hops + 1) (ttl - 1 : Nat) s) := by
  obtain ⟨pkt, hcarried, hcopy, hsrc⟩ := carried_offer (N := N) ho j
  have hown := own_addr h j
  have hbyte : (BitVec.ofInt 8 ttl).toNat = ttl := by
    rw [BitVec.toNat_ofInt]
    omega
  have hforeign : pkt.src ≠ (σ j).host.ipaddr := by
    rw [hsrc, hown]
    exact fun heq => hij (N.distinct heq).symm
  rw [← hsrc] at hdest ha ⊢
  obtain ⟨s', rev, hstep, hrev⟩ := read_copy (N.env j)
    (Reachable.resting (daemons h j)).wellFormed hcopy hforeign (by rw [hown]; exact horig.symm)
    hdorig hdest ha
  have hev : ∀ pkt', Event.recv pkt = .recv pkt' → Carried N σ j pkt' := by
    rintro _ ⟨⟩
    exact hcarried
  refine ⟨_, h.step j hev, ⟨rev, ?_⟩, fun hf hmore => ?_⟩
  · rw [hstep]
    exact hrev.stays (N.env j) hcopy.read _
  · rw [hstep]
    have hoffer := hrev.offers hf.transmits hf.uncongested hcopy hf.foreign (by rwa [hbyte])
    rw [hbyte] at hoffer ⊢
    rwa [Nat.cast_sub (by omega)]

/-- The RREQ runs along the path. -/
theorem runs (h : Reached N σ) {ttl : Nat} (hle : ttl < 256) (ho : Offers m hops ttl (σ i))
    (hpath : path.length ≤ ttl) (hnodup : (i :: path).Nodup)
    (horig : ∀ j ∈ path, N.addr j ≠ m.origAddr) (hdorig : m.destAddr ≠ m.origAddr)
    (hdest : m.destAddr ≠ N.addr i) (hready : Ready N σ m i path) :
    ∃ τ, Reached N τ ∧ (∀ k ∉ path, τ k = σ k) ∧ Traced N τ m i hops path := by
  induction path generalizing σ i hops ttl with
  | nil => exact ⟨σ, h, fun _ _ => rfl, trivial⟩
  | cons j path ih =>
      obtain ⟨hi, hnodup⟩ := List.nodup_cons.1 hnodup
      obtain ⟨hj, -⟩ := List.nodup_cons.1 hnodup
      obtain ⟨hjorig, horig⟩ := List.forall_mem_cons.1 horig
      obtain ⟨ha, hf, hready⟩ := hready
      have hij : j ≠ i := by
        rintro rfl
        exact hi List.mem_cons_self
      obtain ⟨s, hreach, hroute, hoffer⟩ := hears h hle ho hij hjorig hdorig hdest ha
      have hself : Function.update σ j s j = s := Function.update_self ..
      have hother (k : ι) (hk : k ≠ j) : Function.update σ j s k = σ k :=
        Function.update_of_ne hk ..
      cases path with
      | nil =>
          refine ⟨_, hreach, fun k hk => hother k (by simpa using hk), ?_, trivial⟩
          rw [hself]
          exact hroute
      | cons k path =>
          have hlong : path.length + 2 ≤ ttl := hpath
          have hpass := hf (List.cons_ne_nil _ _)
          have hnext := hoffer hpass (by omega)
          have hforeign : m.destAddr ≠ N.addr j := own_addr h j ▸ hpass.foreign
          obtain ⟨τ, hτ, hsame, htraced⟩ := ih hreach (by omega : ttl - 1 < 256) (by rwa [hself])
            (Nat.le_sub_of_add_le hlong) hnodup horig hforeign
            (ready_congr (fun l hl => hother l (ne_of_mem_of_not_mem hl hj)) hready)
          refine ⟨τ, hτ, fun l hl => ?_, ?_, htraced⟩
          · obtain ⟨hlj, hl⟩ := not_or.1 (mt List.mem_cons.2 hl)
            exact (hsame l hl).trans (hother l hlj)
          · rw [hsame j hj, hself]
            exact hroute

omit [DecidableEq ι] in
theorem Traced.leads (h : Traced N σ m i hops path) :
    ∀ j ∈ path, TransGen (Hop N σ m.origAddr) j i := by
  induction path generalizing i hops with
  | nil => exact fun _ hj => absurd hj List.not_mem_nil
  | cons j path ih =>
      obtain ⟨⟨p, hp, hroute⟩, hpath⟩ := h
      have hback : Hop N σ m.origAddr j i := ⟨p, hp, hroute.state, hroute.dest, hroute.next⟩
      rw [List.forall_mem_cons]
      exact ⟨.single hback, fun k hk => (ih hpath k hk).tail hback⟩

omit [DecidableEq ι] in
theorem Traced.get (h : Traced N σ m i hops path) {n : Nat} {prev : ι} (hj : path[n]? = some j)
    (hprev : (i :: path)[n]? = some prev) : ∃ p, Linked (σ j).rtTbl p ∧
      Heard.IsRoute ((σ j).rt p) m.origAddr (N.addr prev)
      (hops + 1 + BitVec.ofNat 8 n) m.origSeqno := by
  induction path generalizing i hops n with
  | nil => cases hj
  | cons k path ih =>
      obtain ⟨hroute, hpath⟩ := h
      cases n with
      | zero =>
          obtain rfl : k = j := Option.some.inj hj
          obtain rfl : i = prev := Option.some.inj hprev
          rw [BitVec.add_zero]
          exact hroute
      | succ n =>
          obtain ⟨p, hp, hn⟩ := ih hpath hj hprev
          refine ⟨p, hp, ?_⟩
          have hhops : hops + 1 + BitVec.ofNat 8 (n + 1) = hops + 1 + 1 + BitVec.ofNat 8 n := by
            rw [BitVec.ofNat_add]
            grind
          rw [hhops]
          exact hn

/-- An RREQ of node i can run along every path whose nodes have not had it, do not
know a newer number of its originator and cannot answer it, as far as its TTL goes.
Then each node of the path has a route back over the node before it. -/
theorem flood_leads_back (h : Reached N σ) {msg : Msg} {len : Int} {ttl : Nat} (hle : ttl < 256)
    (hsent : .socketSend msg aodvBroadcast len ttl (some (wireBytes (.rreq m))) ∈ (σ i).trace)
    (horig : m.origAddr = N.addr i) (hdest : m.destAddr ≠ N.addr i) (hops : m.hopcnt = 0)
    (hpath : path.length ≤ ttl)
    (hnodup : (i :: path).Nodup) (hready : Ready N σ m i path) :
    ∃ τ, Reached N τ ∧ (∀ k ∉ path, τ k = σ k) ∧
      (∀ n j prev, path[n]? = some j → (i :: path)[n]? = some prev →
        ∃ p, Linked (τ j).rtTbl p ∧ ((τ j).rt p).state = .valid ∧
          ((τ j).rt p).destAddr = N.addr i ∧ ((τ j).rt p).nextHop = N.addr prev ∧
          ((τ j).rt p).hopcnt.toNat = n + 1 ∧ ((τ j).rt p).destSeqno = m.origSeqno) ∧
      ∀ j ∈ path, TransGen (Hop N τ (N.addr i)) j i := by
  have hforeign : ∀ j ∈ path, N.addr j ≠ m.origAddr := by
    intro j hj heq
    rw [horig] at heq
    exact (List.nodup_cons.1 hnodup).1 (N.distinct heq ▸ hj)
  obtain ⟨τ, hτ, hsame, htraced⟩ := runs h hle (offers_sent hsent) hpath hnodup hforeign
    (horig ▸ hdest) hdest hready
  rw [← horig]
  refine ⟨τ, hτ, hsame, fun n j prev hj hprev => ?_, htraced.leads⟩
  obtain ⟨p, hp, hroute⟩ := htraced.get hj hprev
  refine ⟨p, hp, hroute.state, hroute.dest, hroute.next, ?_, hroute.seqno⟩
  obtain ⟨hn, -⟩ := List.getElem?_eq_some_iff.1 hj
  have hone : (0 + 1 : U8).toNat = 1 := rfl
  rw [hroute.hops, hops, BitVec.toNat_add, BitVec.toNat_ofNat, hone]
  omega

end Networks

theorem not_linked_init (e : Env) (ipaddr broadcast : Addr) (ifindex : Int) (p : Ptr) :
    ¬ Linked (init e ipaddr broadcast ifindex).rtTbl p := by
  rintro ⟨i, hi⟩
  exact absurd hi List.not_mem_nil

theorem awaits_init (e : Env) (ipaddr broadcast : Addr) (ifindex : Int) {m : RREQ} {src : Addr} :
    Awaits (init e ipaddr broadcast ifindex) m src where
  blacklist := rfl
  new := rfl
  room := by
    have hempty : entries (init e ipaddr broadcast ifindex).rtTbl = [] := by
      rw [List.eq_nil_iff_forall_not_mem]
      intro p hp
      exact not_linked_init e ipaddr broadcast ifindex p ((mem_entries _ p).1 hp)
    rw [hempty]
    decide
  older := fun p hp => absurd hp (not_linked_init e ipaddr broadcast ifindex p)
  twoWay := fun _ p hp => absurd hp (not_linked_init e ipaddr broadcast ifindex p)
  unanswered := fun _ => .inr fun p hp =>
    absurd hp (not_linked_init e ipaddr broadcast ifindex p)

theorem uncongested_init (e : Env) (ipaddr broadcast : Addr) (ifindex : Int) :
    Uncongested e (init e ipaddr broadcast ifindex) := by
  rintro - n - ⟨⟩

/-- The RREQ that node 0 has sent with a TTL of 2 reaches node 2 over node 1. -/
theorem flood_leads_back_trio : ∃ τ, Reached trio τ ∧ (∀ k ∉ [1, 2], τ k = begun k) ∧
    (∀ n j prev, [1, 2][n]? = some j → [0, 1, 2][n]? = some prev →
      ∃ p, Linked (τ j).rtTbl p ∧ ((τ j).rt p).state = .valid ∧
        ((τ j).rt p).destAddr = trio.addr 0 ∧ ((τ j).rt p).nextHop = trio.addr prev ∧
        ((τ j).rt p).hopcnt.toNat = n + 1 ∧ ((τ j).rt p).destSeqno = 0) ∧
    ∀ j ∈ [1, 2], TransGen (Hop trio τ (trio.addr 0)) j 0 := by
  have hany : (begun 0).trace.any (offers (asked 0 0x0900000a 0) 2) = true := by decide +kernel
  obtain ⟨o, ho, hoffers⟩ := List.any_eq_true.1 hany
  cases o with
  | socketSend msg dest len ttl sent =>
      cases sent with
      | none => cases hoffers
      | some bytes =>
          obtain ⟨rfl, rfl, rfl⟩ := of_decide_eq_true hoffers
          refine flood_leads_back reached_begun (by decide : 2 < 256) ho rfl (by decide) rfl
            (by decide) (by decide) ?_
          refine ⟨awaits_init _ _ _ _, fun _ => ?_, awaits_init _ _ _ _,
            fun hne => absurd rfl hne, trivial⟩
          exact ⟨by decide, fun _ => ⟨rfl, rfl⟩, uncongested_init _ _ _ _⟩
  | _ => cases hoffers

end Aodv.Flood
