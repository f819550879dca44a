import Aodv.Moves

namespace Aodv.ReceivedBytes

open Lib.Bytes

def Agree (len : Nat) (b c : Buf) : Prop := ∀ i, i < len → b i = c i

namespace Agree

variable {len : Nat} {b c : Buf}

theorem mono {n : Nat} (h : Agree len b c) (hn : n ≤ len) : Agree n b c :=
  fun i hi => h i (Nat.lt_of_lt_of_le hi hn)

theorem little (h : Agree len b c) (off : Nat) (ho : off + 4 ≤ len) :
    loadLE b off = loadLE c off := by
  apply loadLE_congr
  intro i _ hi
  exact h i (by omega)

theorem big (h : Agree len b c) (off : Nat) (ho : off + 4 ≤ len) :
    loadBE b off = loadBE c off := by
  apply loadBE_congr
  intro i _ hi
  exact h i (by omega)

theorem copied (h : Agree len b c) (d : Buf) : copy d b len = copy d c len := by
  funext i
  simp only [copy]
  split
  next hi => exact h i hi
  · rfl

theorem modify (h : Agree len b c) (off : Nat) (f : U8 → U8) :
    Agree len (store b off (f (b off))) (store c off (f (c off))) := by
  intro i hi
  simp only [store]
  split
  next he => rw [h off (he ▸ hi)]
  · exact h i hi

theorem stored (h : Agree len b c) (off : Nat) (v : U32) :
    Agree len (storeBE b off v) (storeBE c off v) := by
  intro i hi
  simp only [storeBE]
  split
  · rfl
  · exact h i hi

end Agree

theorem rreqOf_congr {len : Nat} {b c : Buf} (h : Agree len b c) (hl : rreqSize ≤ len) :
    rreqOf b = rreqOf c := by
  have h' : Agree 24 b c := h.mono hl
  rw [rreqOf, rreqOf, h' 1 (by decide), h' 3 (by decide), h'.big 4 (by decide),
    h'.little 8 (by decide), h'.big 12 (by decide),
    h'.little 16 (by decide), h'.big 20 (by decide)]

theorem rrepOf_congr {len : Nat} {b c : Buf} (h : Agree len b c) (hl : rrepSize ≤ len) :
    rrepOf b = rrepOf c := by
  have h' : Agree 20 b c := h.mono hl
  rw [rrepOf, rrepOf, h' 1 (by decide), h' 2 (by decide), h' 3 (by decide),
    h'.little 4 (by decide), h'.big 8 (by decide),
    h'.little 12 (by decide), h'.big 16 (by decide)]

section Handlers

variable {e : Env} {s : Daemon} {len : Nat} {b c : Buf}

theorem rreqForward_congr (h : Agree len b c) (ttl : Int) :
    rreqForward e s b len ttl = rreqForward e s c len ttl := by
  have htake := take_congr (h.modify 3 (· + 1))
  rw [rreqForward, rreqForward, aodvSocketQueueMsg, aodvSocketQueueMsg, h.copied, htake]

theorem rreqPassOn_congr (h : Agree len b c) (m : RREQ) (fwd : Option Ptr) (ttl : Int) :
    rreqPassOn e s b len m fwd ttl = rreqPassOn e s c len m fwd ttl := by
  unfold rreqPassOn
  split
  · cases fwd with
    | none => exact rreqForward_congr h _
    | some f =>
        dsimp only
        split
        · exact rreqForward_congr (h.stored _ _) _
        · exact rreqForward_congr h _
  · rfl

theorem rreqUnrouted_congr (h : Agree len b c) (m : RREQ) (ttl : Int) :
    rreqUnrouted e s b len m ttl = rreqUnrouted e s c len m ttl := by
  rw [rreqUnrouted, rreqUnrouted, rreqPassOn_congr h]

theorem rreqRoute_congr (h : Agree len b c) (m : RREQ) (rev : Ptr) (ttl : Int) :
    rreqRoute e s b len m rev ttl = rreqRoute e s c len m rev ttl := by
  rw [rreqRoute, rreqRoute]
  cases rtTableCheck s.rtTbl m.destAddr with
  | none => exact rreqPassOn_congr h m _ ttl
  | some f =>
      dsimp only
      split
      · split
        · rfl
        · exact rreqPassOn_congr h m _ ttl
      · exact rreqPassOn_congr h m _ ttl

theorem rreqProcess_short (hl : len < rreqSize) (src : Addr) (ttl : Int) :
    rreqProcess e s b len src ttl = s := by
  rw [rreqProcess]
  dsimp only
  rw [if_pos hl]
  exact ite_self _

theorem rreqProcess_congr (h : Agree len b c) (src : Addr) (ttl : Int) :
    rreqProcess e s b len src ttl = rreqProcess e s c len src ttl := by
  by_cases hl : len < rreqSize
  · rw [rreqProcess_short hl, rreqProcess_short hl]
  · have hm := rreqOf_congr h (Nat.le_of_not_lt hl)
    simp only [rreqProcess, hm, rreqRoute_congr h, rreqUnrouted_congr h]

theorem rrepAskAck_congr (h : Agree len b c) (rev : Ptr) :
    (rrepAskAck e s b rev).1 = (rrepAskAck e s c rev).1 ∧
      Agree len (rrepAskAck e s b rev).2 (rrepAskAck e s c rev).2 := by
  rw [rrepAskAck, rrepAskAck]
  cases rrepAckNeighbor s rev with
  | none => exact ⟨rfl, h⟩
  | some n =>
      dsimp only
      split
      · exact ⟨rfl, h⟩
      · exact ⟨rfl, h.modify 1 (· ||| bit true 1)⟩

theorem rrepForward_congr (h : Agree len b c) (rev fwd : Ptr) (ttl : Int) :
    rrepForward e s b len rev fwd ttl = rrepForward e s c len rev fwd ttl := by
  obtain ⟨hs, hbuf⟩ := rrepAskAck_congr (e := e) (s := s) h rev
  rw [rrepForward, rrepForward]
  generalize rrepAskAck e s b rev = o at hs hbuf
  generalize rrepAskAck e s c rev = o' at hs hbuf
  obtain ⟨s₁, b₁⟩ := o
  obtain ⟨s₂, c₁⟩ := o'
  obtain rfl : s₁ = s₂ := hs
  dsimp only at hbuf ⊢
  have hqueue : aodvSocketQueueMsg s₁ b₁ len = aodvSocketQueueMsg s₁ c₁ len := by
    rw [aodvSocketQueueMsg, aodvSocketQueueMsg, hbuf.copied]
  have htake (v : U8) : take (store b₁ 3 v) len = take (store c₁ 3 v) len :=
    take_congr (hbuf.modify 3 fun _ => v)
  rw [hqueue, htake]

theorem rrepProcess_congr (h : Agree len b c) (src : Addr) (ttl : Int) :
    rrepProcess e s b len src ttl = rrepProcess e s c len src ttl := by
  rw [rrepProcess, rrepProcess]
  by_cases hl : len < rrepSize
  · simp only [if_pos hl]
  · have hm := rrepOf_congr h (Nat.le_of_not_lt hl)
    have hack := h.modify 1 (· &&& ~~~(bit true 1))
    simp only [hm, if_neg hl]
    split
    · rfl
    · cases rrepRoute e s (rrepOf c) src with
      | none => rfl
      | some o =>
          cases (rrepOf c).a with
          | false => simp only [Bool.false_eq_true, if_false, rrepForward_congr h]
          | true => simp only [if_true, rrepForward_congr hack]

theorem listed_congr (h : Agree len b c) (hl : ¬ (len : Int) < rerrCalcSize (b 3)) (h3 : b 3 = c 3) :
    listed b = listed c := by
  rw [listed, listed, ← h3]
  apply List.map_congr_left
  intro k hk
  have hk := List.mem_range.1 hk
  have hoff : udestOffset k + 4 + 4 ≤ len := by
    simp only [rerrCalcSize, udestOffset] at hl ⊢
    omega
  rw [udestAt, udestAt, h.little _ (by omega), h.big _ hoff]

theorem rerrProcess_short (hl : len < 4) (src : Addr) : rerrProcess e s b len src = s := by
  rw [rerrProcess]
  apply if_pos
  rw [rerrCalcSize]
  omega

theorem rerrProcess_congr (h : Agree len b c) (src : Addr) :
    rerrProcess e s b len src = rerrProcess e s c len src := by
  by_cases hshort : len < 4
  · rw [rerrProcess_short hshort, rerrProcess_short hshort]
  · have h3 : b 3 = c 3 := h 3 (by omega)
    have h1 : b 1 = c 1 := h 1 (by omega)
    rw [rerrProcess, rerrProcess, ← h3]
    split
    · rfl
    next hl => rw [listed_congr h hl h3, h1]

theorem helloProcess_congr (h : Agree 12 b c) : helloProcess e s b = helloProcess e s c := by
  have hd : (rrepOf b).destAddr = (rrepOf c).destAddr := h.little 4 (by decide)
  have hq : (rrepOf b).destSeqno = (rrepOf c).destSeqno := h.big 8 (by decide)
  simp only [helloProcess, hd, hq]

end Handlers

/-- The buffer after a datagram of these bytes has been received into it. -/
def Received (bytes : List U8) (buf : Buf) : Prop := take buf bytes.length = bytes

def leaves : Obs → Bool
  | .socketSend .. | .nl _ | .kernelRoute .. => true
  | _ => false

structure Alike (s s' : Daemon) : Prop where
  rtTbl : s'.rtTbl = s.rtTbl
  sl : s'.sl = s.sl
  seekMem : s'.seekMem = s.seekMem
  rreqRecords : s'.rreqRecords = s.rreqRecords
  rreqBlacklists : s'.rreqBlacklists = s.rreqBlacklists
  timers : s'.timers = s.timers
  seqno : s'.host.seqno = s.host.seqno
  sent : s'.trace.filter leaves = s.trace.filter leaves

/-- Nothing but the received bytes matters to what a datagram does. -/
def Independent (bytes : List U8) (src dest : Addr) (ttl : Int) : Prop :=
  ∀ e s, Reachable e s → ∀ buf buf', Received bytes buf → Received bytes buf' →
    Alike (aodvSocketPackageProcess e s buf bytes.length src dest ttl)
      (aodvSocketPackageProcess e s buf' bytes.length src dest ttl)

/-- The datagrams that hello_process gets. -/
def AsHello (bytes : List U8) (dest : Addr) (ttl : Int) : Prop :=
  bytes.head? = some aodvHello ∨
    (bytes.head? = some aodvRrep ∧ ttl = 1 ∧ dest = aodvBroadcast)

/-- There is a type byte, and a HELLO reaches to its sequence number. -/
def Covers (bytes : List U8) (dest : Addr) (ttl : Int) : Prop :=
  bytes ≠ [] ∧ (AsHello bytes dest ttl → 12 ≤ bytes.length)

def retyped (buf : Buf) (dest : Addr) (ttl : Int) : Buf :=
  if buf 0 = aodvRrep ∧ ttl = 1 ∧ dest = aodvBroadcast then store buf 0 aodvHello else buf

def dispatch (e : Env) (s : Daemon) (buf : Buf) (len : Nat) (src : Addr) (ttl : Int) : Daemon :=
  if buf 0 = aodvHello then helloProcess e s buf
  else if buf 0 = aodvRreq then rreqProcess e s buf len src ttl
  else if buf 0 = aodvRrep then rrepProcess e s buf len src ttl
  else if buf 0 = aodvRerr then rerrProcess e s buf len src
  else if buf 0 = aodvRrepAck then rrepAckProcess s src
  else s

theorem package_eq (e : Env) (s : Daemon) (buf : Buf) (len : Nat) (src dest : Addr) (ttl : Int) :
    aodvSocketPackageProcess e s buf len src dest ttl =
      dispatch e (neighborAdd e s src) (retyped buf dest ttl) len src ttl := rfl

theorem Received.byte {bytes : List U8} {buf : Buf} (h : Received bytes buf) {i : Nat}
    (hi : i < bytes.length) : buf i = bytes[i] := by
  have hget : (take buf bytes.length)[i]? = bytes[i]? := congrArg (·[i]?) h
  simpa [take, hi] using hget

theorem Received.agree {bytes : List U8} {buf buf' : Buf} (h : Received bytes buf)
    (h' : Received bytes buf') : Agree bytes.length buf buf' := by
  intro i hi
  rw [h.byte hi, h'.byte hi]

theorem received_overlay (bytes : List U8) (stale : Buf) : Received bytes (overlay bytes stale) := by
  apply List.ext_getElem
  · exact take_length _ _
  · intro i hi hi'
    simp [take, overlay, hi']

section Package

variable {e : Env} {s : Daemon} {bytes : List U8} {src dest : Addr} {ttl : Int} {buf buf' : Buf}

theorem Received.type (h : Received bytes buf) (hne : bytes ≠ []) :
    bytes.head? = some (buf 0) := by
  have hpos : 0 < bytes.length := List.length_pos_iff.2 hne
  rw [h.byte hpos]
  exact List.head?_eq_getElem?.trans (List.getElem?_eq_getElem hpos)

theorem Agree.retyped {len : Nat} (h : Agree len buf buf') (hpos : 0 < len) :
    Agree len (retyped buf dest ttl) (retyped buf' dest ttl) := by
  rw [ReceivedBytes.retyped, ReceivedBytes.retyped, ← h 0 hpos]
  split
  · exact h.modify 0 fun _ => aodvHello
  · exact h

theorem retyped_hello (h : Received bytes buf) (hne : bytes ≠ []) :
    retyped buf dest ttl 0 = aodvHello ↔ AsHello bytes dest ttl := by
  rw [retyped, AsHello, h.type hne, Option.some_inj, Option.some_inj]
  split
  next hr =>
    rw [store_apply_self]
    exact iff_of_true rfl (.inr hr)
  next hr =>
    constructor
    · exact .inl
    · exact fun hc => hc.resolve_right hr

theorem package_congr (hc : Covers bytes dest ttl) (h : Received bytes buf)
    (h' : Received bytes buf') :
    aodvSocketPackageProcess e s buf bytes.length src dest ttl =
      aodvSocketPackageProcess e s buf' bytes.length src dest ttl := by
  have hpos : 0 < bytes.length := List.length_pos_iff.2 hc.1
  have hagree : Agree bytes.length (retyped buf dest ttl) (retyped buf' dest ttl) :=
    (h.agree h').retyped hpos
  have hhello : retyped buf dest ttl 0 = aodvHello ↔ AsHello bytes dest ttl :=
    retyped_hello h hc.1
  rw [package_eq, package_eq, dispatch, dispatch, ← hagree 0 hpos, rreqProcess_congr hagree,
    rrepProcess_congr hagree, rerrProcess_congr hagree]
  split
  next ht => exact helloProcess_congr (hagree.mono (hc.2 (hhello.1 ht)))
  · rfl

end Package

structure Knows (s : Daemon) (addr : Addr) (seqno : U32) : Prop where
  wellFormed : WellFormed s
  entry : ∃ p, Linked s.rtTbl p ∧ (s.rt p).destAddr = addr ∧ (s.rt p).destSeqno = seqno

theorem Knows.unique {s s' : Daemon} {addr : Addr} {seqno seqno' : U32} (h : Knows s addr seqno)
    (h' : Knows s' addr seqno') (hrt : s'.rtTbl = s.rtTbl) : seqno = seqno' := by
  obtain ⟨p, hp, hd, rfl⟩ := h.entry
  obtain ⟨q, hq, hd', rfl⟩ := h'.entry
  rw [Daemon.rt, hrt] at hd'
  rw [hrt] at hq
  obtain rfl := h.wellFormed.table.dests p q hp hq (hd.trans hd'.symm)
  rw [Daemon.rt, Daemon.rt, hrt]

theorem kept_helloUpdateTimeout (e : Env) {s : Daemon} {p : Ptr} (hp : Linked s.rtTbl p)
    (now : Timeval) (time : Int) : Kept s (helloUpdateTimeout e s p now time) := by
  refine (Kept.arm (a := e.arch) s (e.clock s.tick) (.helloTimer p) (time + helloDelay) hp).trans ?_
  exact Kept.setRt _ p _ rfl rfl

theorem helloUpdateTimeout_knows (e : Env) {s : Daemon} {p : Ptr} (hs : WellFormed s)
    (hp : Linked s.rtTbl p) (now : Timeval) (time : Int) :
    Knows (helloUpdateTimeout e s p now time) (s.rt p).destAddr (s.rt p).destSeqno := by
  refine ⟨(kept_helloUpdateTimeout e hp now time).wellFormed hs, p, hp, ?_, ?_⟩
  · rw [helloUpdateTimeout, rt_setRt_self]
    rfl
  · rw [helloUpdateTimeout, rt_setRt_self]
    rfl

theorem hello_known (e : Env) {s : Daemon} {p : Ptr} (hs : WellFormed s) (hn : e.receiveNHellos = 0)
    (hp : Linked s.rtTbl p) (hu : (s.rt p).flags.unidir = false) (seqno timeout : U32)
    (now : Timeval) :
    Knows (helloKnown e s p (s.rt p).destAddr seqno timeout now) (s.rt p).destAddr seqno := by
  have hfirst : ¬ ((s.rt p).flags.unidir = true ∧ (s.rt p).state = .valid ∧ 1 < (s.rt p).hopcnt) := by
    simp [hu]
  have hgap : ¬ (e.receiveNHellos ≠ 0 ∧ ((s.rt p).helloCnt.toNat : Int) < e.receiveNHellos - 1) :=
    fun hc => hc.1 hn
  rw [helloKnown]
  dsimp only
  rw [if_neg hfirst, if_neg hgap]
  have hlinked := (linked_update e hp (s.rt p).destAddr 1 seqno timeout .valid (s.rt p).flags p).2 hp
  have hset := rt_update_self e s p (s.rt p).destAddr 1 seqno timeout .valid (s.rt p).flags
  have hkey : ((rtTableUpdate e s p (s.rt p).destAddr 1 seqno timeout .valid (s.rt p).flags).rt
      p).destAddr = (s.rt p).destAddr := by
    obtain ⟨s', hkept, heq⟩ :=
      update_kept e s hp (s.rt p).destAddr 1 seqno timeout .valid (s.rt p).flags
    rw [heq, rt_routeFound]
    exact hkept.keys.destAddr p
  have hknows := helloUpdateTimeout_knows e
    (update_sound e hs hp (s.rt p).destAddr 1 seqno timeout .valid (s.rt p).flags).wellFormed hlinked
    now (allowedHelloLoss * helloInterval)
  rw [hkey, hset.2.2.1] at hknows
  exact hknows

theorem insert_new (e : Env) {s : Daemon} {dest : Addr}
    (h : ∀ q ∈ s.rtTbl.tbl (hashing dest), (s.rt q).destAddr ≠ dest) (next : Addr)
    (hops seqno lifetime : U32) (state : RtState) (flags : RtFlags) :
    rtTableInsert e s dest next hops seqno lifetime state flags =
      (insertEntry e (s.observe (.rtInsert dest next hops seqno lifetime state flags))
        (newEntry dest next hops seqno state flags) hops lifetime, some s.brk) := by
  rw [rtTableInsert]
  apply if_neg
  simpa using h

/-- A table that is not empty is searched to the end of the bucket. -/
theorem not_found {s : Daemon} (hs : WellFormed s) {dest : Addr} (hn : s.rtTbl.numEntries ≠ 0)
    (hc : rtTableCheck s.rtTbl dest = none) :
    ∀ q ∈ s.rtTbl.tbl (hashing dest), (s.rt q).destAddr ≠ dest := by
  rw [rtTableCheck, if_neg hn, List.find?_eq_none] at hc
  intro q hq hd
  have hd : (s.rtTbl.rtMem q).destAddr = dest := hd
  refine hc q hq ?_
  simp [(hs.table.bucket _ q hq).2, hd]

theorem hello_learns (e : Env) {s : Daemon} (hs : WellFormed s) (hn : e.receiveNHellos = 0)
    (ht : s.rtTbl.numEntries ≠ 0) (hu : ∀ p, Linked s.rtTbl p → (s.rt p).flags.unidir = false)
    (buf : Buf) :
    Knows (helloProcess e s buf) (rrepOf buf).destAddr (rrepOf buf).destSeqno := by
  have htock := (Kept.tock s).wellFormed hs
  rw [helloProcess]
  dsimp only
  cases hc : rtTableCheck s.tock.rtTbl (rrepOf buf).destAddr with
  | none =>
      dsimp only
      obtain ⟨s', o, hi⟩ : ∃ s' o, rtTableInsert e s.tock (rrepOf buf).destAddr (rrepOf buf).destAddr 1
          (rrepOf buf).destSeqno (u32 (allowedHelloLoss * helloInterval + routeTimeoutSlack))
          (if e.receiveNHellos ≠ 0 then .invalid else .valid) .zero = (s', o) := ⟨_, _, rfl⟩
      have hsome := insert_new e (not_found htock ht hc) (rrepOf buf).destAddr 1 (rrepOf buf).destSeqno
        (u32 (allowedHelloLoss * helloInterval + routeTimeoutSlack))
        (if e.receiveNHellos ≠ 0 then .invalid else .valid) .zero
      have hw := wellFormed_insert e htock (rrepOf buf).destAddr (rrepOf buf).destAddr 1
        (rrepOf buf).destSeqno (u32 (allowedHelloLoss * helloInterval + routeTimeoutSlack))
        (if e.receiveNHellos ≠ 0 then .invalid else .valid) .zero
      rw [hi] at hsome hw ⊢
      obtain rfl : o = some s.tock.brk := congrArg Prod.snd hsome
      obtain ⟨hp, hrt⟩ := insert_some e hi
      dsimp only
      refine ⟨Kept.wellFormed ?_ hw, _, hp, ?_, ?_⟩
      · exact Kept.setRt s' _ _ rfl rfl
      · rw [rt_setRt_self, hrt]
        rfl
      · rw [rt_setRt_self, hrt]
        rfl
  | some p =>
      obtain ⟨hp, hd⟩ := rtTableCheck_some hc
      dsimp only
      rw [← hd]
      exact hello_known e htock hn hp (hu p hp) _ _ _

theorem numEntries_insertEntry (e : Env) (s : Daemon) (r : RtEntry) (hops lifetime : U32) :
    (insertEntry e s r hops lifetime).rtTbl.numEntries = s.rtTbl.numEntries + 1 := by
  have hopen := kept_openEntry e (linkEntry s r) s.brk hops lifetime
  rw [insertEntry, tbl_routeFound, armEntry]
  split <;> exact hopen.keys.numEntries

structure Met (s : Daemon) : Prop where
  wellFormed : WellFormed s
  numEntries : s.rtTbl.numEntries = 1
  unidir : ∀ p, Linked s.rtTbl p → (s.rt p).flags.unidir = false

theorem Met.refresh {s : Daemon} (h : Met s) (e : Env) {p : Ptr} (hp : Linked s.rtTbl p)
    (now : Timeval) : Met (neighborRefresh e s p now) := by
  rw [neighborRefresh]
  split
  · have hkept := kept_helloUpdateTimeout e hp now (allowedHelloLoss * helloInterval)
    refine ⟨hkept.wellFormed h.wellFormed, hkept.keys.numEntries.trans h.numEntries, fun q hq => ?_⟩
    rw [helloUpdateTimeout]
    by_cases hne : q = p
    · rw [hne, rt_setRt_self]
      exact h.unidir p hp
    · rw [rt_setRt_ne _ _ hne]
      exact h.unidir q ((hkept.keys.linked q).1 hq)
  · exact h

theorem met_insert (e : Env) {s : Daemon} (hs : WellFormed s) (hempty : s.rtTbl.numEntries = 0)
    (hnone : ∀ p, ¬ Linked s.rtTbl p) (src : Addr) : Met (neighborAdd e s src) := by
  have htock := (Kept.tock s).wellFormed hs
  have hc : rtTableCheck s.tock.rtTbl src = none := if_pos hempty
  rw [neighborAdd]
  dsimp only
  rw [hc]
  dsimp only
  have hw := wellFormed_insert e htock src src 1 0 (u32 activeRouteTimeout) .valid .zero
  have hnew : ∀ q ∈ s.tock.rtTbl.tbl (hashing src), (s.tock.rt q).destAddr ≠ src :=
    fun q hq _ => hnone q ⟨_, hq⟩
  rw [insert_new e hnew] at hw ⊢
  dsimp only at hw ⊢
  refine Met.refresh ⟨hw, ?_, fun p hp => ?_⟩ e ((linked_insertEntry e _ _ _ _ _).2 (.inl rfl)) _
  · rw [numEntries_insertEntry]
    exact congrArg (· + 1) hempty
  · have hp := ((linked_insertEntry e _ _ _ _ p).1 hp).resolve_right (hnone p)
    rw [rt_insertEntry, hp]
    exact congrArg (fun r : RtEntry => r.flags.unidir) (rt_linkEntry_self _ _)

def stale (bytes : List U8) (b : U8) : Buf := overlay bytes (store zeroed 11 b)

theorem stale_last {bytes : List U8} (hl : bytes.length ≤ 11) (b : U8) : stale bytes b 11 = b := by
  have hnone : bytes[11]? = none := List.getElem?_eq_none hl
  simp [stale, overlay, hnone]

theorem stale_hello {bytes : List U8} {dest : Addr} {ttl : Int}
    (h : bytes ≠ [] → AsHello bytes dest ttl) (b : U8) :
    retyped (stale bytes b) dest ttl 0 = aodvHello := by
  cases bytes with
  | nil => rfl
  | cons x xs =>
      exact (retyped_hello (received_overlay _ _) (List.cons_ne_nil x xs)).2 (h (List.cons_ne_nil x xs))

theorem last_of_destSeqno (buf : Buf) : byteAt (rrepOf buf).destSeqno 0 = buf 11 := by
  apply BitVec.eq_of_getLsbD_eq
  intro i hi
  simp only [byteAt, rrepOf, loadBE, BitVec.getLsbD_extractLsb', BitVec.getLsbD_append]
  simp [hi]

theorem retyped_ne (buf : Buf) (dest : Addr) (ttl : Int) {i : Nat} (hi : i ≠ 0) :
    retyped buf dest ttl i = buf i := by
  rw [retyped]
  split
  · exact store_apply_of_ne buf 0 aodvHello i hi
  · rfl

theorem stale_destAddr {bytes : List U8} (dest : Addr) (ttl : Int) (b c : U8) :
    (rrepOf (retyped (stale bytes b) dest ttl)).destAddr =
      (rrepOf (retyped (stale bytes c) dest ttl)).destAddr := by
  apply loadLE_congr
  intro i hi hi'
  rw [retyped_ne _ _ _ (by omega), retyped_ne _ _ _ (by omega)]
  have hne : i ≠ 11 := by omega
  simp [stale, overlay, store, hne]

theorem dependent {bytes : List U8} {src dest : Addr} {ttl : Int} (hl : bytes.length ≤ 11)
    (hh : bytes ≠ [] → AsHello bytes dest ttl) : ¬ Independent bytes src dest ttl := by
  intro hind
  have hmet : Met (neighborAdd plain (init plain 0 0 2) src) := by
    apply met_insert plain (wellFormed_init plain 0 0 2) rfl
    rintro p ⟨i, hp⟩
    exact List.not_mem_nil hp
  have hreach : Reachable plain (init plain 0 0 2) := ⟨0, 0, 2, [], rfl⟩
  have hknows (b : U8) := hello_learns plain hmet.wellFormed rfl (by rw [hmet.numEntries]; decide)
    hmet.unidir (retyped (stale bytes b) dest ttl)
  have hrun (b : U8) : aodvSocketPackageProcess plain (init plain 0 0 2) (stale bytes b) bytes.length
      src dest ttl = helloProcess plain (neighborAdd plain (init plain 0 0 2) src)
        (retyped (stale bytes b) dest ttl) := by
    rw [package_eq, dispatch]
    exact if_pos (stale_hello hh b)
  have halike := hind plain (init plain 0 0 2) hreach (stale bytes 0) (stale bytes 1)
    (received_overlay _ _) (received_overlay _ _)
  rw [hrun, hrun] at halike
  have hone := hknows 1
  rw [stale_destAddr dest ttl 1 0] at hone
  have hseqno := (hknows 0).unique hone halike.rtTbl
  have hlast : byteAt _ 0 = byteAt _ 0 := congrArg (byteAt · 0) hseqno
  rw [last_of_destSeqno, last_of_destSeqno, retyped_ne _ _ _ (by decide),
    retyped_ne _ _ _ (by decide), stale_last hl, stale_last hl] at hlast
  exact absurd hlast (by decide)

theorem received_bytes_only (bytes : List U8) (src dest : Addr) (ttl : Int) :
    Independent bytes src dest ttl ↔ Covers bytes dest ttl := by
  constructor
  · intro h
    refine ⟨?_, fun hh => ?_⟩
    · rintro rfl
      exact dependent (by decide) (fun hne => absurd rfl hne) h
    · by_contra hl
      exact dependent (by omega) (fun _ => hh) h
  · intro hc e s _ buf buf' h h'
    rw [package_congr hc h' h]
    exact ⟨rfl, rfl, rfl, rfl, rfl, rfl, rfl, rfl⟩

def cutHello : List U8 := [0, 0, 0, 0, 10, 0, 0, 3]

theorem stale_seqno_learned : ¬ ∀ bytes src dest ttl, bytes.length ≤ receBufSize →
    Independent bytes src dest ttl := by
  intro hall
  have hdep : ¬ Independent cutHello 0x0200000a aodvBroadcast 1 :=
    dependent (by decide) fun _ => .inl rfl
  exact hdep (hall cutHello 0x0200000a aodvBroadcast 1 (by decide))

end Aodv.ReceivedBytes
