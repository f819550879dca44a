import Aodv.PacketOwner

namespace Aodv.PeerMessages

open Lib.Bytes PacketQueue PacketOwner

variable {a : Arch} {e : KEnv a} {k k' k'' : Kaodv a} {len : U32} {data msg : Buf}

/-- The route list, the packet queue and active_route_timeout stay as they are. -/
structure Untouched (k k' : Kaodv a) : Prop where
  expl : k'.expl = k.expl
  queueList : k'.queueList = k.queueList
  queueTotal : k'.queueTotal = k.queueTotal
  activeRouteTimeout : k'.activeRouteTimeout = k.activeRouteTimeout

def structSize (a : Arch) (type : U16) : Option Nat :=
  if type = 101 ∨ type = 102 ∨ type = 106 then some (kaodvRtMsgSize a)
  else if type = 109 then some kaodvConfMsgSize
  else none

def nlmsgType (data : Buf) : U16 := loadLE16 data 4

def nlmsgPid (data : Buf) : Int := (loadLE data 12).toInt

def payload (len : U32) (data : Buf) : List U8 :=
  ((take data len.toNat).take (loadLE data 0).toNat).drop nlmsghdrSize

structure Checked (data : Buf) : Prop where
  pid : 0 < nlmsgPid data
  request : loadLE16 data 6 &&& nlmFRequest ≠ 0
  multi : loadLE16 data 6 &&& nlmFMulti = 0
  trunc : loadLE16 data 6 &&& msgTrunc = 0

/-- The sender is the locked peer, or none is locked. -/
def FromPeer (k : Kaodv a) (data : Buf) : Prop := k.peerPid = 0 ∨ k.peerPid = nlmsgPid data

structure Valid (k : Kaodv a) (len : U32) (data : Buf) : Prop where
  checked : Checked data
  peer : FromPeer k data
  size : ∃ n, structSize a (nlmsgType data) = some n ∧ n ≤ (payload len data).length

def lowType (data : Buf) : U16 := ((nlmsgType data).setWidth 8).setWidth 16

def Framed (len : U32) (data : Buf) : Prop :=
  ¬ ltSizeof len.toInt nlmsghdrSize ∧ ¬ ltSizeof (loadLE data 0).toInt nlmsghdrSize ∧
    ¬ len.toInt < (loadLE data 0).toInt

def handedLen (len : U32) : Nat := (len - BitVec.ofNat 32 nlmsghdrSize).toNat

/-- Wrong bytes that pass every test: a type that is right in its low byte only,
or a structure that is longer than what nlmsg_len leaves for it. -/
structure Slips (a : Arch) (len : U32) (data : Buf) : Prop where
  framed : Framed len data
  checked : Checked data
  wrong : ∃ n, structSize a (lowType data) = some n ∧ n ≤ handedLen len ∧
    (lowType data ≠ nlmsgType data ∨ (payload len data).length < n)

def entry (e : KEnv a) (k : Kaodv a) (m : KaodvRtMsg a) : ExplEntry a :=
  ⟨expiry e.hz (e.jiffies k.tick) m.time, m.flags.setWidth 16, m.dest, m.nhop, m.ifindex.toInt⟩

/-- An ADDROUTE finds memory for a new entry, or changes the entry that is there
or its place, or loses it because the list counts as full. -/
def Rewrites (e : KEnv a) (k : Kaodv a) (m : KaodvRtMsg a) : Prop :=
  kaodvExplGet k.expl m.dest = none ∧ e.kmalloc k.tick = true ∨
    kaodvExplGet k.expl m.dest ≠ none ∧ (explMaxLen < k.expl.explLen.toNat ∨
      (Locked.listDel k.expl m.dest).explHead.orderedInsert Sooner (entry e k m) ≠
        k.expl.explHead)

/-- There is something for the message to do in this state. -/
def Asks (e : KEnv a) (k : Kaodv a) (type : U16) (msg : Buf) : Prop :=
  let m := rtMsgOf a msg
  type = 101 ∧ (queuedFor k m.dest ≠ [] ∨ Rewrites e k m) ∨
  type = 102 ∧ (queuedFor k m.dest ≠ [] ∨ kaodvExplGet k.expl m.dest ≠ none) ∨
  type = 106 ∧ queuedFor k m.dest ≠ [] ∨
  type = 109 ∧ (loadLE msg 0).toInt ≠ k.activeRouteTimeout

namespace Untouched

theorem refl (k : Kaodv a) : Untouched k k := ⟨rfl, rfl, rfl, rfl⟩

end Untouched

theorem untouched_verdict (e : KEnv a) (k : Kaodv a) {verdict : Int} (d : Addr)
    (hv : verdict = kaodvQueueDrop ∨ verdict = kaodvQueueSend) :
    (kaodvQueueSetVerdict e k verdict d).1.queueList = k.queueList ∧
        (kaodvQueueSetVerdict e k verdict d).1.queueTotal = k.queueTotal ↔ queuedFor k d = [] := by
  obtain ⟨hlist, htotal⟩ := setVerdict_queue e k d hv
  constructor
  · rintro ⟨hsame, -⟩
    rw [arrivals, hsame] at hlist
    rw [queuedFor, arrivals, hlist, othersThan, List.filter_filter, List.filter_eq_nil_iff]
    intro x _
    simp
  · intro hnone
    have hothers : othersThan k d = arrivals k := by
      rw [queuedFor, List.filter_eq_nil_iff] at hnone
      rw [othersThan, List.filter_eq_self]
      intro x hx
      simpa using hnone x hx
    rw [hothers] at hlist
    refine ⟨List.reverse_injective hlist, ?_⟩
    rw [htotal, hnone]
    exact BitVec.sub_zero _

theorem expl_addroute (e : KEnv a) (k : Kaodv a) (m : KaodvRtMsg a) :
    (receiveAddroute e k m).1.expl = k.expl ↔ ¬ Rewrites e k m := by
  rw [receiveAddroute, Rewrites]
  cases hget : kaodvExplGet k.expl m.dest with
  | none =>
      have hverdict := framed_setVerdict e (k.explAdd e m.dest m.nhop m.time
        (m.flags.setWidth 16) m.ifindex.toInt).1 kaodvQueueSend m.dest
      refine (Eq.congr_left hverdict.expl).trans ?_
      change (kaodvExplAdd e.hz (e.jiffies k.tick) (e.kmalloc k.tick) k.expl m.dest m.nhop m.time
        (m.flags.setWidth 16) m.ifindex.toInt).1 = k.expl ↔ _
      cases hmem : e.kmalloc k.tick with
      | false =>
          have hsame : (kaodvExplAdd e.hz (e.jiffies k.tick) false k.expl m.dest m.nhop m.time
              (m.flags.setWidth 16) m.ifindex.toInt).1 = k.expl := by
            simp only [kaodvExplAdd, hget, Bool.false_eq_true, if_false]
          simp [hsame]
      | true =>
          rw [add_new hget]
          refine iff_of_false (fun h => ?_) (by simp)
          have hlen := congrArg Expl.explLen h
          simp at hlen
  | some r =>
      have hverdict := framed_setVerdict e (k.explUpdate e m.dest m.nhop m.time
        (m.flags.setWidth 16) m.ifindex.toInt).1 kaodvQueueSend m.dest
      refine (Eq.congr_left hverdict.expl).trans ?_
      change (kaodvExplUpdate e.hz (e.jiffies k.tick) k.expl m.dest m.nhop m.time
        (m.flags.setWidth 16) m.ifindex.toInt).1 = k.expl ↔ _
      have hsome : kaodvExplGet k.expl m.dest ≠ none := by
        rw [hget]
        exact Option.some_ne_none r
      rw [update_present hsome]
      have hshort : (Locked.listDel k.expl m.dest).explHead ≠ k.expl.explHead := by
        intro h
        have hmem := List.mem_of_find?_eq_some hget
        have hlen := List.length_eraseP_of_mem hmem (List.find?_some hget)
        have hpos := List.length_pos_of_mem hmem
        have heq := congrArg List.length h
        change (List.eraseP _ _).length = _ at heq
        omega
      have hmk (l : List (ExplEntry a)) :
          (⟨l, k.expl.explLen⟩ : Expl a) = k.expl ↔ l = k.expl.explHead :=
        ⟨fun h => congrArg Expl.explHead h, fun h => by rw [h]⟩
      rw [hmk]
      by_cases hfull : explMaxLen < k.expl.explLen.toNat
      · simp [hfull, hshort]
      · simp [hfull, entry]

theorem addroute_untouched (e : KEnv a) (k : Kaodv a) (m : KaodvRtMsg a) :
    Untouched k (receiveAddroute e k m).1 ↔ queuedFor k m.dest = [] ∧ ¬ Rewrites e k m := by
  have hverdict (k₁ : Kaodv a) (hlist : k₁.queueList = k.queueList)
      (htotal : k₁.queueTotal = k.queueTotal)
      (htime : k₁.activeRouteTimeout = k.activeRouteTimeout) :
      ((kaodvQueueSetVerdict e k₁ kaodvQueueSend m.dest).1.queueList = k.queueList ∧
        (kaodvQueueSetVerdict e k₁ kaodvQueueSend m.dest).1.queueTotal = k.queueTotal ↔
          queuedFor k m.dest = []) ∧
      (kaodvQueueSetVerdict e k₁ kaodvQueueSend m.dest).1.activeRouteTimeout =
        k.activeRouteTimeout := by
    have h := untouched_verdict e k₁ m.dest (.inr rfl)
    rw [hlist, htotal, queuedFor, arrivals, hlist] at h
    exact ⟨h, (framed_setVerdict e k₁ kaodvQueueSend m.dest).activeRouteTimeout.trans htime⟩
  rw [← expl_addroute]
  have hqueue : ((receiveAddroute e k m).1.queueList = k.queueList ∧
      (receiveAddroute e k m).1.queueTotal = k.queueTotal ↔ queuedFor k m.dest = []) ∧
      (receiveAddroute e k m).1.activeRouteTimeout = k.activeRouteTimeout := by
    rw [receiveAddroute]
    cases kaodvExplGet k.expl m.dest with
    | none =>
        exact hverdict (k.explAdd e m.dest m.nhop m.time (m.flags.setWidth 16) m.ifindex.toInt).1
          rfl rfl rfl
    | some r =>
        exact hverdict (k.explUpdate e m.dest m.nhop m.time (m.flags.setWidth 16)
          m.ifindex.toInt).1 rfl rfl rfl
  constructor
  · intro h
    exact ⟨hqueue.1.1 ⟨h.queueList, h.queueTotal⟩, h.expl⟩
  · rintro ⟨hnone, hexpl⟩
    obtain ⟨hlist, htotal⟩ := hqueue.1.2 hnone
    exact ⟨hexpl, hlist, htotal, hqueue.2⟩

theorem expl_del (x : Expl a) (d : Addr) : (kaodvExplDel x d).1 = x ↔ kaodvExplGet x d = none := by
  rw [kaodvExplDel, kaodvExplGet]
  cases hget : Aodv.Locked.kaodvExplCheck x d with
  | none => simp
  | some r =>
      refine iff_of_false (fun h => ?_) (Option.some_ne_none r)
      have hmem := List.mem_of_find?_eq_some hget
      have hlen := List.length_eraseP_of_mem hmem (List.find?_some hget)
      have hpos := List.length_pos_of_mem hmem
      have heq := congrArg (fun x => x.explHead.length) h
      change (List.eraseP _ _).length = _ at heq
      omega

theorem delroute_untouched (e : KEnv a) (k : Kaodv a) (m : KaodvRtMsg a) :
    Untouched k (receiveDelroute e k m) ↔
      queuedFor k m.dest = [] ∧ kaodvExplGet k.expl m.dest = none := by
  rw [receiveDelroute, ← expl_del]
  have hframed := framed_setVerdict e { k with expl := (kaodvExplDel k.expl m.dest).1 }
    kaodvQueueDrop m.dest
  have hqueue := untouched_verdict e { k with expl := (kaodvExplDel k.expl m.dest).1 }
    m.dest (.inl rfl)
  constructor
  · intro h
    exact ⟨hqueue.1 ⟨h.queueList, h.queueTotal⟩, hframed.expl.symm.trans h.expl⟩
  · rintro ⟨hnone, hexpl⟩
    obtain ⟨hlist, htotal⟩ := hqueue.2 hnone
    exact ⟨hframed.expl.trans hexpl, hlist, htotal, hframed.activeRouteTimeout⟩

theorem norouteFound_untouched (e : KEnv a) (k : Kaodv a) (d : Addr) :
    Untouched k (kaodvQueueSetVerdict e k kaodvQueueDrop d).1 ↔ queuedFor k d = [] := by
  have hframed := framed_setVerdict e k kaodvQueueDrop d
  rw [← untouched_verdict e k d (.inl rfl)]
  constructor
  · intro h
    exact ⟨h.queueList, h.queueTotal⟩
  · rintro ⟨hlist, htotal⟩
    exact ⟨hframed.expl, hlist, htotal, hframed.activeRouteTimeout⟩

theorem config_untouched (k : Kaodv a) (t : Int) :
    Untouched k { k with activeRouteTimeout := t } ↔ t = k.activeRouteTimeout :=
  ⟨fun h => h.activeRouteTimeout, fun h => ⟨rfl, rfl, rfl, h⟩⟩

theorem read_untouched {k k' : Kaodv a} {s n : Nat} {P : Prop} (h : Untouched k k' ↔ ¬ P) :
    Untouched k (if n < s then k else k') ↔ ¬ ((∃ size, some s = some size ∧ size ≤ n) ∧ P) := by
  by_cases hn : n < s
  · rw [if_pos hn]
    refine iff_of_true (.refl k) ?_
    rintro ⟨⟨size, hsize, hle⟩, -⟩
    cases hsize
    exact absurd hn (Nat.not_lt.2 hle)
  · rw [if_neg hn, h, and_iff_right ⟨s, rfl, Nat.not_lt.1 hn⟩]

theorem structSize_other {t : U8} (hadd : t ≠ kaodvmAddroute) (hdel : t ≠ kaodvmDelroute)
    (hnone : t ≠ kaodvmNorouteFound) (hconf : t ≠ kaodvmConfig) :
    structSize a (t.setWidth 16) = none := by
  have hwide {c : U8} (h : t ≠ c) : t.setWidth 16 ≠ c.setWidth 16 := by
    intro heq
    apply h
    simpa using congrArg (BitVec.setWidth 8) heq
  have h101 : t.setWidth 16 ≠ 101 := hwide hadd
  have h102 : t.setWidth 16 ≠ 102 := hwide hdel
  have h106 : t.setWidth 16 ≠ 106 := hwide hnone
  have h109 : t.setWidth 16 ≠ 109 := hwide hconf
  rw [structSize, if_neg (by simp only [h101, h102, h106, or_self, not_false_iff]), if_neg h109]

theorem receivePeer_untouched (e : KEnv a) (k : Kaodv a) (t : U8) (msg : Buf) (n : Nat) :
    Untouched k (kaodvNetlinkReceivePeer e k t msg n).1 ↔
      ¬ ((∃ size, structSize a (t.setWidth 16) = some size ∧ size ≤ n) ∧
        Asks e k (t.setWidth 16) msg) := by
  have hfst {s : Nat} {x y : Kaodv a × Int} :
      (if n < s then x else y).1 = if n < s then x.1 else y.1 := apply_ite ..
  rw [kaodvNetlinkReceivePeer, Asks]
  by_cases hadd : t = kaodvmAddroute
  · subst hadd
    rw [if_pos rfl, hfst]
    apply read_untouched
    simp [addroute_untouched, kaodvmAddroute]
  rw [if_neg hadd]
  by_cases hdel : t = kaodvmDelroute
  · subst hdel
    rw [if_pos rfl, hfst]
    apply read_untouched
    simp [delroute_untouched, kaodvmDelroute]
  rw [if_neg hdel]
  by_cases hnone : t = kaodvmNorouteFound
  · subst hnone
    rw [if_pos rfl, hfst]
    apply read_untouched
    simp [norouteFound_untouched, kaodvmNorouteFound]
  rw [if_neg hnone]
  by_cases hconf : t = kaodvmConfig
  · subst hconf
    rw [if_pos rfl, hfst]
    apply read_untouched
    rw [config_untouched]
    simp [kaodvmConfig]
  rw [if_neg hconf]
  refine iff_of_true (.refl k) ?_
  rintro ⟨⟨size, hsize, -⟩, -⟩
  rw [structSize_other hadd hdel hnone hconf] at hsize
  cases hsize

theorem lock_untouched (e : KEnv a) (k : Kaodv a) (pid : Int) (t : U8) (msg : Buf) (n : Nat) :
    Untouched k (kaodvNetlinkReceivePeer e
        (if k.peerPid = 0 then { k with peerPid := pid } else k) t msg n).1 ↔
      Untouched k (kaodvNetlinkReceivePeer e k t msg n).1 := by
  by_cases hfree : k.peerPid = 0
  · rw [if_pos hfree, receivePeer_untouched e k]
    have h := receivePeer_untouched e { k with peerPid := pid } t msg n
    have hasks : Asks e { k with peerPid := pid } (t.setWidth 16) msg =
        Asks e k (t.setWidth 16) msg := rfl
    rw [hasks] at h
    rw [← h]
    exact ⟨fun h => ⟨h.expl, h.queueList, h.queueTotal, h.activeRouteTimeout⟩,
      fun h => ⟨h.expl, h.queueList, h.queueTotal, h.activeRouteTimeout⟩⟩
  · rw [if_neg hfree]

/-- What a byte string needs to change anything: it passes the tests, and as it is
handed on there is something for it to do. -/
theorem rcvSkb_untouched (e : KEnv a) (k : Kaodv a) (len : U32) (data : Buf) :
    Untouched k (kaodvNetlinkRcvSkb e k len data).1 ↔
      ¬ (Framed len data ∧ Checked data ∧ FromPeer k data ∧
        (∃ size, structSize a (lowType data) = some size ∧ size ≤ handedLen len) ∧
          Asks e k (lowType data) fun i => data (nlmsghdrSize + i)) := by
  simp only [kaodvNetlinkRcvSkb]
  by_cases hshort : ltSizeof len.toInt nlmsghdrSize
  · rw [if_pos hshort]
    exact iff_of_true (.refl k) fun h => h.1.1 hshort
  rw [if_neg hshort]
  by_cases hlen : ltSizeof (loadLE data 0).toInt nlmsghdrSize ∨ len.toInt < (loadLE data 0).toInt
  · rw [if_pos hlen]
    exact iff_of_true (.refl k) fun h => hlen.elim h.1.2.1 h.1.2.2
  rw [if_neg hlen]
  rw [not_or] at hlen
  rw [and_iff_right (show Framed len data from ⟨hshort, hlen⟩)]
  by_cases hflags : (loadLE data 12).toInt ≤ 0 ∨ loadLE16 data 6 &&& nlmFRequest = 0 ∨
      loadLE16 data 6 &&& nlmFMulti ≠ 0
  · rw [if_pos hflags]
    refine iff_of_true (.refl k) ?_
    rintro ⟨hchecked, -⟩
    rcases hflags with h | h | h
    · exact Int.not_lt.2 h hchecked.pid
    · exact hchecked.request h
    · exact h hchecked.multi
  rw [if_neg hflags]
  by_cases htrunc : loadLE16 data 6 &&& msgTrunc ≠ 0
  · rw [if_pos htrunc]
    exact iff_of_true (.refl k) fun h => htrunc h.1.trunc
  rw [if_neg htrunc]
  simp only [not_or, not_not, Int.not_le] at hflags htrunc
  rw [and_iff_right (show Checked data from ⟨hflags.1, hflags.2.1, hflags.2.2, htrunc⟩)]
  by_cases hbusy : k.peerPid ≠ 0 ∧ k.peerPid ≠ (loadLE data 12).toInt
  · rw [if_pos hbusy]
    exact iff_of_true (.refl k) fun h => h.1.elim hbusy.1 hbusy.2
  rw [if_neg hbusy]
  rw [and_iff_right (show FromPeer k data by
    rw [FromPeer, nlmsgPid]
    exact (not_and_or.1 hbusy).imp not_not.1 not_not.1)]
  have hfst {c : Prop} [Decidable c] {x : Kaodv a} {y z : Option Int} :
      (if c then (x, y) else (x, z)).1 = x := by
    split <;> rfl
  rw [hfst]
  exact (lock_untouched e k ..).trans (receivePeer_untouched e k ..)

theorem lowType_of_struct {n : Nat} (h : structSize a (nlmsgType data) = some n) :
    lowType data = nlmsgType data := by
  rw [structSize] at h
  rw [lowType]
  split at h
  · rename_i htype
    rcases htype with htype | htype | htype <;> rw [htype] <;> rfl
  · split at h
    · rename_i htype
      rw [htype]
      rfl
    · cases h

/-- A byte string changes something it should not exactly when it slips through
and there is something for it to do. -/
theorem justified_iff (e : KEnv a) (k : Kaodv a) (len : U32) (data : Buf) :
    (¬ Untouched k (kaodvNetlinkRcvSkb e k len data).1 → Valid k len data) ↔
      ¬ (Slips a len data ∧ FromPeer k data ∧
        Asks e k (lowType data) fun i => data (nlmsghdrSize + i)) := by
  rw [rcvSkb_untouched, not_not]
  constructor
  · rintro h ⟨hslips, hpeer, hasks⟩
    obtain ⟨n, hsize, hle, hwrong⟩ := hslips.wrong
    have hvalid := h ⟨hslips.framed, hslips.checked, hpeer, ⟨n, hsize, hle⟩, hasks⟩
    obtain ⟨m, hm, hpayload⟩ := hvalid.size
    have hlow := lowType_of_struct hm
    rw [hlow, hm] at hsize
    cases hsize
    exact hwrong.elim (fun hne => hne hlow) (Nat.not_lt.2 hpayload)
  · rintro h ⟨hframed, hchecked, hpeer, ⟨n, hsize, hle⟩, hasks⟩
    by_contra hnot
    refine h ⟨⟨hframed, hchecked, n, hsize, hle, ?_⟩, hpeer, hasks⟩
    by_cases hlow : lowType data = nlmsgType data
    · refine .inr (Nat.lt_of_not_le fun hpayload => hnot ?_)
      exact ⟨hchecked, hpeer, n, hlow ▸ hsize, hpayload⟩
    · exact .inl hlow

/-- A request of 20 bytes from the process 100 that asks for a timeout of zero, with
this nlmsg_len and this byte over the type of a CONFIG. -/
def configMessage (nlmsgLen high : U8) : Buf :=
  overlay [nlmsgLen, 0, 0, 0, 109, high, 1, 0, 0, 0, 0, 0, 100, 0, 0, 0, 0, 0, 0, 0] zeroed

/-- A type of 0x016d sets the timeout, and so do four bytes behind the end of a message. -/
theorem config_misread :
    (¬ Untouched kaodvInit (kaodvNetlinkRcvSkb wlan kaodvInit 20 (configMessage 20 1)).1 ∧
        ¬ Valid (a := .long32) kaodvInit 20 (configMessage 20 1)) ∧
      ¬ Untouched kaodvInit (kaodvNetlinkRcvSkb wlan kaodvInit 20 (configMessage 16 0)).1 ∧
        ¬ Valid (a := .long32) kaodvInit 20 (configMessage 16 0) := by
  have hzero (b : Buf) : (kaodvNetlinkRcvSkb wlan kaodvInit 20 b).1.activeRouteTimeout = 0 →
      ¬ Untouched kaodvInit (kaodvNetlinkRcvSkb wlan kaodvInit 20 b).1 := by
    intro hzero h
    have htime := hzero.symm.trans h.activeRouteTimeout
    exact absurd htime (by decide)
  refine ⟨⟨hzero _ (by decide +kernel), ?_⟩, hzero _ (by decide +kernel), ?_⟩
  · rintro ⟨-, -, n, hsize, -⟩
    rw [show structSize .long32 (nlmsgType (configMessage 20 1)) = none by decide] at hsize
    cases hsize
  · rintro ⟨-, -, n, hsize, hle⟩
    rw [show structSize .long32 (nlmsgType (configMessage 16 0)) = some 4 by decide] at hsize
    cases hsize
    exact absurd hle (by decide)

end Aodv.PeerMessages
