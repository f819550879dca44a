import Aodv.State
import Mathlib.Data.List.GetD

namespace Aodv.RouteRequest

open Lib.Bytes

/-- The raw 32 bits of an s32_t argument. -/
abbrev S32 := U32

def nlmsgHdrlen : U32 := 16

def nlmsgLength (len : U32) : U32 := len + nlmsgHdrlen

def nlmsgAlign (len : U32) : U32 := (len + 3) &&& ~~~3

def rtmsgSize : U32 := 12

def rtaLength (len : Nat) : Nat := 4 + len

def rtaAlign (len : Nat) : Nat := (len + 3) / 4 * 4

def rtaDst : U16 := 1
def rtaOif : U16 := 4
def rtaGateway : U16 := 5
def rtaPriority : U16 := 6

def nlmFRequest : U16 := 1
def nlmFAck : U16 := 4
def rtTableMain : U8 := 254
def rtScopeUniverse : U8 := 0
def rtScopeLink : U8 := 253
def rtnUnicast : U8 := 1

def storeBytes (b : Buf) (off : Nat) (data : List U8) : Buf := fun i =>
  if off ≤ i then data.getD (i - off) (b i) else b i

def bytesOf (v : U32) : List U8 := take (storeLE zeroed 0 v) 4

/-- The place of the new attribute is NLMSG_LENGTH of the length so far. -/
def addattr (n : Buf) (type : U16) (data : List U8) : Buf :=
  let len := rtaLength data.length
  let attr := (nlmsgLength (loadLE n 0)).toNat
  let n := storeLE16 n (attr + 2) type
  let n := storeLE16 n attr (BitVec.ofNat 16 len)
  let n := storeBytes n (attr + 4) data
  storeLE n 0 (nlmsgAlign (loadLE n 0) + BitVec.ofNat 32 len)

/-- After 32 shifts nothing is left of the mask. -/
def prefixLoop : Nat → U32 → U8 → U8
  | 0, _, p => p
  | n + 1, tmp, p => if tmp = 0 then p else prefixLoop n (tmp <<< 1) (p + 1)

def prefixLength (nm : U32) : U8 := prefixLoop 32 nm 0

/-- The netlink header and rtmsg of a request in a buffer that is not cleared. -/
def header (req : Buf) (action flags family : S32) (nm : Option Addr) : Buf :=
  let req := storeLE req 0 (nlmsgLength rtmsgSize)
  let req := storeLE16 req 4 (action.setWidth 16)
  let req := storeLE16 req 6 (nlmFRequest ||| flags.setWidth 16)
  let req := storeLE req 12 0
  let req := store req 16 (family.setWidth 8)
  let req := store req 17 (match nm with | none => 32 | some nm => prefixLength nm)
  let req := store (store req 18 0) 19 0
  let req := store (store req 20 rtTableMain) 21 100
  storeLE (store (store req 22 rtScopeLink) 23 rtnUnicast) 24 0

/-- The number of the request, the sender and the acknowledgement that is asked for. -/
def nlSend (n : Buf) (seqno pid : U32) : Buf :=
  let n := storeLE (storeLE n 8 seqno) 12 pid
  storeLE16 n 6 (loadLE16 n 6 ||| nlmFAck)

/-- The attributes, in the order of the calls of addattr. -/
def attributes (req : Buf) (dest gw : Addr) (index metric : S32) : Buf :=
  let req := addattr req rtaDst (bytesOf dest)
  let req :=
    if dest ≠ gw then addattr (store req 22 rtScopeUniverse) rtaGateway (bytesOf gw) else req
  let req := if 0 < index.toInt then addattr req rtaOif (bytesOf index) else req
  addattr req rtaPriority (bytesOf metric)

/-- The request that sendmsg gets, none when a pointer is NULL. -/
def nlKernelRoute (req : Buf) (seqno pid : U32) (action flags family index : S32)
    (dest gw nm : Option Addr) (metric : S32) : Option Buf :=
  match dest, gw with
  | some dest, some gw =>
      some (nlSend (attributes (header req action flags family nm) dest gw index metric) seqno pid)
  | _, _ => none

structure Attr where
  type : U16
  data : List U8
deriving DecidableEq

def rtaLen (b : Buf) (off : Nat) : Nat := (loadLE16 b off).toNat

def attrs (b : Buf) (off len : Nat) : List Attr :=
  if 4 ≤ len ∧ 4 ≤ rtaLen b off ∧ rtaLen b off ≤ len then
    ⟨loadLE16 b (off + 2), take (fun i => b (off + 4 + i)) (rtaLen b off - 4)⟩ ::
      attrs b (off + rtaAlign (rtaLen b off)) (len - rtaAlign (rtaLen b off))
  else []
termination_by len
decreasing_by
  rw [rtaAlign]
  omega

/-- The walk over a request, from the end of rtmsg to nlmsg_len. -/
def requestAttrs (req : Buf) : List Attr := attrs req 28 ((loadLE req 0).toNat - 28)

def wanted (dest gw : Addr) (index metric : S32) : List Attr :=
  ⟨rtaDst, bytesOf dest⟩ :: ((if dest ≠ gw then [⟨rtaGateway, bytesOf gw⟩] else []) ++
    ((if 0 < index.toInt then [⟨rtaOif, bytesOf index⟩] else []) ++
      [⟨rtaPriority, bytesOf metric⟩]))

/-- The attribute of a 32-bit object that stands at an offset. -/
structure Stands (b : Buf) (off : Nat) (type : U16) (v : U32) : Prop where
  len : loadLE16 b off = 8
  type : loadLE16 b (off + 2) = type
  data : loadLE b (off + 4) = v

theorem bytesOf_length (v : U32) : (bytesOf v).length = 4 := take_length _ _

theorem loadLE_overlay (v : U32) : loadLE (overlay (bytesOf v) zeroed) 0 = v := by
  refine Eq.trans ?_ (loadLE_storeLE zeroed 0 v)
  apply loadLE_congr
  intro i hlo hhi
  exact overlay_take _ _ _ _ (by omega)

theorem bytesOf_iff (b : Buf) (off : Nat) (v : U32) :
    take (fun i => b (off + i)) 4 = bytesOf v ↔ loadLE b off = v := by
  constructor
  · intro h
    rw [← loadLE_overlay v, ← h]
    symm
    have hload : loadLE (overlay (take (fun i => b (off + i)) 4) zeroed) 0 =
        loadLE (fun i => b (off + i)) 0 := by
      apply loadLE_congr
      intro i hlo hhi
      exact overlay_take _ _ _ _ (by omega)
    exact hload
  · rintro rfl
    apply take_congr
    intro i hi
    have hbyte : storeLE zeroed 0 (loadLE (fun i => b (off + i)) 0) i = b (off + i) :=
      storeLE_loadLE zeroed (fun i => b (off + i)) (by omega) (by omega)
    exact hbyte.symm

theorem attrs_cons_iff {b : Buf} {off len : Nat} {type : U16} {v : U32} {l : List Attr} :
    attrs b off len = ⟨type, bytesOf v⟩ :: l ↔
      8 ≤ len ∧ Stands b off type v ∧ attrs b (off + 8) (len - 8) = l := by
  rw [attrs]
  constructor
  · intro h
    split at h
    next hok =>
      rw [List.cons.injEq, Attr.mk.injEq] at h
      obtain ⟨⟨htype, hdata⟩, hrest⟩ := h
      have hlen : rtaLen b off = 8 := by
        have hlength := congrArg List.length hdata
        rw [take_length, bytesOf_length] at hlength
        omega
      rw [hlen] at hok hdata hrest
      refine ⟨hok.2.2, ⟨?_, htype, (bytesOf_iff b (off + 4) v).1 hdata⟩, hrest⟩
      exact BitVec.eq_of_toNat_eq hlen
    next => cases h
  · rintro ⟨hok, ⟨hlen, htype, hdata⟩, hrest⟩
    have hlen' : rtaLen b off = 8 := by
      rw [rtaLen, hlen]
      rfl
    rw [hlen', if_pos ⟨by omega, by omega, hok⟩, htype]
    rw [← bytesOf_iff] at hdata
    exact congrArg₂ (fun d l => ⟨type, d⟩ :: l) hdata hrest

theorem attrs_nil {b : Buf} {off : Nat} : attrs b off 0 = [] := by
  rw [attrs, if_neg fun h => by omega]

theorem storeBytes_outside (b : Buf) {off i : Nat} {data : List U8}
    (h : i < off ∨ off + data.length ≤ i) : storeBytes b off data i = b i := by
  rw [storeBytes]
  split
  · exact List.getD_eq_default _ _ (by omega)
  · rfl

def Length (n : Nat) : Prop := n = 28 ∨ n = 36 ∨ n = 44 ∨ n = 52

theorem length_addattr {n : Nat} (h : Length n) :
    (nlmsgLength (BitVec.ofNat 32 n)).toNat = n + 16 ∧
      nlmsgAlign (BitVec.ofNat 32 n) + BitVec.ofNat 32 (rtaLength 4) = BitVec.ofNat 32 (n + 8) := by
  rcases h with rfl | rfl | rfl | rfl
  · exact ⟨by decide, by decide⟩
  · exact ⟨by decide, by decide⟩
  · exact ⟨by decide, by decide⟩
  · exact ⟨by decide, by decide⟩

/-- One call of addattr: the length grows by the attribute, which stands 16 bytes
behind the place it is counted at. -/
theorem addattr_spec {b : Buf} {n : Nat} (h : Length n) (hn : loadLE b 0 = BitVec.ofNat 32 n)
    (type : U16) (v : U32) :
    loadLE (addattr b type (bytesOf v)) 0 = BitVec.ofNat 32 (n + 8) ∧
      loadLE16 (addattr b type (bytesOf v)) (n + 18) = type ∧
      ∀ i, 4 ≤ i → i < n + 16 → addattr b type (bytesOf v) i = b i := by
  obtain ⟨hplace, hgrow⟩ := length_addattr h
  have hlength := bytesOf_length v
  let c := storeLE16 (storeLE16 b (n + 16 + 2) type) (n + 16) (BitVec.ofNat 16 (rtaLength 4))
  let d := storeBytes c (n + 16 + 4) (bytesOf v)
  have hdef : addattr b type (bytesOf v) =
      storeLE d 0 (nlmsgAlign (loadLE d 0) + BitVec.ofNat 32 (rtaLength 4)) := by
    rw [addattr, hn, hplace, hlength]
  have hd (i : Nat) (hi : i < n + 20) : d i = c i := storeBytes_outside _ (.inl (by omega))
  have hc (i : Nat) (hi : i < n + 16) : c i = b i :=
    (storeLE16_apply_of_ne _ _ _ _ (by omega) (by omega)).trans
      (storeLE16_apply_of_ne _ _ _ _ (by omega) (by omega))
  have hlen : loadLE d 0 = BitVec.ofNat 32 n := by
    rw [← hn]
    apply loadLE_congr
    intro i hlo hhi
    rw [hd i (by omega), hc i (by omega)]
  rw [hdef, hlen, hgrow]
  refine ⟨loadLE_storeLE _ _ _, ?_, fun i hlo hhi => ?_⟩
  · refine Eq.trans ?_ (loadLE16_storeLE16 b (n + 16 + 2) type)
    have hbyte (i : Nat) (hlo : n + 18 ≤ i) (hhi : i < n + 20) :
        storeLE d 0 (BitVec.ofNat 32 (n + 8)) i = storeLE16 b (n + 16 + 2) type i := by
      rw [storeLE_apply_of_disjoint _ _ _ _ (by omega), hd i hhi]
      exact storeLE16_apply_of_ne _ _ _ _ (by omega) (by omega)
    exact loadLE16_congr (hbyte _ (by omega) (by omega)) (hbyte _ (by omega) (by omega))
  · rw [storeLE_apply_of_disjoint _ _ _ _ (by omega), hd i (by omega), hc i hhi]

structure Begun (init b : Buf) (n : Nat) : Prop where
  len : loadLE b 0 = BitVec.ofNat 32 n
  gap : ∀ i, 28 ≤ i → i < 44 → b i = init i
  first : loadLE16 b 46 = rtaDst

variable {init req b : Buf} {n : Nat}

theorem Begun.addattr (h : Begun init b n) (hn : Length n) (hlo : 36 ≤ n) (type : U16) (v : U32) :
    Begun init (addattr b type (bytesOf v)) (n + 8) := by
  obtain ⟨hlen, -, hkept⟩ := addattr_spec hn h.len type v
  refine ⟨hlen, fun i hi hi' => ?_, ?_⟩
  · rw [hkept i (by omega) (by omega), h.gap i hi hi']
  · rw [← h.first]
    exact loadLE16_congr (hkept _ (by omega) (by omega)) (hkept _ (by omega) (by omega))

theorem Begun.same (h : Begun init b n) {c : Buf} (hc : ∀ i, i < 4 ∨ 28 ≤ i → c i = b i) :
    Begun init c n := by
  refine ⟨?_, fun i hi hi' => ?_, ?_⟩
  · rw [← h.len]
    apply loadLE_congr
    intro i hlo hhi
    exact hc i (by omega)
  · rw [hc i (.inr hi), h.gap i hi hi']
  · rw [← h.first]
    exact loadLE16_congr (hc _ (by omega)) (hc _ (by omega))

theorem header_spec (req : Buf) (action flags family : S32) (nm : Option Addr) :
    loadLE (header req action flags family nm) 0 = 28 ∧
      ∀ i, 28 ≤ i → header req action flags family nm i = req i := by
  have hsame (i : Nat) (h : i < 4 ∨ 28 ≤ i) :
      header req action flags family nm i = storeLE req 0 28 i := by
    unfold header
    rw [storeLE_apply_of_disjoint _ _ _ _ (by omega), store_apply_of_ne _ _ _ _ (by omega),
      store_apply_of_ne _ _ _ _ (by omega), store_apply_of_ne _ _ _ _ (by omega),
      store_apply_of_ne _ _ _ _ (by omega), store_apply_of_ne _ _ _ _ (by omega),
      store_apply_of_ne _ _ _ _ (by omega), store_apply_of_ne _ _ _ _ (by omega),
      store_apply_of_ne _ _ _ _ (by omega), storeLE_apply_of_disjoint _ _ _ _ (by omega),
      storeLE16_apply_of_ne _ _ _ _ (by omega) (by omega),
      storeLE16_apply_of_ne _ _ _ _ (by omega) (by omega)]
    rfl
  refine ⟨?_, fun i hi => ?_⟩
  · refine Eq.trans ?_ (loadLE_storeLE req 0 28)
    apply loadLE_congr
    intro i hlo hhi
    exact hsame i (by omega)
  · rw [hsame i (.inr hi), storeLE_apply_of_disjoint _ _ _ _ (by omega)]

theorem begun_first (init : Buf) (action flags family : S32) (nm : Option Addr) (dest : Addr) :
    Begun init (addattr (header init action flags family nm) rtaDst (bytesOf dest)) 36 := by
  obtain ⟨hheader, hbody⟩ := header_spec init action flags family nm
  obtain ⟨hlen, htype, hkept⟩ := addattr_spec (n := 28) (.inl rfl) hheader rtaDst dest
  refine ⟨hlen, fun i hi hi' => ?_, htype⟩
  rw [hkept i (by omega) hi', hbody i hi]

def attrCount (dest gw : Addr) (index : S32) : Nat :=
  (if dest ≠ gw then 1 else 0) + (if 0 < index.toInt then 1 else 0) + 2

theorem begun_request {init : Buf} {seqno pid : U32} {action flags family index : S32}
    {dest gw : Addr} {nm : Option Addr} {metric : S32}
    (h : nlKernelRoute init seqno pid action flags family index (some dest) (some gw) nm metric =
      some req) : Begun init req (28 + 8 * attrCount dest gw index) := by
  have hfirst := begun_first init action flags family nm dest
  cases h
  have hscope {b : Buf} {n : Nat} (hb : Begun init b n) :
      Begun init (store b 22 rtScopeUniverse) n :=
    hb.same fun i hi => store_apply_of_ne _ _ _ _ (by omega)
  have hsend {b : Buf} {n : Nat} (hb : Begun init b n) : Begun init (nlSend b seqno pid) n := by
    apply hb.same
    intro i hi
    rw [nlSend, storeLE16_apply_of_ne _ _ _ _ (by omega) (by omega),
      storeLE_apply_of_disjoint _ _ _ _ (by omega), storeLE_apply_of_disjoint _ _ _ _ (by omega)]
  apply hsend
  rw [attributes, attrCount]
  by_cases hgw : dest ≠ gw
  · have hgateway := (hscope hfirst).addattr (.inr (.inl rfl)) (by decide) rtaGateway gw
    rw [if_pos hgw, if_pos hgw]
    by_cases hindex : 0 < index.toInt
    · rw [if_pos hindex, if_pos hindex]
      have hoif := hgateway.addattr (.inr (.inr (.inl rfl))) (by decide) rtaOif index
      exact hoif.addattr (.inr (.inr (.inr rfl))) (by decide) rtaPriority metric
    · rw [if_neg hindex, if_neg hindex]
      exact hgateway.addattr (.inr (.inr (.inl rfl))) (by decide) rtaPriority metric
  · rw [if_neg hgw, if_neg hgw]
    by_cases hindex : 0 < index.toInt
    · rw [if_pos hindex, if_pos hindex]
      have hoif := hfirst.addattr (.inr (.inl rfl)) (by decide) rtaOif index
      exact hoif.addattr (.inr (.inr (.inl rfl))) (by decide) rtaPriority metric
    · rw [if_neg hindex, if_neg hindex]
      exact hfirst.addattr (.inr (.inl rfl)) (by decide) rtaPriority metric

/-- The bytes that stood in the buffer before are the two attributes that every
request has. -/
def Leftover (init : Buf) (dest : Addr) (metric : S32) : Prop :=
  Stands init 28 rtaDst dest ∧ Stands init 36 rtaPriority metric

theorem Begun.stands (h : Begun init b n) {off : Nat} (hlo : 28 ≤ off) (hhi : off + 8 ≤ 44)
    (type : U16) (v : U32) : Stands b off type v ↔ Stands init off type v := by
  have hlen : loadLE16 b off = loadLE16 init off :=
    loadLE16_congr (h.gap _ (by omega) (by omega)) (h.gap _ (by omega) (by omega))
  have htype : loadLE16 b (off + 2) = loadLE16 init (off + 2) :=
    loadLE16_congr (h.gap _ (by omega) (by omega)) (h.gap _ (by omega) (by omega))
  have hdata : loadLE b (off + 4) = loadLE init (off + 4) :=
    loadLE_congr fun i hlo hhi => h.gap i (by omega) (by omega)
  constructor
  · rintro ⟨h₁, h₂, h₃⟩
    exact ⟨hlen ▸ h₁, htype ▸ h₂, hdata ▸ h₃⟩
  · rintro ⟨h₁, h₂, h₃⟩
    exact ⟨hlen.trans h₁, htype.trans h₂, hdata.trans h₃⟩

theorem Begun.third (h : Begun init b n) {len : Nat} {type : U16} {v : U32} {l : List Attr}
    (ht : type ≠ rtaDst) : attrs b 44 len ≠ ⟨type, bytesOf v⟩ :: l := by
  intro hc
  obtain ⟨-, hstands, -⟩ := attrs_cons_iff.1 hc
  exact ht (hstands.type.symm.trans h.first)

/-- The walk finds what is asked for only where two attributes are asked for
and the buffer holds them by chance. -/
theorem request_iff {seqno pid : U32} {action flags family index metric : S32} {dest gw : Addr}
    {nm : Option Addr}
    (h : nlKernelRoute init seqno pid action flags family index (some dest) (some gw) nm metric =
      some req) :
    requestAttrs req = wanted dest gw index metric ↔
      dest = gw ∧ index.toInt ≤ 0 ∧ Leftover init dest metric := by
  have hb := begun_request h
  have hlen : (loadLE req 0).toNat = 28 + 8 * attrCount dest gw index := by
    rw [hb.len, BitVec.toNat_ofNat]
    apply Nat.mod_eq_of_lt
    rw [attrCount]
    split <;> split <;> decide
  rw [requestAttrs, hlen, Nat.add_sub_cancel_left, wanted, attrs_cons_iff]
  rw [hb.stands (by decide) (by decide), attrCount]
  have hdst : rtaGateway ≠ rtaDst ∧ rtaOif ≠ rtaDst ∧ rtaPriority ≠ rtaDst := by decide
  by_cases hgw : dest ≠ gw
  · rw [if_pos hgw, if_pos hgw, List.singleton_append]
    refine iff_of_false ?_ fun hc => hgw hc.1
    rintro ⟨-, -, hrest⟩
    obtain ⟨-, -, hrest⟩ := attrs_cons_iff.1 hrest
    by_cases hindex : 0 < index.toInt
    · rw [if_pos hindex, if_pos hindex, List.singleton_append] at hrest
      exact hb.third hdst.2.1 hrest
    · rw [if_neg hindex, if_neg hindex, List.nil_append] at hrest
      exact hb.third hdst.2.2 hrest
  · rw [if_neg hgw, if_neg hgw]
    by_cases hindex : 0 < index.toInt
    · rw [if_pos hindex, if_pos hindex, List.nil_append, List.singleton_append]
      refine iff_of_false ?_ fun hc => Int.not_lt.2 hc.2.1 hindex
      rintro ⟨-, -, hrest⟩
      obtain ⟨-, -, hrest⟩ := attrs_cons_iff.1 hrest
      exact hb.third hdst.2.2 hrest
    · rw [if_neg hindex, if_neg hindex, List.nil_append, List.nil_append, attrs_cons_iff]
      rw [hb.stands (by decide) (by decide)]
      constructor
      · rintro ⟨-, hfirst, -, hsecond, -⟩
        exact ⟨not_not.1 hgw, Int.not_lt.1 hindex, hfirst, hsecond⟩
      · rintro ⟨-, -, hfirst, hsecond⟩
        exact ⟨by decide, hfirst, by decide, hsecond, attrs_nil⟩

theorem request_iff_neighbor :
    requestAttrs (nlSend (attributes (header zeroed 24 0x400 2 none) 0x0200000a 0x0200000a 2 1)
        1 100) = wanted 0x0200000a 0x0200000a 2 1 ↔
      (0x0200000a : Addr) = 0x0200000a ∧ (2 : S32).toInt ≤ 0 ∧ Leftover zeroed 0x0200000a 1 := by
  have hsent : nlKernelRoute zeroed 1 100 24 0x400 2 2 (some 0x0200000a) (some 0x0200000a) none 1 =
      some (nlSend (attributes (header zeroed 24 0x400 2 none) 0x0200000a 0x0200000a 2 1) 1 100) := rfl
  exact request_iff hsent

/-- From a cleared buffer not even the destination is read back. -/
theorem request_misplaced : ∃ req,
    nlKernelRoute zeroed 1 100 24 0x400 2 2 (some 0x0900000a) (some 0x0200000a) none 2 = some req ∧
      requestAttrs req = [] ∧ requestAttrs req ≠ wanted 0x0900000a 0x0200000a 2 2 := by
  have hnone : requestAttrs (nlSend (attributes (header zeroed 24 0x400 2 none) 0x0900000a 0x0200000a
      2 2) 1 100) = [] := by
    rw [requestAttrs, attrs, if_neg (by decide +kernel)]
  refine ⟨_, rfl, hnone, ?_⟩
  rw [hnone, wanted]
  exact (List.cons_ne_nil _ _).symm

end Aodv.RouteRequest
