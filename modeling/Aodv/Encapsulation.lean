import Aodv.KaodvIpenc
import Aodv.Lib.OnesComplement

namespace Aodv.Encapsulation

open Lib.Bytes
open Lib.OnesComplement (sum)

variable {a : Arch} {e : KEnv a} {k k' : Kaodv a} {skb nskb : Skb} {dest : Addr} {i : Nat}

def totLen (skb : Skb) : U16 := loadBE16 skb.data 2

def ident (skb : Skb) : U16 := loadBE16 skb.data 4

/-- An IPv4 packet: its header is inside and its length field is right. -/
structure Ipv4 (skb : Skb) : Prop where
  version : (skb.data 0).extractLsb' 4 4 = 4
  header : 20 ≤ skb.headerLen
  inside : skb.headerLen ≤ skb.len
  length : (totLen skb).toNat = skb.len

/-- ip_send_check writes no byte but those of the header checksum. -/
def ChecksumOnly (e : KEnv a) : Prop := ∀ b i, i ≠ 10 → i ≠ 11 → e.ipSendCheck b i = b i

def words (load : Buf → Nat → U16) (b : Buf) : Nat → Nat → List U16
  | _, 0 => []
  | off, n + 1 => load b off :: words load b (off + 2) n

/-- What ip_send_check computes: the complement of the sum over the header with
a zero for the checksum. -/
def headerCheck (b : Buf) : Buf :=
  let b := storeBE16 b 10 0
  storeBE16 b 10 (~~~(sum (words loadBE16 b 0 ((b 0 &&& 0x0f).toNat * 4 / 2))))

theorem checksumOnly (h : e.ipSendCheck = headerCheck) : ChecksumOnly e := by
  intro b i hi hi'
  rw [h, headerCheck, storeBE16_apply_of_ne _ _ _ _ hi hi', storeBE16_apply_of_ne _ _ _ _ hi hi']

def written (skb : Skb) (dest : Addr) : Buf :=
  let buf := writeIph (writeIpe (opened skb) skb.headerLen) dest
  storeLE16 buf (skb.headerLen + 2) (ipCsum buf skb.headerLen 4)

def Plain (i : Nat) : Prop := i < 16 ∧ i ≠ 2 ∧ i ≠ 3 ∧ i ≠ 9 ∨ 20 ≤ i

instance (i : Nat) : Decidable (Plain i) := inferInstanceAs (Decidable (_ ∨ _))

theorem opened_header (h : i < skb.headerLen) : opened skb i = skb.data i := by
  rw [opened, if_neg fun hc => by omega]

theorem opened_payload (h : skb.headerLen ≤ i) (h' : i < skb.len) :
    opened skb (i + minIpencHdrSize) = skb.data i := by
  rw [opened, if_pos ⟨by omega, by omega⟩, Nat.add_sub_cancel]

theorem writeIpe_outside (b : Buf) {off : Nat} (h : i < off ∨ off + minIpencHdrSize ≤ i) :
    writeIpe b off i = b i := by
  rw [minIpencHdrSize] at h
  rw [writeIpe, storeLE_apply_of_disjoint _ _ _ _ (by omega),
    storeLE16_apply_of_ne _ _ _ _ (by omega) (by omega), store_apply_of_ne _ _ _ _ (by omega),
    store_apply_of_ne _ _ _ _ (by omega)]

theorem writeIpe_protocol (b : Buf) (off : Nat) : writeIpe b off off = b 9 := by
  rw [writeIpe, storeLE_apply_of_disjoint _ _ _ _ (by omega),
    storeLE16_apply_of_ne _ _ _ _ (by omega) (by omega), store_apply_of_ne _ _ _ _ (by omega),
    store_apply_self]

theorem writeIpe_daddr (b : Buf) (off : Nat) :
    loadLE (writeIpe b off) (off + 4) = loadLE b 16 := by
  rw [writeIpe, loadLE_storeLE]

theorem writeIph_plain (b : Buf) (h : Plain i) : writeIph b dest i = b i := by
  rw [Plain] at h
  rw [writeIph, storeBE16_apply_of_ne _ _ _ _ (by omega) (by omega),
    store_apply_of_ne _ _ _ _ (by omega), storeLE_apply_of_disjoint _ _ _ _ (by omega)]

theorem writeIph_protocol (b : Buf) : writeIph b dest 9 = ipprotoMipe := by
  rw [writeIph, storeBE16_apply_of_ne _ _ _ _ (by decide) (by decide), store_apply_self]

theorem writeIph_daddr (b : Buf) : loadLE (writeIph b dest) 16 = dest := by
  refine Eq.trans ?_ (loadLE_storeLE b 16 dest)
  apply loadLE_congr
  intro i hlo hhi
  rw [writeIph, storeBE16_apply_of_ne _ _ _ _ (by omega) (by omega),
    store_apply_of_ne _ _ _ _ (by omega)]

theorem writeIph_totLen (b : Buf) :
    loadBE16 (writeIph b dest) 2 = loadBE16 b 2 + BitVec.ofNat 16 minIpencHdrSize := by
  rw [writeIph, loadBE16_storeBE16]
  have hkept : loadBE16 (store (storeLE b 16 dest) 9 ipprotoMipe) 2 = loadBE16 b 2 := by
    apply loadBE16_congr
    · rw [store_apply_of_ne _ _ _ _ (by decide), storeLE_apply_of_disjoint _ _ _ _ (by decide)]
    · rw [store_apply_of_ne _ _ _ _ (by decide), storeLE_apply_of_disjoint _ _ _ _ (by decide)]
  rw [hkept]

theorem written_apply (h : i ≠ skb.headerLen + 2) (h' : i ≠ skb.headerLen + 3) :
    written skb dest i = writeIph (writeIpe (opened skb) skb.headerLen) dest i :=
  storeLE16_apply_of_ne _ _ _ _ h h'

theorem written_header (h : i < skb.headerLen) (hi : Plain i) :
    written skb dest i = skb.data i := by
  rw [written_apply (by omega) (by omega), writeIph_plain _ hi, writeIpe_outside _ (.inl h),
    opened_header h]

section Written

variable (hh : 20 ≤ skb.headerLen)

include hh

theorem written_payload (h : skb.headerLen ≤ i) (h' : i < skb.len) :
    written skb dest (i + minIpencHdrSize) = skb.data i := by
  have hsize : minIpencHdrSize = 8 := rfl
  rw [written_apply (by omega) (by omega), writeIph_plain _ (.inr (by omega)),
    writeIpe_outside _ (.inr (by omega)), opened_payload h h']

theorem written_mipe : written skb dest 9 = ipprotoMipe := by
  rw [written_apply (by omega) (by omega), writeIph_protocol]

theorem written_daddr : loadLE (written skb dest) 16 = dest := by
  refine Eq.trans ?_ (writeIph_daddr (writeIpe (opened skb) skb.headerLen))
  apply loadLE_congr
  intro i hlo hhi
  exact written_apply (by omega) (by omega)

theorem written_totLen : loadBE16 (written skb dest) 2 =
    totLen skb + BitVec.ofNat 16 minIpencHdrSize := by
  have hinner : loadBE16 (writeIpe (opened skb) skb.headerLen) 2 = totLen skb := by
    apply loadBE16_congr
    · rw [writeIpe_outside _ (.inl (by omega)), opened_header (by omega)]
    · rw [writeIpe_outside _ (.inl (by omega)), opened_header (by omega)]
  have houter : loadBE16 (writeIph (writeIpe (opened skb) skb.headerLen) dest) 2 =
      loadBE16 (writeIpe (opened skb) skb.headerLen) 2 + BitVec.ofNat 16 minIpencHdrSize :=
    writeIph_totLen _
  rw [← hinner, ← houter]
  apply loadBE16_congr
  · exact written_apply (by omega) (by omega)
  · exact written_apply (by omega) (by omega)

theorem written_innerProtocol : written skb dest skb.headerLen = skb.protocol := by
  rw [written_apply (by omega) (by omega), writeIph_plain _ (.inr hh), writeIpe_protocol,
    opened_header (by omega)]
  rfl

theorem written_innerDaddr : loadLE (written skb dest) (skb.headerLen + 4) = skb.daddr := by
  have hipe := writeIpe_daddr (opened skb) skb.headerLen
  have horig : loadLE (opened skb) 16 = skb.daddr := by
    apply loadLE_congr
    intro i hlo hhi
    exact opened_header (by omega)
  rw [← horig, ← hipe]
  apply loadLE_congr
  intro i hlo hhi
  rw [written_apply (by omega) (by omega), writeIph_plain _ (.inr (by omega))]

end Written

def Identified (skb : Skb) (i : Nat) : Prop := i = 4 ∨ i = 5 → ident skb ≠ 0

theorem encapsulate_eq (e : KEnv a) (tick : Nat) (ptr : Ptr) (skb : Skb) (dest : Addr) :
    (encapsulate e tick ptr skb dest).data =
      let buf := e.ipSendCheck (written skb dest)
      if loadBE16 buf 4 = 0 then storeBE16 buf 4 (e.ident tick) else buf := rfl

section Sent

variable (hsend : ChecksumOnly e) (hp : Ipv4 skb) {tick : Nat} {ptr : Ptr}

include hsend hp

theorem ident_checked : loadBE16 (e.ipSendCheck (written skb dest)) 4 = ident skb := by
  have hh := hp.header
  apply loadBE16_congr
  · rw [hsend _ _ (by decide) (by decide), written_header (by omega) (by decide)]
  · rw [hsend _ _ (by decide) (by decide), written_header (by omega) (by decide)]

theorem encapsulate_apply (h : i ≠ 10) (h' : i ≠ 11) (hid : Identified skb i) :
    (encapsulate e tick ptr skb dest).data i = written skb dest i := by
  rw [encapsulate_eq]
  dsimp only
  rw [ident_checked hsend hp]
  by_cases hi : ident skb = 0
  · have hother : i ≠ 4 ∧ i ≠ 5 := by
      constructor
      · rintro rfl
        exact hid (.inl rfl) hi
      · rintro rfl
        exact hid (.inr rfl) hi
    rw [if_pos hi, storeBE16_apply_of_ne _ _ _ _ hother.1 hother.2, hsend _ _ h h']
  · rw [if_neg hi, hsend _ _ h h']

theorem encapsulate_headerLen : (encapsulate e tick ptr skb dest).headerLen = skb.headerLen := by
  have hh := hp.header
  have hfirst : (encapsulate e tick ptr skb dest).data 0 = skb.data 0 := by
    rw [encapsulate_apply hsend hp (by decide) (by decide) (by rintro (h | h) <;> cases h),
      written_header (by omega) (by decide)]
  rw [Skb.headerLen, Skb.headerLen, hfirst]

end Sent

/-- What the new packet says of the old one. -/
structure Carries (skb nskb : Skb) (dest : Addr) : Prop where
  len : nskb.len = skb.len + minIpencHdrSize
  totLen : (totLen nskb).toNat = (totLen skb).toNat + minIpencHdrSize
  daddr : nskb.daddr = dest
  protocol : nskb.protocol = ipprotoMipe
  innerProtocol : nskb.data nskb.headerLen = skb.protocol
  innerDaddr : loadLE nskb.data (nskb.headerLen + 4) = skb.daddr

/-- The packet comes back, but for its header checksum and an id that was 0. -/
structure GivesBack (skb skb' : Skb) : Prop where
  len : skb'.len = skb.len
  data : ∀ i, i < skb.len → i ≠ 10 → i ≠ 11 → Identified skb i → skb'.data i = skb.data i

theorem carries_encapsulate (hsend : ChecksumOnly e) (hp : Ipv4 skb) (hlen : skb.len ≤ 65527)
    (tick : Nat) (ptr : Ptr) (dest : Addr) : Carries skb (encapsulate e tick ptr skb dest) dest := by
  have hh := hp.header
  have hlater (i : Nat) (h : 12 ≤ i) :
      (encapsulate e tick ptr skb dest).data i = written skb dest i :=
    encapsulate_apply hsend hp (by omega) (by omega) fun hc => by omega
  refine ⟨rfl, ?_, ?_, ?_, ?_, ?_⟩
  · have hbytes : totLen (encapsulate e tick ptr skb dest) =
        totLen skb + BitVec.ofNat 16 minIpencHdrSize := by
      have hwritten : loadBE16 (written skb dest) 2 =
          totLen skb + BitVec.ofNat 16 minIpencHdrSize := written_totLen hh
      rw [← hwritten]
      apply loadBE16_congr
      · exact encapsulate_apply hsend hp (by decide) (by decide) (by rintro (h | h) <;> cases h)
      · exact encapsulate_apply hsend hp (by decide) (by decide) (by rintro (h | h) <;> cases h)
    have hfits := hp.length
    have hsize : minIpencHdrSize = 8 := rfl
    rw [hbytes, BitVec.toNat_add, BitVec.toNat_ofNat, hsize]
    omega
  · have hwritten : loadLE (written skb dest) 16 = dest := written_daddr hh
    refine Eq.trans ?_ hwritten
    apply loadLE_congr
    intro i hlo hhi
    exact hlater i (by omega)
  · have hwritten : written skb dest 9 = ipprotoMipe := written_mipe hh
    refine Eq.trans ?_ hwritten
    exact encapsulate_apply hsend hp (by decide) (by decide) (by rintro (h | h) <;> cases h)
  · rw [encapsulate_headerLen hsend hp, hlater _ (by omega), written_innerProtocol hh]
  · rw [encapsulate_headerLen hsend hp]
    have hwritten : loadLE (written skb dest) (skb.headerLen + 4) = skb.daddr :=
      written_innerDaddr hh
    refine Eq.trans ?_ hwritten
    apply loadLE_congr
    intro i hlo hhi
    exact hlater i (by omega)

/-- What stays as it was, at its old place or behind the encapsulation header. -/
structure Encloses (skb nskb : Skb) : Prop where
  headerLen : nskb.headerLen = skb.headerLen
  header : ∀ i, i < skb.headerLen → Plain i → i ≠ 10 → i ≠ 11 → Identified skb i →
    nskb.data i = skb.data i
  payload : ∀ i, skb.headerLen ≤ i → i < skb.len →
    nskb.data (i + minIpencHdrSize) = skb.data i

theorem encloses_encapsulate (hsend : ChecksumOnly e) (hp : Ipv4 skb) (tick : Nat) (ptr : Ptr)
    (dest : Addr) : Encloses skb (encapsulate e tick ptr skb dest) where
  headerLen := encapsulate_headerLen hsend hp
  header i hi hplain h h' hid := by
    rw [encapsulate_apply hsend hp h h' hid, written_header hi hplain]
  payload i hi hlen := by
    have hh := hp.header
    have hsize : minIpencHdrSize = 8 := rfl
    rw [encapsulate_apply hsend hp (by omega) (by omega) fun hc => by omega,
      written_payload hh hi hlen]

def readdressed (b : Buf) (protocol : U8) (daddr : Addr) : Buf :=
  storeLE (store b 9 protocol) 16 daddr

theorem readdressed_apply (b : Buf) (protocol : U8) (daddr : Addr) (h : i ≠ 9)
    (h' : i < 16 ∨ 20 ≤ i) : readdressed b protocol daddr i = b i := by
  rw [readdressed, storeLE_apply_of_disjoint _ _ _ _ h', store_apply_of_ne _ _ _ _ h]

theorem readdressed_header (b : Buf) (skb : Skb) (h : i = 9 ∨ 16 ≤ i ∧ i < 20) :
    readdressed b skb.protocol skb.daddr i = skb.data i := by
  rw [readdressed]
  rcases h with rfl | ⟨hlo, hhi⟩
  · rw [storeLE_apply_of_disjoint _ _ _ _ (by decide), store_apply_self]
    rfl
  · exact storeLE_loadLE _ skb.data hlo hhi

theorem decapsulate_data (hc : Carries skb nskb dest) (hheader : nskb.headerLen = skb.headerLen)
    (hh : 20 ≤ skb.headerLen) :
    let inner : Skb := { nskb with data := readdressed nskb.data skb.protocol skb.daddr }
    inner.headerLen = skb.headerLen ∧
      (ipPktDecapsulate e nskb).data = e.ipSendCheck (storeBE16 (closed inner) 2 (totLen skb)) := by
  intro inner
  have hinner : inner.headerLen = skb.headerLen := hheader
  have hprotocol : nskb.data skb.headerLen = skb.protocol := hheader ▸ hc.innerProtocol
  have hdaddr : loadLE (store nskb.data 9 skb.protocol) (skb.headerLen + 4) = skb.daddr := by
    rw [← hc.innerDaddr, hheader]
    apply loadLE_congr
    intro i hlo hhi
    rw [store_apply_of_ne _ _ _ _ (by omega)]
  have hclosed (i : Nat) (h : i < skb.headerLen) :
      closed inner i = readdressed nskb.data skb.protocol skb.daddr i := by
    rw [closed, if_neg fun hc => by omega]
  have htotLen : loadBE16 (closed inner) 2 = totLen nskb := by
    apply loadBE16_congr
    · rw [hclosed _ (by omega), readdressed_apply _ _ _ (by decide) (by decide)]
    · rw [hclosed _ (by omega), readdressed_apply _ _ _ (by decide) (by decide)]
  have htot : totLen nskb = totLen skb + BitVec.ofNat 16 minIpencHdrSize := by
    have hn := hc.totLen
    have hlt := (totLen nskb).isLt
    apply BitVec.eq_of_toNat_eq
    rw [BitVec.toNat_add, BitVec.toNat_ofNat, hn, minIpencHdrSize]
    rw [hn, minIpencHdrSize] at hlt
    omega
  refine ⟨hinner, ?_⟩
  have hdata : (ipPktDecapsulate e nskb).data = e.ipSendCheck (storeBE16 (closed inner) 2
      (loadBE16 (closed inner) 2 - BitVec.ofNat 16 minIpencHdrSize)) := by
    rw [ipPktDecapsulate, hheader, hprotocol]
    dsimp only
    rw [hdaddr]
    rfl
  rw [hdata, htotLen, htot, BitVec.add_sub_cancel]

theorem givesBack_decapsulate (hsend : ChecksumOnly e) (hp : Ipv4 skb)
    (hc : Carries skb nskb dest) (henc : Encloses skb nskb) :
    GivesBack skb (ipPktDecapsulate e nskb) := by
  have hh := hp.header
  have hsize : minIpencHdrSize = 8 := rfl
  obtain ⟨hinner, hdata⟩ := decapsulate_data (e := e) hc henc.headerLen hh
  have hlen := hc.len
  refine ⟨?_, fun i hi h h' hid => ?_⟩
  · change nskb.len - minIpencHdrSize = skb.len
    omega
  rw [hdata, hsend _ _ h h']
  by_cases hlength : i = 2 ∨ i = 3
  · exact storeBE16_loadBE16 _ skb.data hlength
  rw [storeBE16_apply_of_ne _ _ _ _ (by omega) (by omega), closed, hinner]
  dsimp only
  by_cases hheader : i < skb.headerLen
  · rw [if_neg fun hc => by omega]
    by_cases haddr : i = 9 ∨ 16 ≤ i ∧ i < 20
    · exact readdressed_header _ skb haddr
    · rw [readdressed_apply _ _ _ (by omega) (by omega)]
      refine henc.header i hheader ?_ h h' hid
      rw [Plain]
      omega
  · rw [if_pos ⟨by omega, by omega⟩, readdressed_apply _ _ _ (by omega) (by omega)]
    exact henc.payload i (by omega) hi

/-- An encapsulated packet has the gateway's address and the old addressing
inside, and decapsulation gives the packet back. -/
theorem encapsulation_roundtrip (hsend : ChecksumOnly e) (hp : Ipv4 skb) (hlen : skb.len ≤ 65527)
    (h : ipPktEncapsulate e k skb dest = (k', some nskb)) :
    Carries skb nskb dest ∧ GivesBack skb (ipPktDecapsulate e nskb) := by
  rw [ipPktEncapsulate] at h
  split at h
  · cases h
    have hc := carries_encapsulate hsend hp hlen k.tick k.brk dest
    exact ⟨hc, givesBack_decapsulate hsend hp hc (encloses_encapsulate hsend hp k.tick k.brk dest)⟩
  · cases h

/-- A kernel that gives new packets this id. -/
def kernel (id : U16) : KEnv .long64 where
  hz := 100
  jiffies := fun _ => 0
  ifihead := []
  kmalloc := fun _ => true
  nlmsgNew := fun _ => true
  skbCopyExpand := fun _ => true
  ident := fun _ => id
  ipSendCheck := headerCheck

def datagram (id : U8) : Skb where
  ptr := 0
  hasIph := true
  len := 28
  data := overlay [0x46, 0, 0, 28, 0, id, 0, 0, 64, 17, 0, 0, 10, 0, 0, 1, 10, 0, 0, 9, 1, 1, 1, 1,
    0xde, 0xad, 0xbe, 0xef] zeroed

theorem ipv4_datagram {id : U8} (h : id = 0 ∨ id = 1) : Ipv4 (datagram id) := by
  rcases h with rfl | rfl
  · exact ⟨by decide, by decide, by decide, by decide⟩
  · exact ⟨by decide, by decide, by decide, by decide⟩

theorem encapsulation_roundtrip_options :
    let nskb := encapsulate (kernel 7) 0 0 (datagram 0) 0x0200000a
    Carries (datagram 0) nskb 0x0200000a ∧
      GivesBack (datagram 0) (ipPktDecapsulate (kernel 7) nskb) :=
  encapsulation_roundtrip (k := kaodvInit) (checksumOnly rfl) (ipv4_datagram (.inl rfl))
    (Nat.le_of_ble_eq_true rfl) rfl

end Aodv.Encapsulation
