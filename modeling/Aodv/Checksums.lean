import Aodv.Encapsulation

namespace Aodv.Checksums

open Lib.Bytes Encapsulation
open Lib.OnesComplement (sum total swap)

variable {a : Arch} {e : KEnv a} {k k' : Kaodv a} {skb nskb : Skb} {dest : Addr}
  {load : Buf → Nat → U16} {b c : Buf} {off n : Nat}

theorem words_congr (h : ∀ j, j < n → load b (off + 2 * j) = load c (off + 2 * j)) :
    words load b off n = words load c off n := by
  induction n generalizing off with
  | zero => rfl
  | succ n ih =>
      have hfirst := h 0 (Nat.succ_pos n)
      have hrest : words load b (off + 2) n = words load c (off + 2) n := by
        apply ih
        intro j hj
        have hnext := h (j + 1) (Nat.succ_lt_succ hj)
        rwa [Nat.mul_succ, Nat.add_comm (2 * j) 2, ← Nat.add_assoc] at hnext
      rw [words, words, hrest]
      exact congrArg (· :: _) hfirst

theorem total_change {i : Nat} (hi : i < n) (hz : load b (off + 2 * i) = 0)
    (hsame : ∀ j, j ≠ i → load c (off + 2 * j) = load b (off + 2 * j)) :
    total (words load c off n) = total (words load b off n) + (load c (off + 2 * i)).toNat := by
  induction n generalizing off i with
  | zero => exact absurd hi (Nat.not_lt_zero i)
  | succ n ih =>
      rw [words, words, Lib.OnesComplement.total_cons, Lib.OnesComplement.total_cons]
      cases i with
      | zero =>
          have hrest : words load c (off + 2) n = words load b (off + 2) n := by
            apply words_congr
            intro j hj
            have hnext := hsame (j + 1) (Nat.succ_ne_zero j)
            rwa [Nat.mul_succ, Nat.add_comm (2 * j) 2, ← Nat.add_assoc] at hnext
          have hfirst : (load b off).toNat = 0 := by
            change (load b (off + 2 * 0)).toNat = 0
            rw [hz]
            rfl
          rw [hrest, hfirst, Nat.zero_add, Nat.add_comm]
          rfl
      | succ i =>
          have hshift (j : Nat) : off + 2 * (j + 1) = off + 2 + 2 * j := by omega
          have hfirst : load c off = load b off := hsame 0 (Nat.succ_ne_zero i).symm
          rw [hshift] at hz ⊢
          have hrest := ih (Nat.lt_of_succ_lt_succ hi) hz fun j hj => by
            rw [← hshift]
            exact hsame (j + 1) fun hc => hj (Nat.succ.inj hc)
          rw [hfirst, hrest]
          omega

theorem loadLE16_swap (b : Buf) (off : Nat) : loadLE16 b off = swap (loadBE16 b off) := by
  have hlow : (loadBE16 b off).setWidth 8 = b (off + 1) := by
    rw [loadBE16, BitVec.setWidth_append]
    simp
  have hhigh : (loadBE16 b off).extractLsb' 8 8 = b off := by
    rw [loadBE16]
    exact BitVec.extractLsb'_append_eq_left
  rw [swap, hlow, hhigh]
  rfl

theorem words_swap (b : Buf) (off n : Nat) :
    words loadLE16 b off n = (words loadBE16 b off n).map swap := by
  induction n generalizing off with
  | zero => rfl
  | succ n ih => rw [words, words, List.map_cons, ih, loadLE16_swap]

theorem csumLoop_total (b : Buf) (off n : Nat) (s : U32) (h : s.toNat + 65535 * n < 2 ^ 32) :
    (csumLoop b off n s).toNat = s.toNat + total (words loadLE16 b off n) := by
  induction n generalizing off s with
  | zero => rfl
  | succ n ih =>
      have hword : ((loadLE16 b off).setWidth 32).toNat = (loadLE16 b off).toNat :=
        BitVec.toNat_setWidth_of_le (by decide)
      have hlt := (loadLE16 b off).isLt
      have hsum : (s + (loadLE16 b off).setWidth 32).toNat = s.toNat + (loadLE16 b off).toNat := by
        rw [BitVec.toNat_add, hword, Nat.mod_eq_of_lt (by omega)]
      rw [csumLoop, ih _ _ (by omega), hsum, words, Lib.OnesComplement.total_cons, Nat.add_assoc]

/-- Two folds are enough: the complement of the checksum is congruent to the words. -/
theorem ipCsum_folds (b : Buf) (off n : Nat) (h : 65535 * n < 2 ^ 32) :
    (~~~(ipCsum b off n)).toNat ≡ total (words loadLE16 b off n) [MOD 65535] ∧
      ((~~~(ipCsum b off n)).toNat = 0 ↔ total (words loadLE16 b off n) = 0) := by
  have hloop := csumLoop_total b off n 0 (by simpa using h)
  rw [show (0 : U32).toNat = 0 from rfl, Nat.zero_add] at hloop
  rw [← hloop]
  generalize hs : csumLoop b off n 0 = s
  have hlt := s.isLt
  have hhigh : (s >>> 16).toNat = s.toNat / 65536 := by
    rw [BitVec.toNat_ushiftRight, Nat.shiftRight_eq_div_pow]
  have hlow : (s &&& 0xffff).toNat = s.toNat % 65536 := by
    rw [BitVec.toNat_and]
    exact Nat.and_two_pow_sub_one_eq_mod s.toNat 16
  have hfirst : ((s >>> 16) + (s &&& 0xffff)).toNat = s.toNat / 65536 + s.toNat % 65536 := by
    rw [BitVec.toNat_add, hhigh, hlow, Nat.mod_eq_of_lt (by omega)]
  generalize hf : (s >>> 16) + (s &&& 0xffff) = f at hfirst
  have hsecond : (f + (f >>> 16)).toNat = f.toNat + f.toNat / 65536 := by
    rw [BitVec.toNat_add, BitVec.toNat_ushiftRight, Nat.shiftRight_eq_div_pow,
      Nat.mod_eq_of_lt (by omega)]
  have hresult : (~~~(ipCsum b off n)).toNat = (f.toNat + f.toNat / 65536) % 65536 := by
    have hdef : ipCsum b off n = (~~~(f + (f >>> 16))).setWidth 16 := by
      rw [ipCsum, hs, hf]
    rw [hdef, BitVec.toNat_not, BitVec.toNat_setWidth, BitVec.toNat_not, hsecond]
    omega
  rw [hresult]
  exact Lib.OnesComplement.folds_modEq (by decide) (by omega) hfirst

def headerSum (skb : Skb) : U16 := sum (words loadBE16 skb.data 0 (skb.headerLen / 2))

def innerSum (skb : Skb) : U16 := sum (words loadBE16 skb.data skb.headerLen 4)

theorem writeIpe_check (b : Buf) (off : Nat) : loadLE16 (writeIpe b off) (off + 2) = 0 := by
  refine Eq.trans ?_ (loadLE16_storeLE16 (store (store b off (b 9)) (off + 1) 0) (off + 2) 0)
  rw [writeIpe]
  apply loadLE16_congr
  · exact storeLE_apply_of_disjoint _ _ _ _ (by omega)
  · exact storeLE_apply_of_disjoint _ _ _ _ (by omega)

theorem innerSum_written (hh : 20 ≤ skb.headerLen) :
    sum (words loadBE16 (written skb dest) skb.headerLen 4) = BitVec.allOnes 16 := by
  rw [← Lib.OnesComplement.sum_swap, ← words_swap, Lib.OnesComplement.sum_eq_allOnes (by decide)]
  let base := writeIph (writeIpe (opened skb) skb.headerLen) dest
  have hcheck : loadLE16 (written skb dest) (skb.headerLen + 2) = ipCsum base skb.headerLen 4 :=
    loadLE16_storeLE16 _ _ _
  have hbase (i : Nat) (h : skb.headerLen ≤ i) :
      base i = writeIpe (opened skb) skb.headerLen i := writeIph_plain _ (.inr (by omega))
  have hzero : loadLE16 base (skb.headerLen + 2 * 1) = 0 := by
    rw [← writeIpe_check (opened skb) skb.headerLen]
    exact loadLE16_congr (hbase _ (by omega)) (hbase _ (by omega))
  have hchange : total (words loadLE16 (written skb dest) skb.headerLen 4) =
      total (words loadLE16 base skb.headerLen 4) +
        (loadLE16 (written skb dest) (skb.headerLen + 2 * 1)).toNat := by
    refine total_change (by decide) hzero fun j hj => ?_
    exact loadLE16_congr (written_apply (by omega) (by omega)) (written_apply (by omega) (by omega))
  obtain ⟨hmod, hzero⟩ := ipCsum_folds base skb.headerLen 4 (by decide)
  have hones := Lib.OnesComplement.total_complement (by decide) hmod hzero
  rw [BitVec.not_not] at hones
  rw [hchange, hcheck]
  exact hones

theorem total_headerCheck (b : Buf) (h : 6 ≤ n) (hn : n = (b 0 &&& 0x0f).toNat * 4 / 2) :
    total (words loadBE16 (headerCheck b) 0 n) ≠ 0 ∧
      65535 ∣ total (words loadBE16 (headerCheck b) 0 n) := by
  let z := storeBE16 b 10 0
  have hsize : n = (z 0 &&& 0x0f).toNat * 4 / 2 := hn
  have hdef : headerCheck b = storeBE16 z 10 (~~~(sum (words loadBE16 z 0 n))) := by
    rw [hsize]
    rfl
  have hchange : total (words loadBE16 (headerCheck b) 0 n) =
      total (words loadBE16 z 0 n) + (loadBE16 (headerCheck b) (0 + 2 * 5)).toNat := by
    refine total_change (by omega) (loadBE16_storeBE16 b 10 0) fun j hj => ?_
    rw [hdef]
    exact loadBE16_congr (storeBE16_apply_of_ne _ _ _ _ (by omega) (by omega))
      (storeBE16_apply_of_ne _ _ _ _ (by omega) (by omega))
  have hcheck : loadBE16 (headerCheck b) (0 + 2 * 5) = ~~~(sum (words loadBE16 z 0 n)) := by
    rw [hdef]
    exact loadBE16_storeBE16 _ _ _
  rw [hchange, hcheck]
  exact Lib.OnesComplement.total_complement (by decide)
    (Lib.OnesComplement.sum_modEq (by decide) _) (Lib.OnesComplement.sum_eq_zero (by decide) _)

theorem dvd_total_add {t : Nat} (x : U16) (hdvd : 65535 ∣ t) :
    65535 ∣ t + x.toNat ↔ x = 0 ∨ x = 0xffff := by
  have hlt := x.isLt
  rw [(Nat.dvd_add_iff_right hdvd).symm]
  constructor
  · rintro ⟨m, hm⟩
    rcases m with - | m
    · left
      apply BitVec.eq_of_toNat_eq
      rw [hm]
      rfl
    · right
      apply BitVec.eq_of_toNat_eq
      change x.toNat = 65535
      omega
  · rintro (rfl | rfl)
    · exact dvd_zero _
    · exact dvd_refl _

theorem innerSum_encapsulate (hsend : ChecksumOnly e) (hp : Ipv4 skb) (tick : Nat)
    (p : Ptr) : innerSum (encapsulate e tick p skb dest) = 0xffff := by
  have hh := hp.header
  have hwritten : sum (words loadBE16 (written skb dest) skb.headerLen 4) = BitVec.allOnes 16 :=
    innerSum_written hh
  refine Eq.trans ?_ hwritten
  rw [innerSum, encapsulate_headerLen hsend hp]
  apply congrArg sum
  apply words_congr
  intro j hj
  have hbyte (i : Nat) (hi : 12 ≤ i) : (encapsulate e tick p skb dest).data i = written skb dest i :=
    encapsulate_apply hsend hp (by omega) (by omega) fun hc => by omega
  exact loadBE16_congr (hbyte _ (by omega)) (hbyte _ (by omega))

/-- Both sums of an encapsulated packet are right, unless it gets an id after
its header checksum. -/
theorem checksums_iff (hcheck : e.ipSendCheck = headerCheck) (hp : Ipv4 skb)
    (h : ipPktEncapsulate e k skb dest = (k', some nskb)) :
    headerSum nskb = 0xffff ∧ innerSum nskb = 0xffff ↔
      ident skb ≠ 0 ∨ e.ident k.tick = 0 ∨ e.ident k.tick = 0xffff := by
  have hsend := checksumOnly hcheck
  have hh := hp.header
  rw [ipPktEncapsulate] at h
  split at h
  · cases h
    have hlen : (encapsulate e k.tick k.brk skb dest).headerLen = skb.headerLen :=
      encapsulate_headerLen hsend hp
    rw [and_iff_left (innerSum_encapsulate hsend hp k.tick k.brk), headerSum, hlen]
    have hfirst : written skb dest 0 = skb.data 0 := written_header (by omega) (by decide)
    have hsize : skb.headerLen / 2 = (written skb dest 0 &&& 0x0f).toNat * 4 / 2 := by
      rw [hfirst]
      rfl
    obtain ⟨hne, hdvd⟩ := total_headerCheck (written skb dest) (by omega) hsize
    have hident : loadBE16 (e.ipSendCheck (written skb dest)) 4 = ident skb :=
      ident_checked hsend hp
    rw [hcheck] at hident
    have hones : (0xffff : U16) = BitVec.allOnes 16 := rfl
    rw [encapsulate_eq, hcheck, hones, Lib.OnesComplement.sum_eq_allOnes (by decide)]
    dsimp only
    rw [hident]
    by_cases hid : ident skb = 0
    · rw [if_pos hid]
      let c := storeBE16 (headerCheck (written skb dest)) 4 (e.ident k.tick)
      have hchange : total (words loadBE16 c 0 (skb.headerLen / 2)) =
          total (words loadBE16 (headerCheck (written skb dest)) 0 (skb.headerLen / 2)) +
            (loadBE16 c (0 + 2 * 2)).toNat := by
        refine total_change (by omega) (hident.trans hid) fun j hj => ?_
        exact loadBE16_congr (storeBE16_apply_of_ne _ _ _ _ (by omega) (by omega))
          (storeBE16_apply_of_ne _ _ _ _ (by omega) (by omega))
      rw [loadBE16_storeBE16] at hchange
      rw [hchange, and_iff_right (by omega), ← hones]
      rw [or_iff_right (not_not.2 hid)]
      exact dvd_total_add (e.ident k.tick) hdvd
    · rw [if_neg hid]
      exact iff_of_true ⟨hne, hdvd⟩ (.inl hid)
  · cases h

theorem checksums_iff_identified :
    headerSum (encapsulate (kernel 7) 0 0 (datagram 1) 0x0200000a) = 0xffff ∧
        innerSum (encapsulate (kernel 7) 0 0 (datagram 1) 0x0200000a) = 0xffff ↔
      ident (datagram 1) ≠ 0 ∨ (kernel 7).ident 0 = 0 ∨ (kernel 7).ident 0 = 0xffff :=
  checksums_iff (k := kaodvInit) rfl (ipv4_datagram (.inr rfl)) rfl

/-- A packet without an id gets one when its header checksum is done. -/
theorem late_ident_spoils : ∃ nskb,
    (ipPktEncapsulate (kernel 7) kaodvInit (datagram 0) 0x0200000a).2 = some nskb ∧
      Ipv4 (datagram 0) ∧ headerSum nskb ≠ 0xffff :=
  ⟨_, rfl, ipv4_datagram (.inl rfl), by decide +kernel⟩

end Aodv.Checksums
