import Mathlib.Data.BitVec
import Mathlib.Data.Nat.ModEq
import Mathlib.Tactic.Ring

namespace Aodv.Lib.OnesComplement

open Nat (ModEq)

variable {w : Nat}

/-- A carry out of the highest bit comes back in at the lowest. -/
def add (x y : BitVec w) : BitVec w :=
  if x.toNat + y.toNat < 2 ^ w then x + y else x + y + 1

def sum (l : List (BitVec w)) : BitVec w := l.foldr add 0

def total (l : List (BitVec w)) : Nat := (l.map BitVec.toNat).sum

@[simp] theorem sum_nil : sum ([] : List (BitVec w)) = 0 := rfl

@[simp] theorem sum_cons (x : BitVec w) (l : List (BitVec w)) : sum (x :: l) = add x (sum l) := rfl

@[simp] theorem total_nil : total ([] : List (BitVec w)) = 0 := rfl

@[simp] theorem total_cons (x : BitVec w) (l : List (BitVec w)) :
    total (x :: l) = x.toNat + total l := by simp [total]

theorem toNat_add (x y : BitVec w) (hw : 0 < w) :
    (add x y).toNat =
      if x.toNat + y.toNat < 2 ^ w then x.toNat + y.toNat else x.toNat + y.toNat + 1 - 2 ^ w := by
  have hx := x.isLt
  have hy := y.isLt
  have htwo : 2 ≤ 2 ^ w := Nat.le_self_pow (Nat.ne_of_gt hw) 2
  have hone : (1 : BitVec w).toNat = 1 := by
    change 1 % 2 ^ w = 1
    exact Nat.mod_eq_of_lt htwo
  rw [add]
  split
  next h => rw [BitVec.toNat_add, Nat.mod_eq_of_lt h]
  next h =>
    have hcarry : (x.toNat + y.toNat) % 2 ^ w = x.toNat + y.toNat - 2 ^ w := by
      rw [Nat.mod_eq_sub_mod (by omega), Nat.mod_eq_of_lt (by omega)]
    rw [BitVec.toNat_add, BitVec.toNat_add, hcarry, hone, Nat.mod_eq_of_lt (by omega)]
    omega

theorem add_modEq (x y : BitVec w) (hw : 0 < w) :
    (add x y).toNat ≡ x.toNat + y.toNat [MOD 2 ^ w - 1] := by
  rw [toNat_add x y hw]
  split
  · exact ModEq.refl _
  next h =>
    have hpos := Nat.two_pow_pos w
    have hsplit : x.toNat + y.toNat = x.toNat + y.toNat + 1 - 2 ^ w + (2 ^ w - 1) := by omega
    conv_rhs => rw [hsplit]
    exact Nat.modEq_add_modulus_iff.2 (ModEq.refl _)

theorem add_eq_zero (x y : BitVec w) (hw : 0 < w) :
    (add x y).toNat = 0 ↔ x.toNat = 0 ∧ y.toNat = 0 := by
  have hpos := Nat.two_pow_pos w
  rw [toNat_add x y hw]
  split <;> omega

theorem sum_modEq (hw : 0 < w) (l : List (BitVec w)) : (sum l).toNat ≡ total l [MOD 2 ^ w - 1] := by
  induction l with
  | nil => exact ModEq.refl 0
  | cons x l ih =>
      rw [sum_cons, total_cons]
      exact (add_modEq x (sum l) hw).trans (ModEq.add_left _ ih)

theorem sum_eq_zero (hw : 0 < w) (l : List (BitVec w)) : (sum l).toNat = 0 ↔ total l = 0 := by
  induction l with
  | nil => simp
  | cons x l ih =>
      rw [sum_cons, total_cons, add_eq_zero x (sum l) hw, ih]
      omega

/-- The sum is all ones when the words add up to a multiple of all ones, unless
every word is zero. -/
theorem sum_eq_allOnes (hw : 0 < w) (l : List (BitVec w)) :
    sum l = BitVec.allOnes w ↔ total l ≠ 0 ∧ (2 ^ w - 1) ∣ total l := by
  have htwo : 2 ≤ 2 ^ w := Nat.le_self_pow (Nat.ne_of_gt hw) 2
  have hlt := (sum l).isLt
  have hmod := sum_modEq hw l
  have hzero := sum_eq_zero hw l
  constructor
  · intro h
    have hsum : (sum l).toNat = 2 ^ w - 1 := by rw [h, BitVec.toNat_allOnes]
    refine ⟨fun ht => ?_, ?_⟩
    · have := hzero.2 ht
      omega
    · rw [hsum] at hmod
      exact (Nat.modEq_zero_iff_dvd.1 (hmod.symm.trans (Nat.modEq_zero_iff_dvd.2 (dvd_refl _))))
  · rintro ⟨hne, hdvd⟩
    apply BitVec.eq_of_toNat_eq
    rw [BitVec.toNat_allOnes]
    have hpos : (sum l).toNat ≠ 0 := fun h => hne (hzero.1 h)
    obtain ⟨k, hk⟩ := Nat.modEq_zero_iff_dvd.1 (hmod.trans (Nat.modEq_zero_iff_dvd.2 hdvd))
    rcases k with - | - | k
    · omega
    · omega
    · have : (2 ^ w - 1) * (k + 1 + 1) ≥ (2 ^ w - 1) * 2 := Nat.mul_le_mul_left _ (by omega)
      omega

/-- A sum in a wide accumulator, folded twice, is the one's complement sum: the
second fold has no carry. -/
theorem folds_modEq {s k f : Nat} (hk : 2 ≤ k) (hs : s < k * k) (hf : f = s / k + s % k) :
    (f + f / k) % k ≡ s [MOD k - 1] ∧ ((f + f / k) % k = 0 ↔ s = 0) := by
  have hdiv : s / k < k := Nat.div_lt_of_lt_mul hs
  have hmod : s % k < k := Nat.mod_lt _ (by omega)
  have hsplit := Nat.div_add_mod s k
  have hcong : f ≡ s [MOD k - 1] := by
    have hprod : k * (s / k) = s / k + (k - 1) * (s / k) := by
      obtain ⟨n, rfl⟩ := Nat.exists_eq_add_of_le hk
      rw [show 2 + n - 1 = 1 + n by omega]
      ring
    have hsum : s = f + (k - 1) * (s / k) := by omega
    conv_rhs => rw [hsum]
    exact Nat.modEq_add_modulus_mul_iff.2 (ModEq.refl f)
  by_cases hcarry : f < k
  · have hnone : f / k = 0 := Nat.div_eq_of_lt hcarry
    rw [hnone, Nat.add_zero, Nat.mod_eq_of_lt hcarry]
    refine ⟨hcong, ?_⟩
    constructor
    · intro h
      obtain ⟨hhigh, hlow⟩ := Nat.add_eq_zero_iff.1 (hf.symm.trans h)
      rw [hhigh, hlow] at hsplit
      exact hsplit.symm
    · intro h
      rw [hf, h]
      simp
  · have hone : f / k = 1 := Nat.div_eq_of_lt_le (by omega) (by omega)
    have hback : (f + 1) % k = f + 1 - k := by
      rw [Nat.mod_eq_sub_mod (by omega), Nat.mod_eq_of_lt (by omega)]
    rw [hone, hback]
    refine ⟨?_, ?_⟩
    · have heq : f = f + 1 - k + (k - 1) := by omega
      refine ModEq.trans ?_ hcong
      conv_rhs => rw [heq]
      exact Nat.modEq_add_modulus_iff.2 (ModEq.refl _)
    · have : s ≠ 0 := by
        rintro rfl
        rw [Nat.zero_div, Nat.zero_mod] at hf
        omega
      omega

theorem total_complement {x : BitVec w} {t : Nat} (hw : 0 < w) (hx : x.toNat ≡ t [MOD 2 ^ w - 1])
    (hzero : x.toNat = 0 ↔ t = 0) :
    t + (~~~x).toNat ≠ 0 ∧ (2 ^ w - 1) ∣ t + (~~~x).toNat := by
  have htwo : 2 ≤ 2 ^ w := Nat.le_self_pow (Nat.ne_of_gt hw) 2
  have hlt := x.isLt
  rw [BitVec.toNat_not]
  refine ⟨by omega, ?_⟩
  apply Nat.modEq_zero_iff_dvd.1
  have hsum : t + (2 ^ w - 1 - x.toNat) ≡ x.toNat + (2 ^ w - 1 - x.toNat) [MOD 2 ^ w - 1] :=
    ModEq.add_right _ hx.symm
  rw [Nat.add_sub_cancel' (by omega)] at hsum
  exact hsum.trans (Nat.modEq_zero_iff_dvd.2 (dvd_refl _))

def swap (x : BitVec 16) : BitVec 16 := x.setWidth 8 ++ x.extractLsb' 8 8

theorem toNat_swap (x : BitVec 16) : (swap x).toNat = x.toNat % 256 * 256 + x.toNat / 256 := by
  have hx := x.isLt
  have hlow : (x.setWidth 8).toNat = x.toNat % 256 := by rw [BitVec.toNat_setWidth]
  have hhigh : (x.extractLsb' 8 8).toNat = x.toNat / 256 := by
    rw [BitVec.extractLsb'_toNat, Nat.shiftRight_eq_div_pow, Nat.mod_eq_of_lt (by omega)]
  rw [swap, BitVec.toNat_append, hlow, hhigh, Nat.shiftLeft_eq,
    ← Nat.shiftLeft_eq, ← Nat.shiftLeft_add_eq_or_of_lt (by omega), Nat.shiftLeft_eq]

theorem swap_modEq (x : BitVec 16) : (swap x).toNat ≡ 256 * x.toNat [MOD 65535] := by
  rw [toNat_swap]
  have hsplit := Nat.div_add_mod x.toNat 256
  have hsum : 256 * x.toNat = x.toNat % 256 * 256 + x.toNat / 256 + 65535 * (x.toNat / 256) := by
    omega
  rw [hsum]
  exact Nat.modEq_add_modulus_mul_iff.2 (ModEq.refl _)

theorem total_swap (l : List (BitVec 16)) :
    total (l.map swap) ≡ 256 * total l [MOD 65535] ∧ (total (l.map swap) = 0 ↔ total l = 0) := by
  induction l with
  | nil => exact ⟨ModEq.refl 0, Iff.rfl⟩
  | cons x l ih =>
      obtain ⟨hmod, hzero⟩ := ih
      rw [List.map_cons, total_cons, total_cons, Nat.mul_add]
      refine ⟨(swap_modEq x).add hmod, ?_⟩
      have hx := toNat_swap x
      omega

theorem sum_swap (l : List (BitVec 16)) :
    sum (l.map swap) = BitVec.allOnes 16 ↔ sum l = BitVec.allOnes 16 := by
  obtain ⟨hmod, hzero⟩ := total_swap l
  have hcoprime : Nat.Coprime 65535 256 := by decide
  rw [sum_eq_allOnes (by decide), sum_eq_allOnes (by decide), Ne, hzero]
  have hdvd : 65535 ∣ total (l.map swap) ↔ 65535 ∣ total l := by
    rw [(hmod.dvd_iff (dvd_refl _)), hcoprime.dvd_mul_left]
  exact and_congr_right fun _ => hdvd

end Aodv.Lib.OnesComplement
