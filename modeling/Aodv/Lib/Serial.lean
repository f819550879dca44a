import Mathlib.Algebra.Group.Nat.Defs

namespace Aodv.Lib.Serial

variable {w : Nat}

/-- From a the word b is reached within half a turn. -/
def NotOlder (a b : BitVec w) : Prop := (b - a).toNat < 2 ^ (w - 1)

def Newer (a b : BitVec w) : Prop := a ≠ b ∧ NotOlder a b

instance (a b : BitVec w) : Decidable (NotOlder a b) := inferInstanceAs (Decidable (_ < _))

instance (a b : BitVec w) : Decidable (Newer a b) := inferInstanceAs (Decidable (_ ∧ _))

theorem notOlder_refl (a : BitVec w) : NotOlder a a := by
  rw [NotOlder, BitVec.sub_self]
  exact Nat.two_pow_pos _

theorem notOlder_add (a c : BitVec w) : NotOlder a (a + c) ↔ c.toNat < 2 ^ (w - 1) := by
  rw [NotOlder, BitVec.add_comm, BitVec.add_sub_cancel]

theorem newer_add {a c : BitVec w} (hc : c ≠ 0) (h : c.toNat < 2 ^ (w - 1)) : Newer a (a + c) := by
  refine ⟨fun he => hc ?_, (notOlder_add a c).2 h⟩
  have hzero : a + c - a = 0 := by
    rw [← he]
    exact BitVec.sub_self a
  rwa [BitVec.add_comm, BitVec.add_sub_cancel] at hzero

def Straddles (a b : BitVec w) : Prop := a.msb = false ∧ b.msb = true

instance (a b : BitVec w) : Decidable (Straddles a b) := inferInstanceAs (Decidable (_ ∧ _))

/-- Of two serial numbers the signed comparison finds the newer one, unless they
straddle its boundary. -/
theorem slt_of_newer {a b : BitVec w} (h : Newer a b) : a.slt b = true ↔ ¬ Straddles a b := by
  obtain ⟨hne, hlt⟩ := h
  have hne' : a.toNat ≠ b.toNat := fun he => hne (BitVec.eq_of_toNat_eq he)
  have ha := a.isLt
  have hb := b.isLt
  cases w with
  | zero => exact absurd (by omega) hne'
  | succ w =>
      rw [NotOlder, BitVec.toNat_sub, Nat.add_sub_cancel] at hlt
      rw [Straddles, BitVec.msb_eq_decide, BitVec.msb_eq_decide, BitVec.slt, decide_eq_true_iff,
        BitVec.toInt_eq_toNat_cond, BitVec.toInt_eq_toNat_cond, Nat.add_sub_cancel]
      rw [decide_eq_false_iff_not, decide_eq_true_iff]
      have hdouble : 2 ^ (w + 1) = 2 * 2 ^ w := Nat.pow_succ'
      rw [hdouble] at ha hb hlt ⊢
      rw [Int.natCast_mul]
      generalize 2 ^ w = k at *
      by_cases hab : a.toNat ≤ b.toNat
      · have hmod : (2 * k - a.toNat + b.toNat) % (2 * k) = b.toNat - a.toNat := by
          rw [show 2 * k - a.toNat + b.toNat = b.toNat - a.toNat + 2 * k by omega,
            Nat.add_mod_right, Nat.mod_eq_of_lt (by omega)]
        rw [hmod] at hlt
        split <;> split <;> omega
      · rw [Nat.mod_eq_of_lt (by omega)] at hlt
        split <;> split <;> omega

theorem slt_of_older {a b : BitVec w} (h : Newer a b) : b.slt a = true ↔ Straddles a b := by
  have hne : a.toInt ≠ b.toInt := fun he => h.1 (BitVec.eq_of_toInt_eq he)
  have hiff := slt_of_newer h
  rw [BitVec.slt, decide_eq_true_iff] at hiff ⊢
  apply Decidable.not_iff_not.1
  rw [← hiff]
  omega

end Aodv.Lib.Serial
