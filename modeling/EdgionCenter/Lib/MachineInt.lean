import Mathlib.Data.Nat.Basic

/-! Unsigned and signed integers of 64 bits. -/
namespace MachineInt

/-- The sum, or the greatest value. -/
def saturatingAdd (a b : UInt64) : UInt64 :=
  if a.toNat + b.toNat < UInt64.size then a + b else 0xFFFFFFFFFFFFFFFF

theorem toNat_saturatingAdd (a b : UInt64) :
    (saturatingAdd a b).toNat = min (a.toNat + b.toNat) (UInt64.size - 1) := by
  unfold saturatingAdd
  split
  · rename_i hfits
    rw [UInt64.toNat_add, Nat.mod_eq_of_lt hfits]
    omega
  · rename_i hfits
    change UInt64.size - 1 = _
    omega

theorem toNat_max (a b : UInt64) : (max a b).toNat = max a.toNat b.toNat := by
  change (if a ≤ b then b else a).toNat = if a.toNat ≤ b.toNat then b.toNat else a.toNat
  simp only [UInt64.le_iff_toNat_le]
  split <;> rfl

theorem toNat_min (a b : UInt64) : (min a b).toNat = min a.toNat b.toNat := by
  change (if a ≤ b then a else b).toNat = if a.toNat ≤ b.toNat then a.toNat else b.toNat
  simp only [UInt64.le_iff_toNat_le]
  split <;> rfl

theorem toInt_toInt64 (n : UInt64) : n.toInt64.toInt = (n.toNat : ℤ).bmod 18446744073709551616 := by
  change n.toBitVec.toInt = _
  rw [BitVec.toInt_eq_toNat_bmod]
  rfl

theorem toInt_toInt64_of_lt {n : UInt64} (h : n.toNat < 9223372036854775808) :
    n.toInt64.toInt = n.toNat := by
  rw [toInt_toInt64, Int.bmod_def]
  split <;> omega

end MachineInt
