/-
  OpenVpnAndroid/SerialNumber.lean
  ================================
  **Counters that are known modulo 2 ^ 32.**

  A counter that never stops is sent as its last 32 bits.  Two of these numbers
  can be told apart as long as the counters are less than one turn apart
  (`ofNat_inj_of_near`), and their order is that of the counters up to half a turn
  (`sub_lt_half_iff`).
-/
import Mathlib

namespace OpenVpnAndroid

namespace SerialNumber

theorem toNat_ofNat (n : Nat) : (UInt32.ofNat n).toNat = n % 2 ^ 32 := UInt32.toNat_ofNat'

/-- The distance upwards. -/
theorem toNat_sub_ofNat {a b : Nat} (h : b ≤ a) :
    (UInt32.ofNat a - UInt32.ofNat b).toNat = (a - b) % 2 ^ 32 := by
  rw [UInt32.toNat_sub, toNat_ofNat, toNat_ofNat]
  omega

/-- The distance downwards goes the other way round. -/
theorem toNat_sub_ofNat_of_lt {a b : Nat} (h : a < b) (hturn : b ≤ a + 2 ^ 32) :
    (UInt32.ofNat a - UInt32.ofNat b).toNat = (2 ^ 32 - (b - a)) % 2 ^ 32 := by
  rw [UInt32.toNat_sub, toNat_ofNat, toNat_ofNat]
  omega

/-- `a - b` is below half a turn exactly when `a` is not before `b`. -/
theorem sub_lt_half_iff {a b : Nat} (hab : a < b + 2 ^ 31) (hba : b ≤ a + 2 ^ 31) :
    UInt32.ofNat a - UInt32.ofNat b < 0x80000000 ↔ b ≤ a := by
  have hhalf : (0x80000000 : UInt32).toNat = 2 ^ 31 := rfl
  rw [UInt32.lt_iff_toNat_lt, hhalf]
  rcases Nat.lt_or_ge a b with h | h
  · rw [toNat_sub_ofNat_of_lt h (by omega)]
    omega
  · rw [toNat_sub_ofNat h]
    omega

theorem sub_lt_iff {a b extent : Nat} (hba : b ≤ a) (hab : a < b + 2 ^ 32) (hext : extent < 2 ^ 32) :
    UInt32.ofNat a - UInt32.ofNat b < UInt32.ofNat extent ↔ a < b + extent := by
  rw [UInt32.lt_iff_toNat_lt, toNat_sub_ofNat hba, toNat_ofNat]
  omega

theorem ofNat_inj_of_near {a b : Nat} (hab : a < b + 2 ^ 32) (hba : b < a + 2 ^ 32)
    (h : UInt32.ofNat a = UInt32.ofNat b) : a = b := by
  have hmod := congrArg UInt32.toNat h
  rw [toNat_ofNat, toNat_ofNat] at hmod
  omega

theorem ofNat_succ (n : Nat) : UInt32.ofNat n + 1 = UInt32.ofNat (n + 1) := by
  apply UInt32.toNat.inj
  rw [UInt32.toNat_add, toNat_ofNat, toNat_ofNat]
  exact Nat.mod_add_mod n (2 ^ 32) 1

end SerialNumber

end OpenVpnAndroid
