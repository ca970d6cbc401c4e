/-
  OpenVpnAndroid/BigEndian.lean
  =============================
  **Numbers as bytes, the most significant one first.**

  `bigEndian w n` writes the last `w` bytes of a number and `value` reads any list
  of bytes.  The other lemmas are about bytes of which the last ones were lost: what
  is left is a quotient (`value_take`), and what is read when ones take their place
  is the largest number with that quotient (`value_filled`).
-/
import Mathlib

namespace OpenVpnAndroid

def bigEndian : Nat → Nat → List UInt8
  | 0, _ => []
  | w + 1, n => UInt8.ofNat (n / 256 ^ w) :: bigEndian w n

namespace BigEndian

def value : List UInt8 → Nat
  | [] => 0
  | b :: bytes => b.toNat * 256 ^ bytes.length + value bytes

@[simp] theorem length_bigEndian (w n : Nat) : (bigEndian w n).length = w := by
  induction w with
  | zero => rfl
  | succ w ih => simp [bigEndian, ih]

theorem value_bigEndian (w n : Nat) : value (bigEndian w n) = n % 256 ^ w := by
  induction w with
  | zero => simp [bigEndian, value, Nat.mod_one]
  | succ w ih =>
      have hbyte : (UInt8.ofNat (n / 256 ^ w)).toNat = n / 256 ^ w % 256 := UInt8.toNat_ofNat'
      rw [bigEndian, value, length_bigEndian, ih, hbyte, pow_succ, Nat.mod_mul]
      ring

theorem value_bigEndian_of_lt {w n : Nat} (h : n < 256 ^ w) : value (bigEndian w n) = n := by
  rw [value_bigEndian, Nat.mod_eq_of_lt h]

theorem value_lt (bytes : List UInt8) : value bytes < 256 ^ bytes.length := by
  induction bytes with
  | nil => simp [value]
  | cons b bytes ih =>
      have hb : b.toNat + 1 ≤ 256 := b.toNat_lt
      calc value (b :: bytes) < b.toNat * 256 ^ bytes.length + 256 ^ bytes.length :=
            Nat.add_lt_add_left ih _
        _ = (b.toNat + 1) * 256 ^ bytes.length := by ring
        _ ≤ 256 * 256 ^ bytes.length := Nat.mul_le_mul_right _ hb
        _ = 256 ^ (b :: bytes).length := by rw [List.length_cons, pow_succ, Nat.mul_comm]

theorem value_append (xs ys : List UInt8) :
    value (xs ++ ys) = value xs * 256 ^ ys.length + value ys := by
  induction xs with
  | nil => simp [value]
  | cons b xs ih =>
      rw [List.cons_append, value, ih, List.length_append, pow_add, value]
      ring

/-- Nothing but ones. -/
theorem value_ones (w : Nat) : value (List.replicate w 0xFF) + 1 = 256 ^ w := by
  induction w with
  | zero => rfl
  | succ w ih =>
      have hff : (0xFF : UInt8).toNat = 255 := rfl
      rw [List.replicate_succ, value, List.length_replicate, hff, pow_succ, ← ih]
      ring

/-- Without its last bytes. -/
theorem value_take (bytes : List UInt8) (k : Nat) :
    value (bytes.take k) = value bytes / 256 ^ (bytes.length - k) := by
  have hsplit : value (bytes.take k ++ bytes.drop k) = value bytes := by
    rw [List.take_append_drop]
  have hlt : value (bytes.drop k) < 256 ^ (bytes.length - k) := by
    rw [← List.length_drop]
    exact value_lt _
  rw [value_append, List.length_drop] at hsplit
  rw [← hsplit, Nat.add_comm, Nat.add_mul_div_right _ _ (Nat.pow_pos (by decide)),
    Nat.div_eq_of_lt hlt, Nat.zero_add]

/-- With ones in the place of its last bytes. -/
theorem value_filled (w n k : Nat) (hn : n < 256 ^ w) :
    value ((bigEndian w n).take k ++ List.replicate (w - k) 0xFF) + 1 =
      (n / 256 ^ (w - k) + 1) * 256 ^ (w - k) := by
  rw [value_append, value_take, length_bigEndian,
    value_bigEndian_of_lt hn, List.length_replicate, Nat.add_assoc, value_ones]
  ring

end BigEndian

end OpenVpnAndroid
