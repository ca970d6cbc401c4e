/-
  OpenVpnAndroid/Radix64.lean
  ===========================
  **Bytes as digits of base 64.**

  Three bytes are one number of 24 bits and so are four digits.  `encode` writes
  the digits in an alphabet and fills the last group up with a pad; a group is read
  back by `byteAt` from the number that its digits make (`join`).  An implementation
  that computes with masks and shifts is compared with these two numbers
  (`digitAt_group`, `join_digits`).
-/
import Mathlib

namespace OpenVpnAndroid

namespace Radix64

/-! ### One group -/

/-- The number of three bytes. -/
def group (a b c : UInt8) : Nat := a.toNat * 2 ^ 16 + b.toNat * 2 ^ 8 + c.toNat

/-- The number of four digits. -/
def join (d₃ d₂ d₁ d₀ : Nat) : Nat := d₃ * 2 ^ 18 + d₂ * 2 ^ 12 + d₁ * 2 ^ 6 + d₀

/-- The digit of `64 ^ k`. -/
def digitAt (k n : Nat) : Fin 64 := ⟨n / 64 ^ k % 64, Nat.mod_lt _ (by decide)⟩

/-- The byte of `256 ^ k`. -/
def byteAt (k n : Nat) : UInt8 := UInt8.ofNat (n / 256 ^ k)

theorem group_lt (a b c : UInt8) : group a b c < 2 ^ 24 := by
  have ha := a.toNat_lt
  have hb := b.toNat_lt
  have hc := c.toNat_lt
  unfold group
  omega

theorem join_digits {n : Nat} (h : n < 2 ^ 24) :
    join (digitAt 3 n) (digitAt 2 n) (digitAt 1 n) (digitAt 0 n) = n := by
  simp only [join, digitAt]
  omega

@[simp] theorem byteAt_two_group (a b c : UInt8) : byteAt 2 (group a b c) = a := by
  have hb := b.toNat_lt
  have hc := c.toNat_lt
  have hn : group a b c / 256 ^ 2 = a.toNat := by unfold group; omega
  rw [byteAt, hn, UInt8.ofNat_toNat]

@[simp] theorem byteAt_one_group (a b c : UInt8) : byteAt 1 (group a b c) = b := by
  have hb := b.toNat_lt
  have hc := c.toNat_lt
  apply UInt8.toNat.inj
  rw [byteAt, UInt8.toNat_ofNat']
  unfold group
  omega

@[simp] theorem byteAt_zero_group (a b c : UInt8) : byteAt 0 (group a b c) = c := by
  have hc := c.toNat_lt
  apply UInt8.toNat.inj
  rw [byteAt, UInt8.toNat_ofNat']
  unfold group
  omega

/-! ### The shifts of an implementation -/

/-- Bits that do not overlap add up. -/
theorem shiftLeft_or {a b k : Nat} (h : b < 2 ^ k) : a <<< k ||| b = a * 2 ^ k + b := by
  rw [← Nat.shiftLeft_add_eq_or_of_lt h, Nat.shiftLeft_eq]

theorem and_63 (n : Nat) : n &&& 0x3f = n % 64 := Nat.and_two_pow_sub_one_eq_mod n 6

/-- The four digits as they are cut out of three bytes. -/
theorem digitAt_group (a b c : UInt8) :
    (digitAt 3 (group a b c) : Nat) = (a.toNat >>> 2) &&& 0x3f ∧
    (digitAt 2 (group a b c) : Nat) = ((a.toNat <<< 4) ||| (b.toNat >>> 4)) &&& 0x3f ∧
    (digitAt 1 (group a b c) : Nat) = ((b.toNat <<< 2) ||| (c.toNat >>> 6)) &&& 0x3f ∧
    (digitAt 0 (group a b c) : Nat) = c.toNat &&& 0x3f := by
  have ha := a.toNat_lt
  have hb := b.toNat_lt
  have hc := c.toNat_lt
  have hb4 : b.toNat >>> 4 < 2 ^ 4 := by rw [Nat.shiftRight_eq_div_pow]; omega
  have hc6 : c.toNat >>> 6 < 2 ^ 2 := by rw [Nat.shiftRight_eq_div_pow]; omega
  rw [shiftLeft_or hb4, shiftLeft_or hc6, and_63, and_63, and_63, and_63,
    Nat.shiftRight_eq_div_pow, Nat.shiftRight_eq_div_pow, Nat.shiftRight_eq_div_pow]
  simp only [digitAt, group]
  omega

/-- The three bytes as they are put together from four digits. -/
theorem byteAt_join (d₃ : Nat) {d₂ d₁ d₀ : Nat} (h₂ : d₂ < 64) (h₁ : d₁ < 64) (h₀ : d₀ < 64) :
    byteAt 2 (join d₃ d₂ d₁ d₀) = UInt8.ofNat ((d₃ <<< 2) ||| (d₂ >>> 4)) ∧
    byteAt 1 (join d₃ d₂ d₁ d₀) = UInt8.ofNat ((d₂ <<< 4) ||| (d₁ >>> 2)) ∧
    byteAt 0 (join d₃ d₂ d₁ d₀) = UInt8.ofNat ((d₁ <<< 6) ||| d₀) := by
  have h₂' : d₂ >>> 4 < 2 ^ 2 := by rw [Nat.shiftRight_eq_div_pow]; omega
  have h₁' : d₁ >>> 2 < 2 ^ 4 := by rw [Nat.shiftRight_eq_div_pow]; omega
  rw [shiftLeft_or h₂', shiftLeft_or h₁', shiftLeft_or (show d₀ < 2 ^ 6 from h₀),
    Nat.shiftRight_eq_div_pow, Nat.shiftRight_eq_div_pow]
  refine ⟨?_, ?_, ?_⟩ <;>
    · apply UInt8.toNat.inj
      rw [byteAt, UInt8.toNat_ofNat', UInt8.toNat_ofNat']
      unfold join
      omega

/-! ### A text of digits -/

/-- Symbols for the digits and one for the places that no byte fills. -/
structure Alphabet (γ : Type*) where
  symbol : Fin 64 → γ
  pad : γ
  symbol_injective : Function.Injective symbol
  symbol_ne_pad : ∀ d, symbol d ≠ pad

variable {γ : Type*} (A : Alphabet γ)

def encode : List UInt8 → List γ
  | [] => []
  | [a] => [A.symbol (digitAt 3 (group a 0 0)), A.symbol (digitAt 2 (group a 0 0)), A.pad, A.pad]
  | [a, b] =>
      [A.symbol (digitAt 3 (group a b 0)), A.symbol (digitAt 2 (group a b 0)),
        A.symbol (digitAt 1 (group a b 0)), A.pad]
  | a :: b :: c :: bytes =>
      A.symbol (digitAt 3 (group a b c)) :: A.symbol (digitAt 2 (group a b c)) ::
        A.symbol (digitAt 1 (group a b c)) :: A.symbol (digitAt 0 (group a b c)) :: encode bytes

@[simp] theorem encode_nil : encode A [] = [] := rfl

/-- Along the groups of three bytes. -/
theorem groups_induction {P : List UInt8 → Prop} (nil : P []) (one : ∀ a, P [a])
    (two : ∀ a b, P [a, b]) (three : ∀ a b c bytes, P bytes → P (a :: b :: c :: bytes)) :
    ∀ bytes, P bytes
  | [] => nil
  | [a] => one a
  | [a, b] => two a b
  | a :: b :: c :: bytes => three a b c bytes (groups_induction nil one two three bytes)

@[simp] theorem length_encode (bytes : List UInt8) :
    (encode A bytes).length = (bytes.length + 2) / 3 * 4 := by
  induction bytes using groups_induction with
  | nil => rfl
  | one a => simp [encode]
  | two a b => simp [encode]
  | three a b c bytes ih =>
      simp only [encode, List.length_cons, ih]
      omega

theorem encode_append {xs : List UInt8} (h : 3 ∣ xs.length) (ys : List UInt8) :
    encode A (xs ++ ys) = encode A xs ++ encode A ys := by
  induction xs using groups_induction with
  | nil => rfl
  | one a => simp at h
  | two a b => simp [Nat.dvd_iff_mod_eq_zero] at h
  | three a b c bytes ih =>
      have hbytes : 3 ∣ bytes.length := by
        rw [List.length_cons, List.length_cons, List.length_cons] at h
        omega
      rw [List.cons_append, List.cons_append, List.cons_append, encode, encode, ih hbytes]
      rfl

theorem mem_encode {x : γ} {bytes : List UInt8} (hx : x ∈ encode A bytes) :
    (∃ d, x = A.symbol d) ∨ x = A.pad := by
  induction bytes using groups_induction with
  | nil => cases hx
  | one a =>
      rcases List.mem_cons.mp hx with rfl | hx
      · exact .inl ⟨_, rfl⟩
      rcases List.mem_cons.mp hx with rfl | hx
      · exact .inl ⟨_, rfl⟩
      exact .inr (by simpa using hx)
  | two a b =>
      simp only [encode, List.mem_cons, List.not_mem_nil, or_false] at hx
      rcases hx with rfl | rfl | rfl | rfl
      · exact .inl ⟨_, rfl⟩
      · exact .inl ⟨_, rfl⟩
      · exact .inl ⟨_, rfl⟩
      · exact .inr rfl
  | three a b c bytes ih =>
      simp only [encode, List.mem_cons] at hx
      rcases hx with rfl | rfl | rfl | rfl | hx
      · exact .inl ⟨_, rfl⟩
      · exact .inl ⟨_, rfl⟩
      · exact .inl ⟨_, rfl⟩
      · exact .inl ⟨_, rfl⟩
      · exact ih hx

/-- The whole groups and what is left of the bytes. -/
theorem exists_groups {bytes : List UInt8} (h : bytes ≠ []) :
    ∃ xs last, bytes = xs ++ last ∧ 3 ∣ xs.length ∧ last ≠ [] ∧ last.length ≤ 3 := by
  induction bytes using groups_induction with
  | nil => exact absurd rfl h
  | one a => exact ⟨[], [a], rfl, ⟨0, rfl⟩, by simp, by simp⟩
  | two a b => exact ⟨[], [a, b], rfl, ⟨0, rfl⟩, by simp, by simp⟩
  | three a b c bytes ih =>
      by_cases hbytes : bytes = []
      · subst hbytes
        exact ⟨[], [a, b, c], rfl, ⟨0, rfl⟩, by simp, by simp⟩
      · obtain ⟨xs, last, rfl, hxs, hlast, hle⟩ := ih hbytes
        refine ⟨a :: b :: c :: xs, last, rfl, ?_, hlast, hle⟩
        rw [List.length_cons, List.length_cons, List.length_cons]
        omega

end Radix64

end OpenVpnAndroid
