/-
  OpenVpnAndroid/NetworkBlock.lean
  ================================
  **Networks as aligned blocks of addresses.**

  The loops over the bits of `getMaskedAddress` compute the ends of the block of
  `2 ^ numBits` addresses around `netAddress`.  Two blocks of one family that
  meet are nested, and `split` cuts a block into its two halves.
-/
import OpenVpnAndroid.NetworkSpace

namespace OpenVpnAndroid

/-! ### The bits of an address -/

theorem testBit_mul_two_pow_add (q r i : Nat) (hr : r < 2 ^ i) :
    (q * 2 ^ i + r).testBit i = decide (q % 2 = 1) := by
  rw [Nat.testBit_eq_decide_div_mod_eq, Nat.mul_comm, Nat.mul_add_div (Nat.two_pow_pos i),
    Nat.div_eq_of_lt hr, Nat.add_zero]

theorem two_pow_succ_div (a i : Nat) : a / 2 ^ (i + 1) = a / 2 ^ i / 2 := by
  rw [Nat.div_div_eq_div_mul, pow_succ]

theorem clearBit_mul (q i : Nat) : clearBit (q * 2 ^ i) i = q / 2 * 2 ^ (i + 1) := by
  have hbit := testBit_mul_two_pow_add q 0 i (Nat.two_pow_pos i)
  rw [Nat.add_zero] at hbit
  have hdiv := Nat.div_add_mod q 2
  rw [clearBit, hbit]
  rcases Nat.mod_two_eq_zero_or_one q with h | h
  · rw [if_neg (by simp [h])]
    conv_lhs => rw [← hdiv, h]
    ring
  · rw [if_pos (by simp [h])]
    conv_lhs => rw [← hdiv, h]
    have : (2 * (q / 2) + 1) * 2 ^ i = q / 2 * 2 ^ (i + 1) + 2 ^ i := by ring
    omega

theorem setBit_mul (q i : Nat) :
    setBit (q * 2 ^ i + (2 ^ i - 1)) i = q / 2 * 2 ^ (i + 1) + (2 ^ (i + 1) - 1) := by
  have hpos := Nat.two_pow_pos i
  have hbit := testBit_mul_two_pow_add q (2 ^ i - 1) i (by omega)
  have hdiv := Nat.div_add_mod q 2
  have hpow : 2 ^ (i + 1) = 2 ^ i + 2 ^ i := by ring
  rw [setBit, hbit]
  rcases Nat.mod_two_eq_zero_or_one q with h | h
  · rw [if_neg (by simp [h])]
    conv_lhs => rw [← hdiv, h]
    have : (2 * (q / 2) + 0) * 2 ^ i = q / 2 * 2 ^ (i + 1) := by ring
    omega
  · rw [if_pos (by simp [h])]
    conv_lhs => rw [← hdiv, h]
    have : (2 * (q / 2) + 1) * 2 ^ i = q / 2 * 2 ^ (i + 1) + 2 ^ i := by ring
    omega

namespace IpAddress

variable {isV4 : Bool} {n m : IpAddress} {a : Nat}

/-- The number of the block, counted from the address 0. -/
def block (n : IpAddress) : Nat := n.netAddress / 2 ^ n.numBits

theorem getFirstAddress_eq (n : IpAddress) : n.getFirstAddress = n.block * 2 ^ n.numBits := by
  have hloop : ∀ k, (List.range k).foldl (fun numAddress i => clearBit numAddress i) n.netAddress =
      n.netAddress / 2 ^ k * 2 ^ k := by
    intro k
    induction k with
    | zero => simp
    | succ k ih => rw [List.range_succ, List.foldl_append, ih, List.foldl_cons, List.foldl_nil,
        clearBit_mul, two_pow_succ_div]
  exact hloop n.numBits

theorem getLastAddress_eq (n : IpAddress) :
    n.getLastAddress = n.block * 2 ^ n.numBits + (2 ^ n.numBits - 1) := by
  have hloop : ∀ k, (List.range k).foldl (fun numAddress i => setBit numAddress i) n.netAddress =
      n.netAddress / 2 ^ k * 2 ^ k + (2 ^ k - 1) := by
    intro k
    induction k with
    | zero => simp
    | succ k ih => rw [List.range_succ, List.foldl_append, ih, List.foldl_cons, List.foldl_nil,
        setBit_mul, two_pow_succ_div]
  exact hloop n.numBits

theorem getLastAddress_succ (n : IpAddress) :
    n.getLastAddress + 1 = n.getFirstAddress + 2 ^ n.numBits := by
  have := Nat.two_pow_pos n.numBits
  rw [getLastAddress_eq, getFirstAddress_eq]
  omega

theorem contains_iff : n.Contains a ↔ a / 2 ^ n.numBits = n.block := by
  rw [Contains, getFirstAddress_eq, getLastAddress_eq, Nat.div_eq_iff (Nat.two_pow_pos _)]
  have := Nat.two_pow_pos n.numBits
  omega

theorem contains_getFirstAddress (n : IpAddress) : n.Contains n.getFirstAddress := by
  have := Nat.two_pow_pos n.numBits
  have := n.getLastAddress_succ
  constructor <;> omega

theorem contains_getLastAddress (n : IpAddress) : n.Contains n.getLastAddress := by
  have := Nat.two_pow_pos n.numBits
  have := n.getLastAddress_succ
  constructor <;> omega

/-! ### Nested blocks -/

/-- A network of the family with a prefix length that the family allows. -/
structure Valid (isV4 : Bool) (n : IpAddress) : Prop where
  family : n.isV4 = isV4
  networkMask_le : n.networkMask ≤ addressBits isV4

theorem Valid.numBits_add (hn : n.Valid isV4) :
    n.numBits + n.networkMask = addressBits isV4 := by
  have := hn.networkMask_le
  rw [numBits, hn.family]
  omega

/-- Of two networks that share an address the one with the longer prefix lies in
    the other. -/
theorem Contains.nested_of {x : Nat} (hx : n.Contains x) (hn : n.Valid isV4) (hm : m.Valid isV4)
    (hmask : m.networkMask ≤ n.networkMask) (hna : n.Contains a) (hma : m.Contains a) :
    m.Contains x := by
  have hk : m.numBits = n.numBits + (n.networkMask - m.networkMask) := by
    have := hn.numBits_add
    have := hm.numBits_add
    omega
  rw [contains_iff] at hna hma hx ⊢
  rw [← hma, hk, pow_add, ← Nat.div_div_eq_div_mul, ← Nat.div_div_eq_div_mul, hx, hna]

theorem Contains.nested_ends (hn : n.Valid isV4) (hm : m.Valid isV4)
    (hmask : m.networkMask ≤ n.networkMask) (hna : n.Contains a) (hma : m.Contains a) :
    m.getFirstAddress ≤ n.getFirstAddress ∧ n.getLastAddress ≤ m.getLastAddress :=
  ⟨(n.contains_getFirstAddress.nested_of hn hm hmask hna hma).1,
    (n.contains_getLastAddress.nested_of hn hm hmask hna hma).2⟩

theorem equals_iff :
    n.equals m = true ↔
      n.networkMask = m.networkMask ∧ n.getFirstAddress = m.getFirstAddress := by
  rw [equals, Bool.and_eq_true, beq_iff_eq, beq_iff_eq]
  exact and_congr_right' eq_comm

/-- Networks of one prefix length that share an address are the same network. -/
theorem Contains.equals (hn : n.Valid isV4) (hm : m.Valid isV4)
    (hmask : n.networkMask = m.networkMask) (hna : n.Contains a) (hma : m.Contains a) :
    n.equals m = true := by
  have h := (hna.nested_ends hn hm hmask.ge hma).1
  have h' := (hma.nested_ends hm hn hmask.le hna).1
  exact equals_iff.mpr ⟨hmask, Nat.le_antisymm h' h⟩

theorem contains_of_equals (hn : n.Valid isV4) (hm : m.Valid isV4) (h : n.equals m = true) :
    n.Contains a ↔ m.Contains a := by
  obtain ⟨hmask, hfirst⟩ := equals_iff.mp h
  have hk : n.numBits = m.numBits := by
    have := hn.numBits_add
    have := hm.numBits_add
    omega
  have hn1 := n.getLastAddress_succ
  have hm1 := m.getLastAddress_succ
  rw [hk] at hn1
  rw [Contains, Contains]
  omega

/-! ### The order -/

theorem le_iff :
    n.le m ↔ n.getFirstAddress < m.getFirstAddress ∨
      (n.getFirstAddress = m.getFirstAddress ∧ m.networkMask ≤ n.networkMask) := by
  rw [le, compareTo]
  split_ifs <;> simp <;> omega

theorem compareTo_eq_iff :
    n.compareTo m = .eq ↔
      n.getFirstAddress = m.getFirstAddress ∧ n.networkMask = m.networkMask := by
  rw [compareTo]
  split_ifs <;> simp <;> omega

theorem compareTo_lt_iff :
    n.compareTo m = .lt ↔ n.getFirstAddress < m.getFirstAddress ∨
      (n.getFirstAddress = m.getFirstAddress ∧ m.networkMask < n.networkMask) := by
  rw [compareTo]
  split_ifs <;> simp <;> omega

/-! ### Halves -/

theorem numBits_halves (n : IpAddress) :
    n.split.1.numBits = n.numBits - 1 ∧ n.split.2.numBits = n.numBits - 1 := by
  simp only [split, numBits]
  omega

/-- The halves of a single address are that address and the next one. -/
theorem getFirstAddress_halves (n : IpAddress) :
    n.split.1.getFirstAddress = n.getFirstAddress ∧
      n.split.2.getFirstAddress = n.getFirstAddress + 2 ^ (n.numBits - 1) := by
  obtain ⟨hk1, hk2⟩ := n.numBits_halves
  have hdvd : 2 ^ (n.numBits - 1) ∣ n.getFirstAddress := by
    rw [getFirstAddress_eq]
    exact Dvd.dvd.mul_left (Nat.pow_dvd_pow 2 (Nat.sub_le _ 1)) _
  have h1 : n.split.1.getFirstAddress = n.getFirstAddress := by
    rw [getFirstAddress_eq n.split.1, block, hk1]
    exact Nat.div_mul_cancel hdvd
  refine ⟨h1, ?_⟩
  have hlast := n.split.1.getLastAddress_succ
  rw [h1, hk1] at hlast
  rw [getFirstAddress_eq n.split.2, block, hk2]
  change (n.split.1.getLastAddress + 1) / _ * _ = _
  rw [hlast]
  exact Nat.div_mul_cancel (Nat.dvd_add hdvd (Nat.dvd_refl _))

section Split

variable (hn : n.Valid isV4) (hlt : n.networkMask < addressBits isV4)
include hn hlt

theorem numBits_split :
    n.split.1.numBits + 1 = n.numBits ∧ n.split.2.numBits + 1 = n.numBits := by
  have := hn.numBits_add
  have := n.numBits_halves
  omega

theorem split_first :
    n.split.1.getFirstAddress = n.getFirstAddress ∧
      n.split.2.getFirstAddress = n.getFirstAddress + 2 ^ n.split.1.numBits := by
  obtain ⟨hk, -⟩ := n.numBits_split hn hlt
  rw [show n.split.1.numBits = n.numBits - 1 by omega]
  exact n.getFirstAddress_halves

theorem contains_split :
    n.Contains a ↔ n.split.1.Contains a ∨ n.split.2.Contains a := by
  obtain ⟨hk, hk'⟩ := n.numBits_split hn hlt
  obtain ⟨h1, h2⟩ := n.split_first hn hlt
  have heq : n.split.2.numBits = n.split.1.numBits := by omega
  have hpow : 2 ^ n.numBits = 2 ^ n.split.1.numBits * 2 := by rw [← hk, pow_succ]
  have hl := n.getLastAddress_succ
  have hl1 := n.split.1.getLastAddress_succ
  have hl2 := n.split.2.getLastAddress_succ
  rw [heq] at hl2
  simp only [Contains]
  omega

theorem valid_split : n.split.1.Valid isV4 ∧ n.split.2.Valid isV4 :=
  ⟨⟨hn.family, hlt⟩, ⟨hn.family, hlt⟩⟩

end Split

end IpAddress

end OpenVpnAndroid
