/-
  OpenVpnAndroid/Ipv6Text.lean
  ============================
  **When the text of an IPv6 address is one.**

  `getIPv6Address` writes the groups of an address from the last one on and leaves
  out the zeros at its end, for which it writes two colons.  It stops when nothing
  but zeros is left, so groups of zeros at the front are not there either, and nothing
  stands for them: `::1` becomes `1`.  So the text is that of the address exactly
  if the first group is not 0, or no group is.
-/
import OpenVpnAndroid.Ipv6
import OpenVpnAndroid.TunConfigText

namespace OpenVpnAndroid

namespace TunRoute

open Ipv6

theorem groups_eq (r : Nat) : groups r = (groupsOf r).flatMap fun g => writeGroup g ++ [':'] := by
  induction r using Nat.strongRecOn with
  | ind r ih =>
      by_cases hr : r = 0
      · rw [hr, groups_zero]
        rfl
      · have hlt : r / 0x10000 < r := Nat.div_lt_self (by omega) (by decide)
        rw [groups_of_ne hr, groupsOf_of_ne hr, List.flatMap_append, ih _ hlt]
        simp [hex, writeGroup]

theorem flatMap_append_hex (gs : List Nat) (g : Nat) :
    gs.flatMap (fun g => writeGroup g ++ [':']) ++ hex g = joined (gs ++ [g]) := by
  induction gs with
  | nil => rfl
  | cons g' gs ih =>
      obtain ⟨first, rest, hrest⟩ := List.exists_cons_of_ne_nil (l := gs ++ [g]) (by simp)
      rw [List.flatMap_cons, List.append_assoc, ih, List.cons_append, hrest, joined_cons]
      simp

/-- The groups and the last one without its colon. -/
theorem groups_append_hex {a : Nat} (h : a ≠ 0) :
    groups (a / 0x10000) ++ hex (a % 0x10000) = joined (groupsOf a) := by
  rw [groups_eq, flatMap_append_hex, ← groupsOf_of_ne h]

/-- A text of groups stands for the address if there are eight. -/
theorem parse_groups {a : Nat} (h : a < 2 ^ 128) (hne : a ≠ 0) :
    parse (joined (groupsOf a)) = some (BitVec.ofNat 128 a) ↔ 2 ^ 112 ≤ a := by
  have hle : (groupsOf a).length ≤ 8 := length_groupsOf_le_iff.mpr h
  have hseven : (groupsOf a).length ≤ 7 ↔ a < 2 ^ 112 := length_groupsOf_le_iff
  have hvalue : ofGroups (groupsOf a) = BitVec.ofNat 128 a := by
    simpa using ofGroups_groupsOf_replicate a 0
  rw [parse_joined (groupsOf_ne_nil hne) fun g hg => lt_of_mem_groupsOf hg, hvalue]
  by_cases hlength : (groupsOf a).length = 8
  · rw [if_pos hlength]
    exact iff_of_true rfl (by omega)
  · rw [if_neg hlength]
    exact iff_of_false (fun h => nomatch h) (by omega)

/-- How many groups there are, in powers of the base. -/
theorem groupsOf_bounds {q : Nat} (hne : q ≠ 0) :
    ∃ n, (groupsOf q).length = n + 1 ∧ BASE ^ n ≤ q ∧ q < BASE ^ (n + 1) := by
  obtain ⟨n, hn⟩ := Nat.exists_eq_succ_of_ne_zero
    (Nat.ne_of_gt (List.length_pos_iff.mpr (groupsOf_ne_nil hne)))
  refine ⟨n, hn, Nat.le_of_not_lt fun hlt => ?_, length_groupsOf_le_iff.mp (Nat.le_of_eq hn)⟩
  have hle : (groupsOf q).length ≤ n := length_groupsOf_le_iff.mpr hlt
  omega

theorem lt_of_pow_le_of_lt {m n x : Nat} (hm : BASE ^ m ≤ x) (hn : x < BASE ^ n) : m < n :=
  (Nat.pow_lt_pow_iff_right (by decide)).mp (Nat.lt_of_le_of_lt hm hn)

/-- A gap behind the groups stands for the zeros of the address if there are eight groups
    with them. -/
theorem parse_groups_gap {q k : Nat} (h : q * BASE ^ (k + 1) < 2 ^ 128) (hne : q ≠ 0) :
    parse (joined (groupsOf q) ++ [':', ':']) = some (BitVec.ofNat 128 (q * BASE ^ (k + 1))) ↔
      2 ^ 112 ≤ q * BASE ^ (k + 1) := by
  obtain ⟨n, hn, hlow, hhigh⟩ := groupsOf_bounds hne
  have hpos : 0 < BASE ^ (k + 1) := Nat.pow_pos (by decide)
  have hfrom : BASE ^ (n + (k + 1)) ≤ q * BASE ^ (k + 1) := by
    rw [Nat.pow_add]
    exact Nat.mul_le_mul_right _ hlow
  have hto : q * BASE ^ (k + 1) < BASE ^ (n + 1 + (k + 1)) := by
    rw [Nat.pow_add BASE (n + 1)]
    exact Nat.mul_lt_mul_of_pos_right hhigh hpos
  have height : n + (k + 1) < 8 := lt_of_pow_le_of_lt hfrom h
  have hcount : 2 ^ 112 ≤ q * BASE ^ (k + 1) ↔ n + (k + 1) = 7 := by
    constructor
    · intro hle
      have hseven : 7 < n + 1 + (k + 1) := lt_of_pow_le_of_lt hle hto
      omega
    · intro heq
      rwa [heq] at hfrom
  have hread : q * BASE ^ (7 - n) < 2 ^ 128 := by
    have hlt : q * BASE ^ (7 - n) < BASE ^ (n + 1) * BASE ^ (7 - n) :=
      Nat.mul_lt_mul_of_pos_right hhigh (Nat.pow_pos (by decide))
    rwa [← Nat.pow_add, show n + 1 + (7 - n) = 8 by omega] at hlt
  rw [parse_joined_gap (groupsOf_ne_nil hne) fun g hg => lt_of_mem_groupsOf hg, hn,
    if_pos (by omega), ofGroups_groupsOf_replicate, show 8 - (n + 1) = 7 - n by omega, hcount,
    Option.some.injEq]
  constructor
  · intro heq
    have hsame := congrArg BitVec.toNat heq
    rw [BitVec.toNat_ofNat, BitVec.toNat_ofNat, Nat.mod_eq_of_lt hread, Nat.mod_eq_of_lt h] at hsame
    have hpow := Nat.pow_right_injective (by decide)
      (Nat.eq_of_mul_eq_mul_left (Nat.pos_of_ne_zero hne) hsame)
    omega
  · intro heq
    rw [show 7 - n = k + 1 by omega]

/-- An address is read back from its text if and only if its first group is not 0, or it
    is 0 itself. -/
theorem parse_getIPv6Address_iff (v : BitVec 128) :
    parse (getIPv6Address v.toNat) = some v ↔ v = 0 ∨ 2 ^ 112 ≤ v.toNat := by
  obtain ⟨a, ha⟩ : ∃ a, v.toNat = a := ⟨_, rfl⟩
  have hv : v = BitVec.ofNat 128 a := by rw [← ha, BitVec.ofNat_toNat, BitVec.setWidth_eq]
  have hlt : a < 2 ^ 128 := ha ▸ v.isLt
  have hzero : v = 0 ↔ a = 0 := by
    rw [← ha]
    exact BitVec.toNat_eq
  rw [ha, hzero]
  rcases getIPv6Address_cases a with ⟨rfl, ht⟩ | ⟨hpart, ht⟩ | ⟨q, k, rfl, hq, ht⟩
  · rw [ht, hv]
    decide
  · have hne : a ≠ 0 := by
      rintro rfl
      exact hpart rfl
    rw [ht, groups_append_hex hne, hv, parse_groups hlt hne, or_iff_right hne]
  · have hne : q ≠ 0 := by
      rintro rfl
      exact hq rfl
    have htext : groups q ++ [':'] = joined (groupsOf q) ++ [':', ':'] := by
      rw [groups_of_ne hne, groups_append_hex hne, List.append_assoc]
      rfl
    have hnot : q * 0x10000 ^ (k + 1) ≠ 0 :=
      Nat.mul_ne_zero hne (Nat.ne_of_gt (Nat.pow_pos (by decide)))
    rw [ht, htext, hv, parse_groups_gap hlt hne, or_iff_right hnot]

/-- The loopback address `::1`. -/
theorem not_parse_getIPv6Address :
    ¬ ∀ v : BitVec 128, parse (getIPv6Address v.toNat) = some v := by
  intro h
  have hone := h 1
  have htext : getIPv6Address (1 : BitVec 128).toNat = ['1'] := by
    rw [getIPv6Address]
    simp [ipv6Loop, hex]
    rfl
  rw [htext] at hone
  exact absurd hone (by decide)

end TunRoute

end OpenVpnAndroid
