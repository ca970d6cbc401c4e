/-
  OpenVpnAndroid/TunConfigText.lean
  =================================
  **When the text of a tun configuration determines it.**

  The texts of IPv4 routes do, and those of IPv6 routes for addresses that
  `getIPv6Address` writes in a readable way.  An IPv4 part and the IPv6 part
  behind it are told apart by the characters that only one of them contains, as
  long as no digit could belong to both (`Apart`).
-/
import OpenVpnAndroid.TunConfig

namespace OpenVpnAndroid

namespace TunRoute

/-! ### IPv4 addresses -/

/-- The characters in a text of dotted numbers. -/
def dottedCharacters : Text := "-0123456789."

theorem decimal_subset_dotted (n : Int) : decimal n ⊆ dottedCharacters :=
  List.Subset.trans (decimal_subset n) (by decide)

theorem dot_notMem_decimal (n : Int) : '.' ∉ decimal n :=
  notMem_of_subset (decimal_subset n) (by decide)

theorem getIPv4Address_subset (ip : Int) : getIPv4Address ip ⊆ dottedCharacters := by
  have hdot : '.' ∈ dottedCharacters := by decide
  rw [getIPv4Address]
  apply List.append_subset.mpr ⟨decimal_subset_dotted _, List.cons_subset.mpr ⟨hdot, ?_⟩⟩
  apply List.append_subset.mpr ⟨decimal_subset_dotted _, List.cons_subset.mpr ⟨hdot, ?_⟩⟩
  apply List.append_subset.mpr ⟨decimal_subset_dotted _, List.cons_subset.mpr ⟨hdot, ?_⟩⟩
  exact decimal_subset_dotted _

theorem getIPv4Address_eq (ip : Int) :
    ∃ u, getIPv4Address ip = u ++ '.' :: decimal (ip.tmod 256) := by
  refine ⟨decimal ((ip / 2 ^ 24).tmod 256) ++ '.' :: (decimal ((ip / 2 ^ 16).tmod 256)
    ++ '.' :: decimal ((ip / 2 ^ 8).tmod 256)), ?_⟩
  simp only [getIPv4Address, List.append_assoc, List.cons_append]

theorem getIPv4Address_injective {a b : Int} (ha : 0 ≤ a ∧ a < 2 ^ 32) (hb : 0 ≤ b ∧ b < 2 ^ 32)
    (h : getIPv4Address a = getIPv4Address b) : a = b := by
  rw [getIPv4Address, getIPv4Address] at h
  obtain ⟨h₁, h⟩ := split_at_first (dot_notMem_decimal _) (dot_notMem_decimal _) h
  obtain ⟨h₂, h⟩ := split_at_first (dot_notMem_decimal _) (dot_notMem_decimal _) h
  obtain ⟨h₃, h₄⟩ := split_at_first (dot_notMem_decimal _) (dot_notMem_decimal _) h
  have h₁ := decimal_injective h₁
  have h₂ := decimal_injective h₂
  have h₃ := decimal_injective h₃
  have h₄ := decimal_injective h₄
  rw [Int.tmod_eq_emod_of_nonneg (by omega), Int.tmod_eq_emod_of_nonneg (by omega)] at h₁ h₂ h₃ h₄
  omega

/-! ### IPv6 addresses -/

/-- The parts of an address from the first that is not 0, each with its colon. -/
def groups (r : Nat) : Text :=
  if r = 0 then [] else groups (r / 0x10000) ++ (hex (r % 0x10000) ++ [':'])
termination_by r
decreasing_by exact Nat.div_lt_self (by omega) (by decide)

def hexCharacters : Text := "0123456789abcdef"

theorem hex_subset (part : Nat) : hex part ⊆ hexCharacters :=
  toDigits_subset (by decide) (by decide) part

theorem hex_ne_nil (part : Nat) : hex part ≠ [] := Nat.toDigits_ne_nil

theorem colon_notMem_hex (part : Nat) : ':' ∉ hex part :=
  notMem_of_subset (hex_subset part) (by decide)

theorem groups_zero : groups 0 = [] := by
  rw [groups, if_pos rfl]

theorem groups_of_ne {r : Nat} (h : r ≠ 0) :
    groups r = groups (r / 0x10000) ++ hex (r % 0x10000) ++ [':'] := by
  rw [groups, if_neg h, List.append_assoc]

theorem groups_append_colon {r : Nat} (h : r ≠ 0) (t : Text) :
    groups r ++ t = (groups (r / 0x10000) ++ hex (r % 0x10000)) ++ ':' :: t := by
  rw [groups_of_ne h, List.append_assoc]
  rfl

/-- Once a part has been written all parts before it are written. -/
theorem ipv6Loop_some (r : Nat) (t : Text) : ipv6Loop r (some t) false = some (groups r ++ t) := by
  induction r using Nat.strongRecOn generalizing t with
  | ind r ih =>
      by_cases hr : r = 0
      · rw [hr, ipv6Loop, if_pos rfl, groups_zero]
        rfl
      · have hlt : r / 0x10000 < r := Nat.div_lt_self (by omega) (by decide)
        rw [ipv6Loop, if_neg hr, groups_append_colon hr]
        simp only [Option.isSome_some, Bool.true_or, if_true, Option.isNone_some, Bool.false_and,
          Bool.false_eq_true, if_false, orNull, Option.getD_some]
        rw [ih _ hlt, List.append_assoc]

/-- Parts that are 0 are left out at the end. -/
theorem ipv6Loop_none {r : Nat} (hr : r ≠ 0) :
    ∃ q k, r = q * 0x10000 ^ k ∧ q % 0x10000 ≠ 0 ∧
      ipv6Loop r none false = some (groups q ++ [':']) := by
  induction r using Nat.strongRecOn with
  | ind r ih =>
      have hlt : r / 0x10000 < r := Nat.div_lt_self (by omega) (by decide)
      by_cases hpart : r % 0x10000 = 0
      · obtain ⟨q, k, hq, hne, hloop⟩ := ih _ hlt (by omega)
        refine ⟨q, k + 1, ?_, hne, ?_⟩
        · rw [pow_succ, ← mul_assoc, ← hq]
          omega
        · rw [ipv6Loop, if_neg hr]
          simp only [hpart, Option.isSome_none, ne_eq, not_true_eq_false, decide_false,
            Bool.or_false, Bool.false_eq_true, if_false]
          exact hloop
      · refine ⟨r, 0, (Nat.mul_one r).symm, hpart, ?_⟩
        rw [ipv6Loop, if_neg hr, groups_append_colon hr]
        simp only [hpart, Option.isSome_none, ne_eq, not_false_eq_true, decide_true, Bool.or_true,
          if_true, Option.isNone_none, Bool.not_false, Bool.and_true, Bool.false_eq_true, if_false,
          orNull, Option.getD_some]
        rw [ipv6Loop_some, List.append_assoc]

/-- The three shapes of the text of an address. -/
theorem getIPv6Address_cases (a : Nat) :
    (a = 0 ∧ getIPv6Address a = [':', ':']) ∨
      (a % 0x10000 ≠ 0 ∧ getIPv6Address a = groups (a / 0x10000) ++ hex (a % 0x10000)) ∨
      (∃ q k, a = q * 0x10000 ^ (k + 1) ∧ q % 0x10000 ≠ 0 ∧
        getIPv6Address a = groups q ++ [':']) := by
  by_cases ha : a = 0
  · left
    refine ⟨ha, ?_⟩
    rw [ha, getIPv6Address, ipv6Loop]
    rfl
  · right
    by_cases hpart : a % 0x10000 = 0
    · right
      obtain ⟨q, k, hq, hne, hloop⟩ := ipv6Loop_none (r := a / 0x10000) (by omega)
      refine ⟨q, k, ?_, hne, ?_⟩
      · rw [pow_succ, ← mul_assoc, ← hq]
        omega
      · rw [getIPv6Address, Int.toNat_natCast, ipv6Loop, if_neg ha]
        simp only [hpart, Option.isSome_none, ne_eq, not_true_eq_false, decide_false,
          Bool.or_false, Bool.false_eq_true, if_false, hloop, Option.getD_some]
    · left
      refine ⟨hpart, ?_⟩
      rw [getIPv6Address, Int.toNat_natCast, ipv6Loop, if_neg ha]
      simp only [hpart, Option.isSome_none, ne_eq, not_false_eq_true, decide_true, Bool.or_true,
        if_true, ipv6Loop_some, Option.getD_some]

/-- The last part is what stands behind the last colon. -/
theorem groups_hex_injective {x x' y y' : Nat}
    (h : groups x ++ hex y = groups x' ++ hex y') : groups x = groups x' ∧ y = y' := by
  have hhex : ∀ {k l : Nat}, hex k = hex l → k = l := toDigits_injective (by decide) (by decide)
  by_cases hx : x = 0 <;> by_cases hx' : x' = 0
  · rw [hx, hx', groups_zero] at h ⊢
    exact ⟨rfl, hhex h⟩
  · rw [hx, groups_zero, groups_append_colon hx'] at h
    have hmem : ':' ∈ hex y := by
      show ':' ∈ [] ++ hex y
      rw [h]
      exact List.mem_append_right _ List.mem_cons_self
    exact absurd hmem (colon_notMem_hex y)
  · rw [hx', groups_zero, groups_append_colon hx] at h
    have hmem : ':' ∈ hex y' := by
      show ':' ∈ [] ++ hex y'
      rw [← h]
      exact List.mem_append_right _ List.mem_cons_self
    exact absurd hmem (colon_notMem_hex y')
  · rw [groups_append_colon hx, groups_append_colon hx'] at h
    obtain ⟨hgroups, hlast⟩ := split_at_last (colon_notMem_hex y) (colon_notMem_hex y') h
    exact ⟨by rw [groups_of_ne hx, groups_of_ne hx', hgroups], hhex hlast⟩

theorem groups_injective {x x' : Nat} (h : groups x = groups x') : x = x' := by
  induction x using Nat.strongRecOn generalizing x' with
  | ind x ih =>
      by_cases hx : x = 0 <;> by_cases hx' : x' = 0
      · rw [hx, hx']
      · rw [hx, groups_zero, groups_of_ne hx'] at h
        exact absurd h.symm (List.append_ne_nil_of_right_ne_nil _ (List.cons_ne_nil _ _))
      · rw [hx', groups_zero, groups_of_ne hx] at h
        exact absurd h (List.append_ne_nil_of_right_ne_nil _ (List.cons_ne_nil _ _))
      · rw [groups_of_ne hx, groups_of_ne hx'] at h
        obtain ⟨hgroups, hlast⟩ := groups_hex_injective (List.append_inj_left' h rfl)
        have hlt : x / 0x10000 < x := Nat.div_lt_self (by omega) (by decide)
        have hfirst := ih _ hlt hgroups
        omega

/-- The text of the address says how many parts it leaves out: it ends in a part,
    or all eight parts up to the last one that is not 0 are there. -/
def Readable (a : Int) : Prop :=
  0 ≤ a ∧ a < 2 ^ 128 ∧ (a = 0 ∨ a % 0x10000 ≠ 0 ∨ 2 ^ 112 ≤ a)

instance (a : Int) : Decidable (Readable a) := inferInstanceAs (Decidable (_ ∧ _))

/-- Parts that are left out are counted by the size of the address. -/
theorem exponent_unique {q k l : Nat} (hk : 2 ^ 112 ≤ q * 0x10000 ^ k)
    (hl : q * 0x10000 ^ l < 2 ^ 128) : l ≤ k := by
  by_contra hlt
  have hsplit : q * 0x10000 ^ l = q * 0x10000 ^ k * 0x10000 ^ (l - k - 1) * 0x10000 := by
    rw [mul_assoc, mul_assoc, ← pow_succ, ← pow_add]
    congr 2
    omega
  have hone : 1 ≤ 0x10000 ^ (l - k - 1) := Nat.one_le_two_pow.trans (Nat.pow_le_pow_left (by decide) _)
  have hle : q * 0x10000 ^ k ≤ q * 0x10000 ^ k * 0x10000 ^ (l - k - 1) :=
    Nat.le_mul_of_pos_right _ hone
  omega

/-- The text ends in a digit. -/
theorem groups_hex_ne_colon {x y : Nat} {t : Text} : groups x ++ hex y ≠ t ++ [':'] := by
  intro h
  have hlast : (hex y).getLast? = some ':' := by
    have := congrArg List.getLast? h
    rwa [List.getLast?_append_of_ne_nil _ (hex_ne_nil y), List.getLast?_concat] at this
  exact colon_notMem_hex y (List.mem_of_getLast? hlast)

theorem groups_ne_colon {q : Nat} (hq : q % 0x10000 ≠ 0) : groups q ++ [':'] ≠ [':', ':'] := by
  intro h
  rw [groups_of_ne (by omega)] at h
  have hlength := congrArg List.length h
  have hhex : 0 < (hex (q % 0x10000)).length := Nat.length_toDigits_pos
  simp only [List.length_append, List.length_cons, List.length_nil] at hlength
  omega

/-- An address with parts left out ends in a part that is 0, and is readable by its
    size only. -/
theorem le_of_trailing {q k : Nat} (hq : q % 0x10000 ≠ 0)
    (h : Readable (q * 0x10000 ^ (k + 1) : Nat)) : 2 ^ 112 ≤ q * 0x10000 ^ (k + 1) := by
  have hne : q * 0x10000 ^ (k + 1) ≠ 0 :=
    Nat.mul_ne_zero (by omega) (Nat.ne_of_gt (Nat.pow_pos (by decide)))
  have hmod : q * 0x10000 ^ (k + 1) % 0x10000 = 0 := by
    rw [pow_succ, ← mul_assoc]
    exact Nat.mul_mod_left _ _
  rcases h.2.2 with hzero | hpart | hle
  · exact absurd (Int.natCast_eq_zero.mp hzero) hne
  · exact absurd hmod (by omega)
  · omega

theorem getIPv6Address_injective {a b : Int} (ha : Readable a) (hb : Readable b)
    (h : getIPv6Address a = getIPv6Address b) : a = b := by
  obtain ⟨a, rfl⟩ := Int.eq_ofNat_of_zero_le ha.1
  obtain ⟨b, rfl⟩ := Int.eq_ofNat_of_zero_le hb.1
  rcases getIPv6Address_cases a with ⟨hza, ta⟩ | ⟨hra, ta⟩ | ⟨q, k, hqa, hq, ta⟩ <;>
    rcases getIPv6Address_cases b with ⟨hzb, tb⟩ | ⟨hrb, tb⟩ | ⟨q', k', hqb, hq', tb⟩ <;>
    rw [ta, tb] at h
  · rw [hza, hzb]
  · exact absurd h.symm (groups_hex_ne_colon (t := [':']))
  · exact absurd h.symm (groups_ne_colon hq')
  · exact absurd h (groups_hex_ne_colon (t := [':']))
  · obtain ⟨hgroups, hpart⟩ := groups_hex_injective h
    have hquotient := groups_injective hgroups
    omega
  · exact absurd h groups_hex_ne_colon
  · exact absurd h (groups_ne_colon hq)
  · exact absurd h.symm groups_hex_ne_colon
  · obtain rfl : q = q' := groups_injective (List.append_cancel_right h)
    subst hqa hqb
    have hlea := le_of_trailing hq ha
    have hleb := le_of_trailing hq hb
    have hlta := ha.2.1
    have hltb := hb.2.1
    have h₁ : k' + 1 ≤ k + 1 := exponent_unique hlea (by omega)
    have h₂ : k + 1 ≤ k' + 1 := exponent_unique hleb (by omega)
    rw [Nat.le_antisymm h₂ h₁]

/-! ### Routes -/

/-- An IPv4 network with numbers in range. -/
def InRange (n : TunRoute true) : Prop :=
  0 ≤ n.netAddress ∧ n.netAddress < 2 ^ 32 ∧ 0 ≤ n.networkMask ∧ n.networkMask ≤ 32

instance (n : TunRoute true) : Decidable n.InRange := inferInstanceAs (Decidable (_ ∧ _))

def addressCharacters : Text := "-0123456789abcdefABCDEF.:/"

/-- The characters of an IPv6 address. -/
def colonCharacters : Text := "0123456789abcdef:"

/-- The characters of an IPv6 network. -/
def networkCharacters : Text := "-0123456789abcdef:/"

theorem toString_v4 (n : TunRoute true) :
    n.toString = getIPv4Address n.netAddress ++ '/' :: decimal n.networkMask := rfl

theorem toString_v6 (n : TunRoute false) :
    n.toString = getIPv6Address n.netAddress ++ '/' :: decimal n.networkMask := rfl

theorem groups_subset (r : Nat) : groups r ⊆ colonCharacters := by
  induction r using Nat.strongRecOn with
  | ind r ih =>
      by_cases hr : r = 0
      · rw [hr, groups_zero]
        exact List.nil_subset _
      · have hlt : r / 0x10000 < r := Nat.div_lt_self (by omega) (by decide)
        have hhex : hex (r % 0x10000) ⊆ colonCharacters :=
          List.Subset.trans (hex_subset _) (by decide)
        rw [groups_of_ne hr]
        exact List.append_subset.mpr ⟨List.append_subset.mpr ⟨ih _ hlt, hhex⟩, by decide⟩

theorem getIPv6Address_subset {a : Int} (ha : 0 ≤ a) : getIPv6Address a ⊆ colonCharacters := by
  obtain ⟨a, rfl⟩ := Int.eq_ofNat_of_zero_le ha
  rcases getIPv6Address_cases a with ⟨-, ta⟩ | ⟨-, ta⟩ | ⟨q, k, -, -, ta⟩ <;> rw [ta]
  · decide
  · exact List.append_subset.mpr ⟨groups_subset _, List.Subset.trans (hex_subset _) (by decide)⟩
  · exact List.append_subset.mpr ⟨groups_subset _, by decide⟩

theorem toString_v4_subset (n : TunRoute true) : n.toString ⊆ addressCharacters := by
  rw [toString_v4]
  apply List.append_subset.mpr
  exact ⟨List.Subset.trans (getIPv4Address_subset _) (by decide),
    List.cons_subset.mpr ⟨by decide, List.Subset.trans (decimal_subset _) (by decide)⟩⟩

theorem toString_v6_subset {n : TunRoute false} (hn : Readable n.netAddress) :
    n.toString ⊆ networkCharacters := by
  rw [toString_v6]
  apply List.append_subset.mpr
  exact ⟨List.Subset.trans (getIPv6Address_subset hn.1) (by decide),
    List.cons_subset.mpr ⟨by decide, List.Subset.trans (decimal_subset _) (by decide)⟩⟩

theorem slash_notMem_decimal (n : Int) : '/' ∉ decimal n :=
  notMem_of_subset (decimal_subset n) (by decide)

theorem eq_of_toString_v4 {n m : TunRoute true} (hn : n.InRange) (hm : m.InRange)
    (hincluded : n.included = m.included) (h : n.toString = m.toString) : n = m := by
  rw [toString_v4, toString_v4] at h
  have hslash : ∀ ip, '/' ∉ getIPv4Address ip := fun ip =>
    notMem_of_subset (getIPv4Address_subset ip) (by decide)
  obtain ⟨haddress, hmask⟩ := split_at_first (hslash _) (hslash _) h
  rcases n with ⟨a, k, i⟩
  rcases m with ⟨b, l, j⟩
  obtain rfl : a = b :=
    getIPv4Address_injective ⟨hn.1, hn.2.1⟩ ⟨hm.1, hm.2.1⟩ haddress
  obtain rfl : k = l := decimal_injective hmask
  obtain rfl : i = j := hincluded
  rfl

theorem eq_of_toString_v6 {n m : TunRoute false} (hn : Readable n.netAddress)
    (hm : Readable m.netAddress) (hincluded : n.included = m.included)
    (h : n.toString = m.toString) : n = m := by
  rw [toString_v6, toString_v6] at h
  have hslash : ∀ {ip : Int}, Readable ip → '/' ∉ getIPv6Address ip := fun hip =>
    notMem_of_subset (getIPv6Address_subset hip.1) (by decide)
  obtain ⟨haddress, hmask⟩ := split_at_first (hslash hn) (hslash hm) h
  rcases n with ⟨a, k, i⟩
  rcases m with ⟨b, l, j⟩
  obtain rfl : a = b := getIPv6Address_injective hn hm haddress
  obtain rfl : k = l := decimal_injective hmask
  obtain rfl : i = j := hincluded
  rfl

/-! ### Lists of routes -/

/-- Lists of routes of one kind are determined by their joined texts. -/
theorem eq_of_join_eq {isV4 : Bool} (included : Bool) {l l' : List (TunRoute isV4)}
    (htext : ∀ n ∈ l ++ l', n.toString ≠ [] ∧ '|' ∉ n.toString)
    (hincluded : ∀ n ∈ l ++ l', n.included = included)
    (hinj : ∀ n ∈ l, ∀ m ∈ l', n.included = m.included → n.toString = m.toString → n = m)
    (h : join '|' (l.map TunRoute.toString) = join '|' (l'.map TunRoute.toString)) : l = l' := by
  have hmap : l.map TunRoute.toString = l'.map TunRoute.toString := by
    apply join_injective _ _ h
    · intro t ht
      obtain ⟨n, hn, rfl⟩ := List.mem_map.mp ht
      exact htext n (List.mem_append_left _ hn)
    · intro t ht
      obtain ⟨n, hn, rfl⟩ := List.mem_map.mp ht
      exact htext n (List.mem_append_right _ hn)
  clear h htext
  induction l generalizing l' with
  | nil => exact (List.map_eq_nil_iff.mp hmap.symm).symm
  | cons n l ih =>
      cases l' with
      | nil => cases hmap
      | cons m l' =>
          obtain ⟨hhead, htail⟩ := List.cons.inj hmap
          have hni : n.included = included := hincluded n (by simp)
          have hmi : m.included = included := hincluded m (by simp)
          have hnm : n = m :=
            hinj n List.mem_cons_self m List.mem_cons_self (hni.trans hmi.symm) hhead
          have hl : l = l' := by
            apply ih _ _ htail
            · intro x hx
              apply hincluded
              rcases List.mem_append.mp hx with hx | hx <;> simp [hx]
            · exact fun x hx y hy => hinj x (List.mem_cons_of_mem _ hx) y (List.mem_cons_of_mem _ hy)
          rw [hnm, hl]

/-- The joined IPv4 routes end in the last number and the mask of the last route. -/
theorem join_v4_eq {l : List (TunRoute true)} {n : TunRoute true} (h : l.getLast? = some n) :
    ∃ u d, join '|' (l.map TunRoute.toString) =
      u ++ '.' :: (decimal d ++ '/' :: decimal n.networkMask) := by
  induction l with
  | nil => cases h
  | cons m l ih =>
      cases l with
      | nil =>
          obtain rfl : m = n := by simpa using h
          obtain ⟨u, hu⟩ := getIPv4Address_eq m.netAddress
          refine ⟨u, m.netAddress.tmod 256, ?_⟩
          show m.toString = _
          rw [toString_v4, hu, List.append_assoc]
          rfl
      | cons m' l =>
          obtain ⟨u, d, hu⟩ := ih (by simpa using h)
          refine ⟨m.toString ++ '|' :: u, d, ?_⟩
          rw [List.map_cons, List.map_cons, join_cons_cons, ← List.map_cons, hu, List.append_assoc]
          rfl

/-- **The routes of both families are told apart** by the last dot and the slash
    behind it. -/
theorem join_v4_v6_inj {l l' : List (TunRoute true)} {r r' : Text} (hr : '.' ∉ r) (hr' : '.' ∉ r')
    (hl : ∀ n ∈ l, n.InRange) (hl' : ∀ n ∈ l', n.InRange)
    (hapart : ∀ n, l.getLast? = some n → Apart 32 n.networkMask.toNat r)
    (hapart' : ∀ n, l'.getLast? = some n → Apart 32 n.networkMask.toNat r')
    (h : join '|' (l.map TunRoute.toString) ++ r = join '|' (l'.map TunRoute.toString) ++ r') :
    join '|' (l.map TunRoute.toString) = join '|' (l'.map TunRoute.toString) ∧ r = r' := by
  have hnone : ∀ {k : List (TunRoute true)} {n s s'}, '.' ∉ s → k.getLast? = some n →
      s ≠ join '|' (k.map TunRoute.toString) ++ s' := by
    intro k n s s' hs hk heq
    obtain ⟨u, d, hu⟩ := join_v4_eq hk
    apply hs
    rw [heq, hu]
    simp
  have htail : ∀ {d m : Int} {s : Text}, '.' ∉ s → '.' ∉ decimal d ++ '/' :: (decimal m ++ s) := by
    intro d m s hs
    simp [dot_notMem_decimal, hs]
  cases hlast : l.getLast? with
  | none =>
      obtain rfl := List.getLast?_eq_none_iff.mp hlast
      cases hlast' : l'.getLast? with
      | none =>
          obtain rfl := List.getLast?_eq_none_iff.mp hlast'
          exact ⟨rfl, h⟩
      | some n => exact absurd h (hnone hr hlast')
  | some n =>
      cases hlast' : l'.getLast? with
      | none =>
          obtain rfl := List.getLast?_eq_none_iff.mp hlast'
          exact absurd h.symm (hnone hr' hlast)
      | some n' =>
          obtain ⟨u, d, hu⟩ := join_v4_eq hlast
          obtain ⟨u', d', hu'⟩ := join_v4_eq hlast'
          have hn := hl n (List.mem_of_getLast? hlast)
          have hn' := hl' n' (List.mem_of_getLast? hlast')
          rw [hu, hu'] at h ⊢
          simp only [List.append_assoc, List.cons_append] at h
          obtain ⟨rfl, hlastNumber⟩ := split_at_last (htail hr) (htail hr') h
          obtain ⟨hd, hmasks⟩ :=
            split_at_first (slash_notMem_decimal d) (slash_notMem_decimal d') hlastNumber
          rw [decimal_of_nonneg hn.2.2.1, decimal_of_nonneg hn'.2.2.1] at hmasks
          obtain ⟨hmask, hrest⟩ := toDigits_append_inj (by decide)
            (Int.toNat_le.mpr hn.2.2.2) (Int.toNat_le.mpr hn'.2.2.2) (hapart n hlast)
            (hapart' n' hlast') hmasks
          rw [hd, decimal_of_nonneg hn.2.2.1, decimal_of_nonneg hn'.2.2.1, hmask]
          exact ⟨rfl, hrest⟩

end TunRoute

namespace TunConfig

open TunRoute

/-! ### Local addresses -/

/-- An IPv4 address in its dotted form and a prefix length. -/
def PlainIPv4 (ip : CIDRIP) : Prop := ip.mIp ⊆ dottedCharacters ∧ 0 ≤ ip.len ∧ ip.len ≤ 32

/-- A text with a colon before the prefix length. -/
def PlainIPv6 (ip : Text) : Prop := ip ⊆ addressCharacters ∧ ':' ∈ ip.takeWhile (· ≠ '/')

theorem takeWhile_slash {u : Text} (hu : '/' ∉ u) (v : Text) :
    (u ++ '/' :: v).takeWhile (· ≠ '/') = u := by
  rw [List.takeWhile_append_of_pos]
  · simp
  · intro c hc
    simpa using fun heq : c = '/' => hu (heq ▸ hc)

/-- A text that begins with an IPv4 address has no colon before its first slash. -/
theorem ipv4_ne_ipv6 {ip : CIDRIP} {s ip6 : Text} (hip : PlainIPv4 ip) (hip6 : PlainIPv6 ip6) :
    ip.toString ++ s ≠ ip6 := by
  intro h
  have hslash : '/' ∉ ip.mIp := notMem_of_subset hip.1 (by decide)
  have hcolon := hip6.2
  rw [← h, CIDRIP.toString, List.append_assoc, List.append_assoc] at hcolon
  rw [show ("/" : Text) ++ (decimal ip.len ++ s) = '/' :: (decimal ip.len ++ s) from rfl,
    takeWhile_slash hslash] at hcolon
  exact notMem_of_subset hip.1 (by decide) hcolon

theorem ipv4_append_inj {ip ip' : CIDRIP} {s s' : Text} (hip : PlainIPv4 ip) (hip' : PlainIPv4 ip')
    (hs : Apart 32 ip.len.toNat s) (hs' : Apart 32 ip'.len.toNat s')
    (h : ip.toString ++ s = ip'.toString ++ s') : ip = ip' ∧ s = s' := by
  have hslash : '/' ∉ ip.mIp := notMem_of_subset hip.1 (by decide)
  have hslash' : '/' ∉ ip'.mIp := notMem_of_subset hip'.1 (by decide)
  rw [CIDRIP.toString, CIDRIP.toString, List.append_assoc, List.append_assoc, List.append_assoc,
    List.append_assoc] at h
  obtain ⟨hIp, hlens⟩ := split_at_first hslash hslash' h
  have hlens : decimal ip.len ++ s = decimal ip'.len ++ s' := hlens
  rw [decimal_of_nonneg hip.2.1, decimal_of_nonneg hip'.2.1] at hlens
  obtain ⟨hlen, hrest⟩ := toDigits_append_inj (by decide) (Int.toNat_le.mpr hip.2.2)
    (Int.toNat_le.mpr hip'.2.2) hs hs' hlens
  rcases ip with ⟨mIp, len⟩
  rcases ip' with ⟨mIp', len'⟩
  obtain rfl : mIp = mIp' := hIp
  have hlen : len = len' := by
    have h₁ := Int.toNat_of_nonneg hip.2.1
    have h₂ := Int.toNat_of_nonneg hip'.2.1
    simp only at hlen h₁ h₂
    omega
  rw [hlen]
  exact ⟨rfl, hrest⟩

/-- The local addresses are told apart by what stands before the first slash. -/
theorem ips_inj {o o' : Option CIDRIP} {o6 o6' : Option Text}
    (ho : ∀ ip, o = some ip → PlainIPv4 ip) (ho' : ∀ ip, o' = some ip → PlainIPv4 ip)
    (ho6 : ∀ ip, o6 = some ip → PlainIPv6 ip) (ho6' : ∀ ip, o6' = some ip → PlainIPv6 ip)
    (hapart : ∀ ip, o = some ip → Apart 32 ip.len.toNat (o6.getD []))
    (hapart' : ∀ ip, o' = some ip → Apart 32 ip.len.toNat (o6'.getD []))
    (h : (o.map CIDRIP.toString).getD [] ++ o6.getD [] =
      (o'.map CIDRIP.toString).getD [] ++ o6'.getD []) : o = o' ∧ o6 = o6' := by
  have hne : ∀ {ip : Text}, PlainIPv6 ip → ip ≠ [] := by
    intro ip hip hnil
    rw [hnil] at hip
    cases hip.2
  have hv6 : ∀ {p p' : Option Text}, (∀ ip, p = some ip → PlainIPv6 ip) →
      (∀ ip, p' = some ip → PlainIPv6 ip) → p.getD [] = p'.getD [] → p = p' := by
    intro p p' hp hp' heq
    cases p with
    | none =>
        cases p' with
        | none => rfl
        | some ip' => exact absurd heq.symm (hne (hp' ip' rfl))
    | some ip =>
        cases p' with
        | none => exact absurd heq (hne (hp ip rfl))
        | some ip' => exact congrArg some heq
  have hmixed : ∀ {ip : CIDRIP} {s : Text} {p : Option Text}, PlainIPv4 ip →
      (∀ ip, p = some ip → PlainIPv6 ip) → ip.toString ++ s ≠ p.getD [] := by
    intro ip s p hip hp heq
    cases p with
    | none =>
        have hslash : ip.toString ≠ [] := by
          rw [CIDRIP.toString]
          exact List.append_ne_nil_of_right_ne_nil _ (decimal_ne_nil _)
        exact List.append_ne_nil_of_left_ne_nil hslash s heq
    | some ip6 => exact ipv4_ne_ipv6 hip (hp ip6 rfl) heq
  cases o with
  | none =>
      cases o' with
      | none => exact ⟨rfl, hv6 ho6 ho6' h⟩
      | some ip' => exact absurd h.symm (hmixed (ho' ip' rfl) ho6)
  | some ip =>
      cases o' with
      | none => exact absurd h (hmixed (ho ip rfl) ho6')
      | some ip' =>
          obtain ⟨rfl, hrest⟩ :=
            ipv4_append_inj (ho ip rfl) (ho' ip' rfl) (hapart ip rfl) (hapart' ip' rfl) h
          exact ⟨rfl, hv6 ho6 ho6' hrest⟩

/-! ### The proxy and the domain -/

theorem orNull_injective {o o' : Option Text} (ho : o ≠ some "null") (ho' : o' ≠ some "null")
    (h : orNull o = orNull o') : o = o' := by
  cases o with
  | none =>
      cases o' with
      | none => rfl
      | some t' => exact absurd (congrArg some h).symm ho'
  | some t =>
      cases o' with
      | none => exact absurd (congrArg some h) ho
      | some t' => exact congrArg some h

theorem ProxyInfo_toString_injective {p p' : ProxyInfo} (h : p.toString = p'.toString) : p = p' := by
  have hblank : ∀ n : Int, ' ' ∉ decimal n := fun n =>
    notMem_of_subset (decimal_subset n) (by decide)
  rcases p with ⟨host, port⟩
  rcases p' with ⟨host', port'⟩
  have htext : (host ++ [']']) ++ ' ' :: decimal port = (host' ++ [']']) ++ ' ' :: decimal port' := by
    rw [List.append_assoc, List.append_assoc]
    exact (List.cons.inj h).2
  obtain ⟨hhost, hport⟩ := split_at_last (hblank _) (hblank _) htext
  rw [List.append_cancel_right hhost, decimal_injective hport]

theorem proxy_injective {o o' : Option ProxyInfo}
    (h : orNull (o.map ProxyInfo.toString) = orNull (o'.map ProxyInfo.toString)) : o = o' := by
  have hne : ∀ o : Option ProxyInfo, o.map ProxyInfo.toString ≠ some ("null" : Text) := by
    intro o heq
    cases o with
    | none => cases heq
    | some p =>
        have hhead := congrArg List.head? (Option.some.inj heq)
        cases hhead
  have hmap := orNull_injective (hne o) (hne o') h
  exact Option.map_injective (fun p p' => ProxyInfo_toString_injective) hmap

/-! ### The whole text -/

/-- A configuration in plain texts: addresses are written as addresses, the domain
    is a name, and no number could continue into the IPv6 text behind it. -/
structure Plain (tc : TunConfig) : Prop where
  localIP : ∀ ip, tc.mLocalIP = some ip → PlainIPv4 ip
  localIPv6 : ∀ ip, tc.mLocalIPv6 = some ip → PlainIPv6 ip
  localApart : ∀ ip, tc.mLocalIP = some ip → Apart 32 ip.len.toNat (tc.mLocalIPv6.getD [])
  routes : ∀ r ∈ tc.mRoutes, r.InRange
  routesv6 : ∀ r ∈ tc.mRoutesv6, Readable r.netAddress
  routesApart : ∀ included r, (getNetworks tc.mRoutes included).getLast? = some r →
    Apart 32 r.networkMask.toNat
      (join '|' ((getNetworks tc.mRoutesv6 included).map TunRoute.toString))
  dns : ∀ server ∈ tc.mDnslist, server ≠ [] ∧ server ⊆ addressCharacters
  domain : ∀ name, tc.mDomain = some name → name ≠ ("null" : Text) ∧ ':' ∉ name

/-- The characters of addresses and of the separator between them. -/
def listCharacters : Text := "-0123456789abcdefABCDEF.:/|"

namespace Plain

variable {tc tc' : TunConfig}

theorem ipsText_subset (h : tc.Plain) : tc.ipsText ⊆ listCharacters := by
  have hv4 : ∀ ip, tc.mLocalIP = some ip → ip.toString ⊆ listCharacters := by
    intro ip hip
    rw [CIDRIP.toString, List.append_assoc]
    exact List.append_subset.mpr ⟨List.Subset.trans (h.localIP ip hip).1 (by decide),
      List.cons_subset.mpr ⟨by decide, List.Subset.trans (decimal_subset _) (by decide)⟩⟩
  have hv6 : ∀ ip, tc.mLocalIPv6 = some ip → ip ⊆ listCharacters := fun ip hip =>
    List.Subset.trans (h.localIPv6 ip hip).1 (by decide)
  rw [ipsText]
  apply List.append_subset.mpr
  constructor
  · cases hip : tc.mLocalIP with
    | none => exact List.nil_subset _
    | some ip => exact hv4 ip hip
  · cases hip : tc.mLocalIPv6 with
    | none => exact List.nil_subset _
    | some ip => exact hv6 ip hip

theorem join_v6_subset (h : tc.Plain) (included : Bool) :
    join '|' ((getNetworks tc.mRoutesv6 included).map TunRoute.toString) ⊆
      "-0123456789abcdef:/|".toList := by
  apply join_subset (by decide)
  intro t ht
  obtain ⟨r, hr, rfl⟩ := List.mem_map.mp ht
  exact List.Subset.trans (toString_v6_subset (h.routesv6 r (List.mem_filter.mp hr).1)) (by decide)

theorem routesText_subset (h : tc.Plain) (included : Bool) :
    tc.routesText included ⊆ listCharacters := by
  rw [routesText]
  apply List.append_subset.mpr
  constructor
  · apply join_subset (by decide)
    intro t ht
    obtain ⟨r, hr, rfl⟩ := List.mem_map.mp ht
    exact List.Subset.trans (toString_v4_subset r) (by decide)
  · exact List.Subset.trans (h.join_v6_subset included) (by decide)

theorem dns_subset (h : tc.Plain) : join '|' tc.mDnslist ⊆ listCharacters := by
  apply join_subset (by decide)
  intro t ht
  exact List.Subset.trans (h.dns t ht).2 (by decide)

/-- The routes of a kind, from the text of both families. -/
theorem getNetworks_eq (h : tc.Plain) (h' : tc'.Plain) {included : Bool}
    (heq : tc.routesText included = tc'.routesText included) :
    getNetworks tc.mRoutes included = getNetworks tc'.mRoutes included ∧
      getNetworks tc.mRoutesv6 included = getNetworks tc'.mRoutesv6 included := by
  have hincluded : ∀ {isV4 : Bool} {l : List (TunRoute isV4)}, ∀ n ∈ getNetworks l included,
      n.included = included := by
    intro isV4 l n hn
    simpa using (List.mem_filter.mp hn).2
  have hrange : ∀ {t : TunConfig}, t.Plain → ∀ n ∈ getNetworks t.mRoutes included, n.InRange :=
    fun ht n hn => ht.routes n (List.mem_filter.mp hn).1
  have hreadable : ∀ {t : TunConfig}, t.Plain → ∀ n ∈ getNetworks t.mRoutesv6 included,
      Readable n.netAddress := fun ht n hn => ht.routesv6 n (List.mem_filter.mp hn).1
  have hdot : ∀ {t : TunConfig}, t.Plain →
      '.' ∉ join '|' ((getNetworks t.mRoutesv6 included).map TunRoute.toString) :=
    fun ht => notMem_of_subset (ht.join_v6_subset included) (by decide)
  obtain ⟨hv4, hv6⟩ := join_v4_v6_inj (hdot h) (hdot h') (hrange h) (hrange h')
    (h.routesApart included) (h'.routesApart included) heq
  have hcons : ∀ {u v : Text} {c : Char}, u ++ c :: v ≠ [] := fun {u v c} =>
    List.append_ne_nil_of_right_ne_nil u (List.cons_ne_nil c v)
  constructor
  · apply eq_of_join_eq included _ _ _ hv4
    · intro n _
      exact ⟨hcons, notMem_of_subset (toString_v4_subset n) (by decide)⟩
    · intro n hn
      rcases List.mem_append.mp hn with hn | hn <;> exact hincluded n hn
    · exact fun n hn m hm => eq_of_toString_v4 (hrange h n hn) (hrange h' m hm)
  · apply eq_of_join_eq included _ _ _ hv6
    · intro n hn
      have hn : Readable n.netAddress := by
        rcases List.mem_append.mp hn with hn | hn
        · exact hreadable h n hn
        · exact hreadable h' n hn
      exact ⟨hcons, notMem_of_subset (toString_v6_subset hn) (by decide)⟩
    · intro n hn
      rcases List.mem_append.mp hn with hn | hn <;> exact hincluded n hn
    · exact fun n hn m hm => eq_of_toString_v6 (hreadable h n hn) (hreadable h' m hm)

end Plain

/-- The text up to its separators: each part, and the first character behind it that
    it does not contain. -/
theorem configText_eq (tc : TunConfig) :
    tc.configText = ("TUNCFG UNQIUE STRING ips:" : Text) ++ (tc.ipsText
      ++ 'r' :: (("outes: " : Text) ++ ((tc.routesText true ++ ['e'])
        ++ 'x' :: (("cl. routes:" : Text) ++ ((tc.routesText false ++ ['d'])
          ++ 'n' :: (("s: " : Text) ++ ((join '|' tc.mDnslist ++ ['d'])
            ++ 'o' :: (("main: " : Text) ++ ((orNull tc.mDomain ++ ("mtu" : Text))
              ++ ':' :: (' ' :: (decimal tc.mMtu
                ++ 'p' :: (("roxyInfo: " : Text)
                  ++ orNull (tc.mProxyInfo.map ProxyInfo.toString))))))))))))) := by
  have hroutes : ("routes: " : Text) = 'r' :: ("outes: " : Text) := by decide
  have hexcluded : ("excl. routes:" : Text) = 'e' :: 'x' :: ("cl. routes:" : Text) := by decide
  have hdns : ("dns: " : Text) = 'd' :: 'n' :: ("s: " : Text) := by decide
  have hdomain : ("domain: " : Text) = 'd' :: 'o' :: ("main: " : Text) := by decide
  have hmtu : ("mtu: " : Text) = ("mtu" : Text) ++ [':', ' '] := by decide
  have hproxy : ("proxyInfo: " : Text) = 'p' :: ("roxyInfo: " : Text) := by decide
  unfold configText
  rw [hroutes, hexcluded, hdns, hdomain, hmtu, hproxy]
  simp only [List.append_assoc, List.cons_append, List.nil_append]

/-- The text is one of what was collected. -/
theorem configText_congr {tc tc' : TunConfig} (h : tc.collected = tc'.collected) :
    tc.configText = tc'.configText := by
  rw [collected, collected] at h
  obtain ⟨hip, hip6, hincl, hincl6, hexcl, hexcl6, hdns, hdomain, hmtu, hproxy⟩ :=
    Collected.mk.inj h
  have hincluded : tc.routesText true = tc'.routesText true := by
    rw [routesText, routesText, hincl, hincl6]
  have hexcluded : tc.routesText false = tc'.routesText false := by
    rw [routesText, routesText, hexcl, hexcl6]
  have hips : tc.ipsText = tc'.ipsText := by
    rw [ipsText, ipsText, hip, hip6]
  unfold configText
  rw [hips, hincluded, hexcluded, hdns, hdomain, hmtu, hproxy]

theorem configText_ne_null (tc : TunConfig) : tc.configText ≠ ("NULL" : Text) := by
  intro h
  have hhead := congrArg List.head? h
  cases hhead

/-- **Plain configurations with the same text are the same.** -/
theorem Plain.collected_eq {tc tc' : TunConfig} (h : tc.Plain) (h' : tc'.Plain)
    (heq : tc.configText = tc'.configText) : tc.collected = tc'.collected := by
  rw [configText_eq, configText_eq] at heq
  have hmarker : ∀ {u : Text} {c d : Char}, u ⊆ listCharacters → c ∉ listCharacters → c ≠ d →
      c ∉ u ++ [d] := by
    intro u c d hu hc hne
    simp [notMem_of_subset hu hc, hne]
  have hdomain : ∀ {t : TunConfig}, t.Plain → ':' ∉ orNull t.mDomain ++ ("mtu" : Text) := by
    intro t ht
    have hmtu : ':' ∉ ("mtu" : Text) := by decide
    cases hname : t.mDomain with
    | none => decide
    | some name => exact List.not_mem_append (ht.domain name hname).2 hmtu
  have hnumber : ∀ n : Int, 'p' ∉ decimal n := fun n =>
    notMem_of_subset (decimal_subset n) (by decide)
  have hname : ∀ {t : TunConfig}, t.Plain → t.mDomain ≠ some ("null" : Text) := fun ht hnull =>
    (ht.domain _ hnull).1 rfl
  obtain ⟨hips, hrest⟩ := split_at_first (notMem_of_subset h.ipsText_subset (by decide))
    (notMem_of_subset h'.ipsText_subset (by decide)) (List.append_cancel_left heq)
  obtain ⟨hincluded, hrest⟩ := split_at_first
    (hmarker (h.routesText_subset true) (by decide) (by decide))
    (hmarker (h'.routesText_subset true) (by decide) (by decide)) (List.append_cancel_left hrest)
  obtain ⟨hexcluded, hrest⟩ := split_at_first
    (hmarker (h.routesText_subset false) (by decide) (by decide))
    (hmarker (h'.routesText_subset false) (by decide) (by decide)) (List.append_cancel_left hrest)
  obtain ⟨hdns, hrest⟩ := split_at_first (hmarker h.dns_subset (by decide) (by decide))
    (hmarker h'.dns_subset (by decide) (by decide)) (List.append_cancel_left hrest)
  obtain ⟨hdom, hrest⟩ := split_at_first (hdomain h) (hdomain h') (List.append_cancel_left hrest)
  obtain ⟨hmtu, hrest⟩ := split_at_first (hnumber _) (hnumber _) (List.cons.inj hrest).2
  have hproxy := proxy_injective (List.append_cancel_left hrest)
  obtain ⟨hip, hip6⟩ := ips_inj h.localIP h'.localIP h.localIPv6 h'.localIPv6 h.localApart
    h'.localApart hips
  obtain ⟨hincl, hincl6⟩ := h.getNetworks_eq h' (List.append_cancel_right hincluded)
  obtain ⟨hexcl, hexcl6⟩ := h.getNetworks_eq h' (List.append_cancel_right hexcluded)
  have hservers : tc.mDnslist = tc'.mDnslist := by
    have hserver : ∀ {t : TunConfig}, t.Plain → ∀ s ∈ t.mDnslist, s ≠ [] ∧ '|' ∉ s :=
      fun ht s hs => ⟨(ht.dns s hs).1, notMem_of_subset (ht.dns s hs).2 (by decide)⟩
    exact join_injective (hserver h) (hserver h') (List.append_cancel_right hdns)
  have hdomains : tc.mDomain = tc'.mDomain :=
    orNull_injective (hname h) (hname h') (List.append_cancel_right hdom)
  rw [collected, collected, hip, hip6, hincl, hincl6, hexcl, hexcl6, hservers, hdomains,
    decimal_injective hmtu, hproxy]

end TunConfig

end OpenVpnAndroid
