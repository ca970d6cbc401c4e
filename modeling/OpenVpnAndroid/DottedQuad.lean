/-
  OpenVpnAndroid/DottedQuad.lean
  ==============================
  **Addresses and netmasks as dotted quads.**

  `getInt` reads back what `getIPv4Address` writes, and `calculateLenFromMask` finds
  the length of every netmask and no other.  A mask of ones keeps a part of the bits of
  an address (`longAnd_mask`), so `normalise` clears those behind the prefix.
-/
import OpenVpnAndroid.TunReopen
import OpenVpnAndroid.Words

namespace OpenVpnAndroid

/-- An address as it is printed. -/
def dottedQuad (n : Nat) : Text := TunRoute.getIPv4Address n

/-- The address is the netmask of this prefix length. -/
def IsNetmask (n len : Nat) : Prop := len ≤ 32 ∧ n = 2 ^ 32 - 2 ^ (32 - len)

theorem IsNetmask.unique {n len len' : Nat} (h : IsNetmask n len) (h' : IsNetmask n len') :
    len = len' := by
  have hpow : 2 ^ (32 - len) = 2 ^ (32 - len') := by
    have hle : 2 ^ (32 - len) ≤ 2 ^ 32 := Nat.pow_le_pow_right (by decide) (by omega)
    have hle' : 2 ^ (32 - len') ≤ 2 ^ 32 := Nat.pow_le_pow_right (by decide) (by omega)
    have heq := h.2.symm.trans h'.2
    omega
  have hsub := Nat.pow_right_injective (le_refl 2) hpow
  have := h.1
  have := h'.1
  omega

theorem dottedQuad_injective {n m : Nat} (hn : n < 2 ^ 32) (hm : m < 2 ^ 32)
    (h : dottedQuad n = dottedQuad m) : n = m := by
  have heq := TunRoute.getIPv4Address_injective ⟨Int.natCast_nonneg n, by omega⟩
    ⟨Int.natCast_nonneg m, by omega⟩ h
  exact_mod_cast heq

/-! ### Reading -/

theorem dottedQuad_eq (n : Nat) :
    dottedQuad n = Nat.toDigits 10 (n / 2 ^ 24 % 256) ++ '.' ::
      (Nat.toDigits 10 (n / 2 ^ 16 % 256) ++ '.' ::
        (Nat.toDigits 10 (n / 2 ^ 8 % 256) ++ '.' :: Nat.toDigits 10 (n % 256))) := by
  have hpart : ∀ d : Nat, decimal (((n : Int) / d).tmod 256) = Nat.toDigits 10 (n / d % 256) := by
    intro d
    rw [← decimal_natCast, ← Int.natCast_ediv,
      Int.tmod_eq_emod_of_nonneg (Int.natCast_nonneg (n / d))]
    rfl
  have h₁ := hpart (2 ^ 24)
  have h₂ := hpart (2 ^ 16)
  have h₃ := hpart (2 ^ 8)
  have h₄ := hpart 1
  rw [Nat.div_one, Int.natCast_one, Int.ediv_one] at h₄
  rw [dottedQuad, TunRoute.getIPv4Address, ← h₁, ← h₂, ← h₃, ← h₄]
  rfl

/-- Four pieces between dots. -/
theorem split_quad {a b c d : Text} (ha : ∀ x ∈ a, (x == '.') = false)
    (hb : ∀ x ∈ b, (x == '.') = false) (hc : ∀ x ∈ c, (x == '.') = false)
    (hd : ∀ x ∈ d, (x == '.') = false) (hne : d ≠ []) :
    split (· == '.') (a ++ '.' :: (b ++ '.' :: (c ++ '.' :: d))) = [a, b, c, d] := by
  have hlast := @split_append_cons (· == '.') (a ++ '.' :: (b ++ '.' :: c)) '.' rfl d hd hne
  rw [pieces_append _ ha rfl, pieces_append _ hb rfl, pieces_of_none hc] at hlast
  simpa using hlast

/-! ### Octets -/

/-- The text is read as this number from 0 to 255. -/
def IsOctet (text : Text) (n : Nat) : Prop := parseInt text = some (n : Int) ∧ n < 256

instance (text : Text) (n : Nat) : Decidable (IsOctet text n) := inferInstanceAs (Decidable (_ ∧ _))

/-- Four octets between dots, and the address that they say. -/
inductive IsDottedQuad : Text → Nat → Prop
  | quad {a b c d : Text} {i j k l : Nat} (ha : IsOctet a i) (hb : IsOctet b j)
      (hc : IsOctet c k) (hd : IsOctet d l) :
      IsDottedQuad (a ++ '.' :: (b ++ '.' :: (c ++ '.' :: d)))
        (i * 2 ^ 24 + j * 2 ^ 16 + k * 2 ^ 8 + l)

namespace IsOctet

variable {text : Text} {n : Nat}

theorem dot_notMem (h : IsOctet text n) : ∀ x ∈ text, (x == '.') = false := by
  intro x hx
  rw [beq_eq_false_iff_ne]
  rintro rfl
  rcases mem_of_parseSigned h.1 _ hx with hdot | hdot | hdot
  · exact absurd hdot (by decide)
  · exact absurd hdot (by decide)
  · exact absurd hdot (by decide)

theorem ne_nil (h : IsOctet text n) : text ≠ [] := by
  rintro rfl
  exact absurd h.1 nofun

theorem parseLong_eq (h : IsOctet text n) : parseLong text = some (n : Int) :=
  parseSigned_mono (by decide) h.1

end IsOctet

theorem isOctet_toDigits {n : Nat} (hn : n < 256) : IsOctet (Nat.toDigits 10 n) n :=
  ⟨parseSigned_toDigits (Nat.lt_trans hn (by decide)), hn⟩

theorem IsDottedQuad.lt {text : Text} {n : Nat} (h : IsDottedQuad text n) : n < 2 ^ 32 := by
  cases h with
  | quad ha hb hc hd =>
      have := ha.2
      have := hb.2
      have := hc.2
      have := hd.2
      omega

theorem isDottedQuad_dottedQuad {n : Nat} (hn : n < 2 ^ 32) : IsDottedQuad (dottedQuad n) n := by
  have hbyte : ∀ k, k % 256 < 256 := fun k => Nat.mod_lt k (by decide)
  have hquad := IsDottedQuad.quad (isOctet_toDigits (hbyte (n / 2 ^ 24)))
    (isOctet_toDigits (hbyte (n / 2 ^ 16))) (isOctet_toDigits (hbyte (n / 2 ^ 8)))
    (isOctet_toDigits (hbyte n))
  have hsum : n / 2 ^ 24 % 256 * 2 ^ 24 + n / 2 ^ 16 % 256 * 2 ^ 16 + n / 2 ^ 8 % 256 * 2 ^ 8
      + n % 256 = n := by omega
  rwa [hsum, ← dottedQuad_eq] at hquad

namespace CIDRIP

/-- The sum of four bytes does not wrap around. -/
theorem long_sum_of_bytes (a b c d : Nat) (ha : a < 256) (hb : b < 256) (hc : c < 256)
    (hd : d < 256) :
    long (long (long (long ((a : Int) * 2 ^ 24) + int ((b : Int) * 2 ^ 16))
      + int ((c : Int) * 2 ^ 8)) + d) = a * 2 ^ 24 + b * 2 ^ 16 + c * 2 ^ 8 + d := by
  have hint : ∀ {x : Int}, 0 ≤ x → x < 2 ^ 31 → int x = x := fun h h' =>
    Int.bmod_eq_of_le (by omega) (by omega)
  rw [@hint (b * 2 ^ 16) (by omega) (by omega), @hint (c * 2 ^ 8) (by omega) (by omega),
    @long_of_range (a * 2 ^ 24) (by omega) (by omega),
    @long_of_range (a * 2 ^ 24 + b * 2 ^ 16) (by omega) (by omega),
    @long_of_range (a * 2 ^ 24 + b * 2 ^ 16 + c * 2 ^ 8) (by omega) (by omega),
    @long_of_range (a * 2 ^ 24 + b * 2 ^ 16 + c * 2 ^ 8 + d) (by omega) (by omega)]

theorem getInt_of_isDottedQuad {text : Text} {n : Nat} (h : IsDottedQuad text n) :
    getInt text = .ok (n : Int) := by
  cases h with
  | quad ha hb hc hd =>
      have hsplit := split_quad ha.dot_notMem hb.dot_notMem hc.dot_notMem hd.dot_notMem hd.ne_nil
      simp only [getInt, hsplit, part, vectorGet, List.getElem?_cons_zero,
        List.getElem?_cons_succ, ha.parseLong_eq, hb.1, hc.1, hd.1, bind, Except.bind, pure,
        Except.pure]
      rw [long_sum_of_bytes _ _ _ _ ha.2 hb.2 hc.2 hd.2]
      push_cast
      rfl

theorem getInt_dottedQuad {n : Nat} (hn : n < 2 ^ 32) : getInt (dottedQuad n) = .ok (n : Int) :=
  getInt_of_isDottedQuad (isDottedQuad_dottedQuad hn)

/-! ### The length of a netmask -/

/-- The loop takes all zeros at the end. -/
theorem shiftZeros_mul {rounds k : Nat} (hk : k < rounds) {odd : Int} (hodd : odd % 2 = 1)
    (lenZeros : Nat) : shiftZeros rounds (odd * 2 ^ k) lenZeros = some (odd, lenZeros + k) := by
  induction rounds generalizing k lenZeros with
  | zero => omega
  | succ rounds ih =>
      cases k with
      | zero => rw [shiftZeros, Int.pow_zero, Int.mul_one, if_neg (by omega), Nat.add_zero]
      | succ k =>
          have heven : odd * 2 ^ (k + 1) = 2 * (odd * 2 ^ k) := by rw [Int.pow_succ]; ring
          rw [shiftZeros, heven, if_pos (Int.mul_emod_right _ _),
            Int.mul_ediv_cancel_left _ (by decide), ih (by omega)]
          congr 2
          omega

/-- The netmask with the 33rd bit, by its zeros at the end. -/
theorem calculateLenFromMask_dottedQuad {n odd k : Nat} (hn : n < 2 ^ 32)
    (hsum : n + 2 ^ 32 = odd * 2 ^ k) (hodd : odd % 2 = 1) (hk : k ≤ 32) :
    calculateLenFromMask (dottedQuad n) =
      .ok (if odd = 2 ^ (33 - k) - 1 then 32 - (k : Int) else 32) := by
  have hlong : long ((n : Int) + 2 ^ 32) = (odd : Int) * 2 ^ k := by
    rw [long_of_range (by omega) (by omega)]
    exact_mod_cast hsum
  have hshift := @shiftZeros_mul 64 k (by omega) odd (by omega) 0
  rw [← hlong, Nat.zero_add] at hshift
  rw [calculateLenFromMask_of_shiftZeros (getInt_dottedQuad hn) hshift hk]
  simp only [Int.natCast_inj]

/-- A netmask with the bit: ones and then zeros. -/
theorem netmask_add {k : Nat} (hk : k ≤ 32) :
    2 ^ 32 - 2 ^ k + 2 ^ 32 = (2 ^ (33 - k) - 1) * 2 ^ k := by
  have hall : ∀ k ≤ 32, 2 ^ 32 - 2 ^ k + 2 ^ 32 = (2 ^ (33 - k) - 1) * 2 ^ k := by decide
  exact hall k hk

theorem calculateLenFromMask_netmask {n len : Nat} (h : IsNetmask n len) :
    calculateLenFromMask (dottedQuad n) = .ok len := by
  obtain ⟨hlen, rfl⟩ := h
  have hodd : (2 ^ (33 - (32 - len)) - 1) % 2 = 1 := by
    rw [show 33 - (32 - len) = len + 1 by omega, Nat.pow_succ]
    have := Nat.two_pow_pos len
    omega
  have hpos := Nat.two_pow_pos (32 - len)
  rw [calculateLenFromMask_dottedQuad (by omega) (netmask_add (by omega)) hodd (by omega),
    if_pos rfl]
  exact congrArg Except.ok (by omega)

theorem calculateLenFromMask_other {n : Nat} (hn : n < 2 ^ 32) (h : ∀ len, ¬IsNetmask n len) :
    calculateLenFromMask (dottedQuad n) = .ok 32 := by
  obtain ⟨k, odd, hodd, hsum⟩ := @Nat.exists_eq_two_pow_mul_odd (n + 2 ^ 32) (by omega)
  rw [Nat.mul_comm] at hsum
  have hk : k ≤ 32 := by
    by_contra hlarge
    have hpow : 2 ^ 33 ≤ 2 ^ k := Nat.pow_le_pow_right (by decide) (by omega)
    have hpos : 0 < odd := Nat.pos_of_ne_zero fun h0 => by simp [h0] at hodd
    have hle : 2 ^ k ≤ odd * 2 ^ k := Nat.le_mul_of_pos_left _ hpos
    omega
  rw [calculateLenFromMask_dottedQuad hn hsum (Nat.odd_iff.mp hodd) hk, if_neg]
  intro hones
  rw [hones, ← netmask_add hk] at hsum
  have hle : 2 ^ k ≤ 2 ^ 32 := Nat.pow_le_pow_right (by decide) hk
  exact h (32 - k) ⟨by omega, by rw [show 32 - (32 - k) = k by omega]; omega⟩

end CIDRIP

/-! ### Masks -/

/-- A mask of `m` ones before `k` zeros keeps that part of the bits. -/
theorem and_ones_mul (x m k : Nat) :
    x &&& ((2 ^ m - 1) * 2 ^ k) = x / 2 ^ k % 2 ^ m * 2 ^ k := by
  apply Nat.eq_of_testBit_eq
  intro i
  rw [Nat.testBit_and, Nat.testBit_mul_two_pow, Nat.testBit_mul_two_pow,
    Nat.testBit_two_pow_sub_one, Nat.testBit_mod_two_pow, Nat.testBit_div_two_pow]
  by_cases hk : k ≤ i
  · rw [Nat.sub_add_cancel hk]
    simp [hk, Bool.and_comm]
  · simp [hk]

theorem longAnd_mask {x m k : Nat} {mask : Int} (hx : x < 2 ^ 63)
    (hmask : BitVec.ofInt 64 mask = BitVec.ofNat 64 ((2 ^ m - 1) * 2 ^ k))
    (hfits : (2 ^ m - 1) * 2 ^ k < 2 ^ 64) :
    longAnd x mask = ((x / 2 ^ k % 2 ^ m * 2 ^ k : Nat) : Int) := by
  have hand : (BitVec.ofInt 64 x &&& BitVec.ofInt 64 mask).toNat =
      x / 2 ^ k % 2 ^ m * 2 ^ k := by
    rw [hmask, BitVec.toNat_and, BitVec.ofInt_natCast, BitVec.toNat_ofNat, BitVec.toNat_ofNat,
      Nat.mod_eq_of_lt hfits, Nat.mod_eq_of_lt (by omega), and_ones_mul]
  have hle : x / 2 ^ k % 2 ^ m * 2 ^ k ≤ x := by
    rw [← and_ones_mul]
    exact Nat.and_le_left
  rw [longAnd, BitVec.toInt_eq_toNat_of_lt (by rw [hand]; omega), hand]

/-- A mask that keeps all but the last bits. -/
theorem longAnd_high {x k : Nat} {mask : Int} (hx : x < 2 ^ 32) (hk : k ≤ 32)
    (hmask : BitVec.ofInt 64 mask = BitVec.ofNat 64 ((2 ^ (64 - k) - 1) * 2 ^ k)) :
    longAnd x mask = ((x / 2 ^ k * 2 ^ k : Nat) : Int) := by
  have hfits : (2 ^ (64 - k) - 1) * 2 ^ k < 2 ^ 64 := by
    have hpos := Nat.two_pow_pos k
    rw [Nat.sub_mul, ← Nat.pow_add, Nat.sub_add_cancel (by omega)]
    omega
  have hlarge : 2 ^ 32 ≤ 2 ^ (64 - k) := Nat.pow_le_pow_right (by decide) (by omega)
  have hsmall : x / 2 ^ k < 2 ^ (64 - k) :=
    Nat.lt_of_lt_of_le (Nat.lt_of_le_of_lt (Nat.div_le_self x _) hx) hlarge
  rw [longAnd_mask (by omega) hmask hfits, Nat.mod_eq_of_lt hsmall]

/-- A number that is wrapped around has the same bits. -/
theorem ofInt_long (x : Int) : BitVec.ofInt 64 (long x) = BitVec.ofInt 64 x := by
  apply BitVec.eq_of_toInt_eq
  rw [BitVec.toInt_ofInt, BitVec.toInt_ofInt, long]
  exact Int.bmod_bmod

/-- A byte of an address. -/
theorem longAnd_part {x : Nat} (w k : Nat) {mask : Int} (hx : x < 2 ^ 32)
    (hmask : BitVec.ofInt 64 mask = BitVec.ofNat 64 ((2 ^ w - 1) * 2 ^ k))
    (hfits : (2 ^ w - 1) * 2 ^ k < 2 ^ 64) :
    longAnd x mask / 2 ^ k = ((x / 2 ^ k % 2 ^ w : Nat) : Int) := by
  rw [longAnd_mask (by omega) hmask hfits]
  push_cast
  exact Int.mul_ediv_cancel _ (by positivity)

/-! ### `normalise` -/

/-- The address without the bits behind the prefix. -/
def networkAddress (n len : Nat) : Nat := n / 2 ^ (32 - len) * 2 ^ (32 - len)

def HasHostBits (n len : Nat) : Prop := n % 2 ^ (32 - len) ≠ 0

instance (n len : Nat) : Decidable (HasHostBits n len) := inferInstanceAs (Decidable (_ ≠ _))

section NetworkAddress

variable (n len : Nat)

theorem networkAddress_le : networkAddress n len ≤ n := Nat.div_mul_le_self n _

theorem not_hasHostBits_networkAddress : ¬HasHostBits (networkAddress n len) len :=
  not_not.mpr (Nat.mul_mod_left _ _)

theorem networkAddress_eq_iff : networkAddress n len = n ↔ ¬HasHostBits n len := by
  rw [networkAddress, HasHostBits, not_not]
  have hdiv := Nat.div_add_mod' n (2 ^ (32 - len))
  omega

end NetworkAddress

namespace CIDRIP

/-- `normalise`: the value that it returns, and the object after it. -/
def normaliseResult (c : CIDRIP) : Java (Bool × CIDRIP) := do
  let ip ← getInt c.mIp
  let newip := longAnd ip (long (0xffffffff * 2 ^ ((32 - c.len) % 64).toNat))
  if newip ≠ ip then
    let part (mask shift : Int) : Text := decimal (longAnd newip mask / 2 ^ shift.toNat)
    let mIp := part (-0x1000000) 24 ++ '.' :: (part 0xff0000 16
      ++ '.' :: (part 0xff00 8 ++ '.' :: part 0xff 0))
    return (true, { c with mIp := mIp })
  else return (false, c)

theorem normalise_eq (c : CIDRIP) : normalise c = (normaliseResult c).map Prod.snd := by
  unfold normalise normaliseResult
  cases getInt c.mIp with
  | error e => rfl
  | ok ip =>
      simp only [bind, Except.bind]
      split <;> rfl

/-- The mask of `normalise` keeps the bits of the network. -/
theorem longAnd_networkMask {n : Nat} (hn : n < 2 ^ 32) {len : Nat} (hlen : len ≤ 32) :
    longAnd n (long (0xffffffff * 2 ^ ((32 - (len : Int)) % 64).toNat)) =
      ((networkAddress n len : Nat) : Int) := by
  have hshift : ((32 - (len : Int)) % 64).toNat = 32 - len := by omega
  have hpow : 2 ^ (32 - len) ≤ 2 ^ 32 := Nat.pow_le_pow_right (by decide) (by omega)
  have hmask : BitVec.ofInt 64 (long (0xffffffff * 2 ^ (32 - len))) =
      BitVec.ofNat 64 ((2 ^ 32 - 1) * 2 ^ (32 - len)) := by
    rw [ofInt_long, ← BitVec.ofInt_natCast]
    congr 1
  rw [networkAddress, hshift, longAnd_mask (by omega) hmask (by omega),
    Nat.mod_eq_of_lt (Nat.lt_of_le_of_lt (Nat.div_le_self n _) hn)]

/-- The octets are cut out of the address as `getIPv4Address` cuts them. -/
theorem dottedQuad_eq_parts {m : Nat} (hm : m < 2 ^ 32) :
    decimal (longAnd m (-0x1000000) / 2 ^ Int.toNat 24) ++ '.' ::
        (decimal (longAnd m 0xff0000 / 2 ^ Int.toNat 16) ++ '.' ::
          (decimal (longAnd m 0xff00 / 2 ^ Int.toNat 8) ++ '.' ::
            decimal (longAnd m 0xff / 2 ^ Int.toNat 0))) = dottedQuad m := by
  have h₁ := @longAnd_part m 40 24 (-0x1000000) hm (by decide) (by decide)
  have h₂ := @longAnd_part m 8 16 0xff0000 hm (by decide) (by decide)
  have h₃ := @longAnd_part m 8 8 0xff00 hm (by decide) (by decide)
  have h₄ := @longAnd_part m 8 0 0xff hm (by decide) (by decide)
  -- the first mask keeps more than an octet, but the address has no more
  rw [show m / 2 ^ 24 % 2 ^ 40 = m / 2 ^ 24 % 256 by omega] at h₁
  rw [show m / 2 ^ 0 % 2 ^ 8 = m % 256 by omega] at h₄
  rw [show (2 : Int) ^ Int.toNat 24 = 2 ^ 24 from rfl, h₁,
    show (2 : Int) ^ Int.toNat 16 = 2 ^ 16 from rfl, h₂,
    show (2 : Int) ^ Int.toNat 8 = 2 ^ 8 from rfl, h₃,
    show (2 : Int) ^ Int.toNat 0 = 2 ^ 0 from rfl, h₄]
  simp only [decimal_natCast]
  exact (dottedQuad_eq m).symm

/-- Host bits are cleared and the address is printed; without any the text stays. -/
theorem normaliseResult_of_isDottedQuad {text : Text} {n len : Nat} (h : IsDottedQuad text n)
    (hlen : len ≤ 32) :
    normaliseResult ⟨text, len⟩ =
      .ok (if HasHostBits n len then (true, ⟨dottedQuad (networkAddress n len), len⟩)
        else (false, ⟨text, len⟩)) := by
  have hle := networkAddress_le n len
  have hsame : ((networkAddress n len : Nat) : Int) = n ↔ ¬HasHostBits n len :=
    Int.natCast_inj.trans (networkAddress_eq_iff n len)
  simp only [normaliseResult, getInt_of_isDottedQuad h, longAnd_networkMask h.lt hlen, bind,
    Except.bind]
  by_cases hhost : HasHostBits n len
  · have hm : networkAddress n len < 2 ^ 32 := Nat.lt_of_le_of_lt hle h.lt
    rw [if_pos hhost, if_pos (fun heq => hsame.mp heq hhost), dottedQuad_eq_parts hm]
    rfl
  · rw [if_neg hhost, if_neg (not_not.mpr (hsame.mpr hhost))]
    rfl

/-- The bits of the host are cleared. -/
theorem normalise_dottedQuad {n : Nat} (hn : n < 2 ^ 32) {len : Nat} (hlen : len ≤ 32) :
    normalise ⟨dottedQuad n, len⟩ =
      .ok ⟨dottedQuad (n / 2 ^ (32 - len) * 2 ^ (32 - len)), len⟩ := by
  rw [normalise_eq, normaliseResult_of_isDottedQuad (isDottedQuad_dottedQuad hn) hlen]
  by_cases hhost : HasHostBits n len
  · rw [if_pos hhost]
    rfl
  · have hsame : n / 2 ^ (32 - len) * 2 ^ (32 - len) = n := (networkAddress_eq_iff n len).mpr hhost
    rw [if_neg hhost, hsame]
    rfl

end CIDRIP

end OpenVpnAndroid
