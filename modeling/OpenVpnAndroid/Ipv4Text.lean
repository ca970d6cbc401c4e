/-
  OpenVpnAndroid/Ipv4Text.lean
  ============================
  **IPv4 addresses as texts: `normalise`, and netmasks against prefix lengths.**

  `normalise` leaves the network of a dotted quad as it is and clears the bits behind
  the prefix (`normalise_network`).

  `calculateLenFromMask` finds the length below 32 whose netmask
  `cidrToIPAndNetmask` prints; every other mask has the length 32
  (`calculateLenFromMask_iff_prints`).
-/
import OpenVpnAndroid.CheckedConfig
import OpenVpnAndroid.DottedQuad
import OpenVpnAndroid.NetworkBlock

namespace OpenVpnAndroid

/-! ### Networks -/

/-- The network is that of the address itself. -/
theorem contains_networkAddress (n len : Nat) (included : Bool) (a : Nat) :
    IpAddress.Contains ⟨networkAddress n len, len, included, true⟩ a ↔
      IpAddress.Contains ⟨n, len, included, true⟩ a := by
  have hblock : networkAddress n len / 2 ^ (32 - len) = n / 2 ^ (32 - len) :=
    Nat.mul_div_cancel _ (Nat.two_pow_pos _)
  rw [IpAddress.contains_iff, IpAddress.contains_iff]
  show a / 2 ^ (32 - len) = networkAddress n len / 2 ^ (32 - len) ↔
    a / 2 ^ (32 - len) = n / 2 ^ (32 - len)
  rw [hblock]

namespace CIDRIP

theorem ofCIDRIP_of_isDottedQuad {text : Text} {n : Nat} (h : IsDottedQuad text n) (len : Nat)
    (included : Bool) :
    TunRoute.ofCIDRIP ⟨text, len⟩ included =
      .ok (TunRoute.ofIpAddress true ⟨n, len, included, true⟩) := by
  rw [TunRoute.ofCIDRIP, getInt_of_isDottedQuad h]
  rfl

/-- The texts before and after have networks with the same addresses. -/
def SameNetwork (c c' : CIDRIP) : Prop :=
  ∀ included, ∃ net net' : IpAddress,
    TunRoute.ofCIDRIP c included = .ok (TunRoute.ofIpAddress true net) ∧
    TunRoute.ofCIDRIP c' included = .ok (TunRoute.ofIpAddress true net') ∧
    net.Valid true ∧ net'.Valid true ∧ ∀ a, net'.Contains a ↔ net.Contains a

/-- What `normalise` comes to for a text with the address `n`. -/
structure Normalised (text : Text) (n len : Nat) (changed : Bool) (text' : Text) (m : Nat) :
    Prop where
  result : normaliseResult ⟨text, len⟩ = .ok (changed, ⟨text', len⟩)
  sameNetwork : SameNetwork ⟨text, len⟩ ⟨text', len⟩
  noHostBits : ¬HasHostBits m len
  idempotent : normaliseResult ⟨text', len⟩ = .ok (false, ⟨text', len⟩)
  changed_iff : changed = true ↔ HasHostBits n len
  reads : getInt text' = .ok (m : Int)
  inRange : m < 2 ^ 32

theorem normalised_of_isDottedQuad {text : Text} {n len : Nat} (h : IsDottedQuad text n)
    (hlen : len ≤ 32) : ∃ changed text' m, Normalised text n len changed text' m := by
  have hresult := normaliseResult_of_isDottedQuad h hlen
  have hnet := ofCIDRIP_of_isDottedQuad h len
  by_cases hhost : HasHostBits n len
  · rw [if_pos hhost] at hresult
    have hm : networkAddress n len < 2 ^ 32 := Nat.lt_of_le_of_lt (networkAddress_le n len) h.lt
    have hquad := isDottedQuad_dottedQuad hm
    have hclear := not_hasHostBits_networkAddress n len
    have hagain := normaliseResult_of_isDottedQuad hquad hlen
    rw [if_neg hclear] at hagain
    refine ⟨_, _, _, hresult, fun included => ?_, hclear, hagain, iff_of_true rfl hhost,
      getInt_dottedQuad hm, hm⟩
    exact ⟨_, _, hnet included, ofCIDRIP_of_isDottedQuad hquad len included, ⟨rfl, hlen⟩,
      ⟨rfl, hlen⟩, contains_networkAddress n len included⟩
  · rw [if_neg hhost] at hresult
    refine ⟨_, _, n, hresult, fun included => ?_, hhost, hresult,
      iff_of_false Bool.false_ne_true hhost, getInt_of_isDottedQuad h, h.lt⟩
    exact ⟨_, _, hnet included, hnet included, ⟨rfl, hlen⟩, ⟨rfl, hlen⟩, fun _ => Iff.rfl⟩

/-- The network stays, its host bits go, and every address that is printed is read back. -/
theorem normalise_network {text : Text} {n len : Nat} (h : IsDottedQuad text n)
    (hlen : len ≤ 32) :
    (∃ changed text' m, Normalised text n len changed text' m) ∧
    (∀ included route, TunRoute.ofCIDRIP ⟨text, len⟩ included = .ok route →
      0 ≤ route.netAddress ∧ route.netAddress < 2 ^ 32 ∧
      getInt (TunRoute.getIPv4Address route.netAddress) = .ok route.netAddress) ∧
    ∀ ip : Nat, ip < 2 ^ 32 → getInt (TunRoute.getIPv4Address ip) = .ok (ip : Int) := by
  refine ⟨normalised_of_isDottedQuad h hlen, fun included route hroute => ?_,
    fun ip hip => getInt_dottedQuad hip⟩
  rw [ofCIDRIP_of_isDottedQuad h len included] at hroute
  obtain rfl := Except.ok.inj hroute
  have hlt := h.lt
  exact ⟨Int.natCast_nonneg n, Int.ofNat_lt.mpr hlt, getInt_dottedQuad hlt⟩

/-- `192.168.001.77/24`: three octets stay. -/
theorem normalise_network_private :
    let text : Text := "192.168.001.77"
    normaliseResult ⟨text, 24⟩ = .ok (true, ⟨"192.168.1.0", 24⟩) ∧
    (∃ changed text' m, Normalised text 0xc0a8014d 24 changed text' m) ∧
    (∀ included route, TunRoute.ofCIDRIP ⟨text, (24 : Nat)⟩ included = .ok route →
      0 ≤ route.netAddress ∧ route.netAddress < 2 ^ 32 ∧
      getInt (TunRoute.getIPv4Address route.netAddress) = .ok route.netAddress) ∧
    ∀ ip : Nat, ip < 2 ^ 32 → getInt (TunRoute.getIPv4Address ip) = .ok (ip : Int) := by
  have hquad : IsDottedQuad ("192.168.001.77" : Text) 0xc0a8014d :=
    @IsDottedQuad.quad "192" "168" "001" "77" 192 168 1 77 (by decide) (by decide) (by decide)
      (by decide)
  exact ⟨by decide, normalise_network hquad (by decide)⟩

end CIDRIP

/-! ### Netmasks -/

/-- `%d.%d.%d.%d` of four octets -/
def quadText (a b c d : Fin 256) : Text :=
  decimal (a : Nat) ++ '.' :: (decimal (b : Nat) ++ '.' :: (decimal (c : Nat) ++ '.' ::
    decimal (d : Nat)))

/-- The address of four octets. -/
def quadAddress (a b c d : Fin 256) : Nat := a * 2 ^ 24 + b * 2 ^ 16 + c * 2 ^ 8 + d

section Octets

variable (a b c d : Fin 256)

theorem quadAddress_lt : quadAddress a b c d < 2 ^ 32 := by
  rw [quadAddress]
  omega

theorem quadText_eq : quadText a b c d = dottedQuad (quadAddress a b c d) := by
  have ha : quadAddress a b c d / 2 ^ 24 % 256 = a := by rw [quadAddress]; omega
  have hb : quadAddress a b c d / 2 ^ 16 % 256 = b := by rw [quadAddress]; omega
  have hc : quadAddress a b c d / 2 ^ 8 % 256 = c := by rw [quadAddress]; omega
  have hd : quadAddress a b c d % 256 = d := by rw [quadAddress]; omega
  rw [dottedQuad_eq, ha, hb, hc, hd]
  simp only [quadText, decimal_natCast]

end Octets

namespace VpnProfile

theorem netmask_eq {len : Nat} (hlen : len ≤ 32) :
    netmask len = dottedQuad (2 ^ 32 - 2 ^ (32 - len)) := by
  have hall : ∀ len ≤ 32, (0xffffffff <<< (32 - len)) &&& 0xffffffff =
      2 ^ 32 - 2 ^ (32 - len) := by decide
  rw [dottedQuad_eq]
  simp only [netmask, hall len hlen, Nat.shiftRight_eq_div_pow, decimal_natCast, Nat.pow_zero,
    Nat.div_one, List.append_assoc]
  rfl

/-- `cidrToIPAndNetmask` prints the mask for this prefix length, after any address. -/
def PrintsNetmask (len : Nat) (mask : Text) : Prop :=
  ∀ ip : Text, '/' ∉ ip → cidrToIPAndNetmask (ip ++ '/' :: decimal len) =
    some (ip ++ ("  " : Text) ++ mask)

theorem cidrToIPAndNetmask_decimal {ip : Text} (hip : '/' ∉ ip) {len : Nat} (hlen : len ≤ 32) :
    cidrToIPAndNetmask (ip ++ '/' :: decimal len) = some (ip ++ ("  " : Text) ++ netmask len) := by
  have hslash : '/' ∉ decimal len :=
    notMem_of_subset (decimal_subset len) (by decide)
  have hparts := split_append_slash ip hslash (decimal_ne_nil len)
  rw [pieces_of_none (fun c hc => by rw [beq_eq_false_iff_ne]; rintro rfl; exact hip hc)] at hparts
  refine (cidrToIPAndNetmask_of_parts hparts).mpr ⟨len, ?_, hlen, rfl⟩
  rw [decimal_natCast]
  exact parseSigned_toDigits (Nat.lt_of_le_of_lt hlen (by decide))

theorem printsNetmask_iff {len : Nat} (hlen : len ≤ 32) {mask : Text} :
    PrintsNetmask len mask ↔ mask = dottedQuad (2 ^ 32 - 2 ^ (32 - len)) := by
  rw [← netmask_eq hlen]
  constructor
  · intro hprints
    have hnil : '/' ∉ ([] : Text) := List.not_mem_nil
    have heq := (hprints [] hnil).symm.trans (cidrToIPAndNetmask_decimal hnil hlen)
    exact List.append_cancel_left (Option.some.inj heq)
  · rintro rfl ip hip
    exact cidrToIPAndNetmask_decimal hip hlen

end VpnProfile

namespace CIDRIP

theorem calculateLenFromMask_congr {mask mask' : Text} (h : getInt mask = getInt mask') :
    calculateLenFromMask mask = calculateLenFromMask mask' := by
  rw [calculateLenFromMask, calculateLenFromMask, h]

/-- Below 32 the length is that of the netmask. -/
theorem calculateLenFromMask_iff {n p : Nat} (hn : n < 2 ^ 32) (hp : p < 32) :
    calculateLenFromMask (dottedQuad n) = .ok (p : Int) ↔ IsNetmask n p := by
  refine ⟨fun hlen => ?_, calculateLenFromMask_netmask⟩
  by_cases hmask : ∃ len, IsNetmask n len
  · obtain ⟨len, h⟩ := hmask
    have heq := (calculateLenFromMask_netmask h).symm.trans hlen
    obtain rfl : len = p := by exact_mod_cast Except.ok.inj heq
    exact h
  · have heq := (calculateLenFromMask_other hn (not_exists.mp hmask)).symm.trans hlen
    have h32 : 32 = p := by exact_mod_cast Except.ok.inj heq
    omega

theorem calculateLenFromMask_host_iff {n : Nat} (hn : n < 2 ^ 32) :
    calculateLenFromMask (dottedQuad n) = .ok 32 ↔ n = 2 ^ 32 - 1 ∨ ∀ len, ¬IsNetmask n len := by
  by_cases hmask : ∃ len, IsNetmask n len
  · obtain ⟨len, h⟩ := hmask
    rw [calculateLenFromMask_netmask h]
    constructor
    · intro heq
      obtain rfl : len = 32 := by exact_mod_cast Except.ok.inj heq
      exact .inl h.2
    · rintro (hall | hnone)
      · rw [h.unique ⟨le_rfl, hall⟩]
        rfl
      · exact absurd h (hnone len)
  · have hnone := not_exists.mp hmask
    exact iff_of_true (calculateLenFromMask_other hn hnone) (.inr hnone)

theorem printsNetmask_iff_isNetmask {n p : Nat} (hn : n < 2 ^ 32) (hp : p ≤ 32) :
    VpnProfile.PrintsNetmask p (dottedQuad n) ↔ IsNetmask n p := by
  have hpos := Nat.two_pow_pos (32 - p)
  rw [VpnProfile.printsNetmask_iff hp]
  constructor
  · intro heq
    exact ⟨hp, dottedQuad_injective hn (by omega) heq⟩
  · rintro ⟨-, rfl⟩
    rfl

theorem exists_calculateLenFromMask {n : Nat} (hn : n < 2 ^ 32) :
    ∃ len : Nat, len ≤ 32 ∧ calculateLenFromMask (dottedQuad n) = .ok (len : Int) := by
  by_cases hmask : ∃ len, IsNetmask n len
  · obtain ⟨len, h⟩ := hmask
    exact ⟨len, h.1, calculateLenFromMask_netmask h⟩
  · exact ⟨32, le_rfl, calculateLenFromMask_other hn (not_exists.mp hmask)⟩

/-- The length is below 32 for the netmask that is printed for it, and 32 for every other
    mask; leading zeros in the mask change nothing. -/
theorem calculateLenFromMask_iff_prints (a b c d : Fin 256) :
    (∃ len : Nat, len ≤ 32 ∧ calculateLenFromMask (quadText a b c d) = .ok (len : Int)) ∧
    (∀ p : Nat, p < 32 → (calculateLenFromMask (quadText a b c d) = .ok (p : Int) ↔
      VpnProfile.PrintsNetmask p (quadText a b c d))) ∧
    (calculateLenFromMask (quadText a b c d) = .ok 32 ↔
      ∀ p : Nat, p < 32 → ¬VpnProfile.PrintsNetmask p (quadText a b c d)) ∧
    (calculateLenFromMask (quadText a b c d) = .ok 32 ↔
      quadText a b c d = "255.255.255.255" ∨ ∀ len, ¬IsNetmask (quadAddress a b c d) len) ∧
    ∀ mask, IsDottedQuad mask (quadAddress a b c d) →
      calculateLenFromMask mask = calculateLenFromMask (quadText a b c d) := by
  have hn := quadAddress_lt a b c d
  rw [quadText_eq]
  generalize quadAddress a b c d = n at hn ⊢
  have hbelow : ∀ p : Nat, p < 32 → (calculateLenFromMask (dottedQuad n) = .ok (p : Int) ↔
      VpnProfile.PrintsNetmask p (dottedQuad n)) := fun p hp =>
    (calculateLenFromMask_iff hn hp).trans (printsNetmask_iff_isNetmask hn hp.le).symm
  obtain ⟨len, hle, hlen⟩ := exists_calculateLenFromMask hn
  refine ⟨⟨len, hle, hlen⟩, hbelow, ?_, ?_, fun mask hmask => ?_⟩
  · constructor
    · intro h32 p hp hprints
      have heq := h32.symm.trans ((hbelow p hp).mpr hprints)
      have hp32 : 32 = p := by exact_mod_cast Except.ok.inj heq
      omega
    · intro hnone
      by_cases hlt : len < 32
      · exact absurd ((hbelow len hlt).mp hlen) (hnone len hlt)
      · obtain rfl : len = 32 := by omega
        exact hlen
  · have hall : dottedQuad n = "255.255.255.255" ↔ n = 2 ^ 32 - 1 := by
      constructor
      · exact fun heq => dottedQuad_injective hn (by decide) heq
      · rintro rfl
        rfl
    rw [hall]
    exact calculateLenFromMask_host_iff hn
  · exact calculateLenFromMask_congr
      ((getInt_of_isDottedQuad hmask).trans (getInt_dottedQuad hn).symm)

end CIDRIP

end OpenVpnAndroid
