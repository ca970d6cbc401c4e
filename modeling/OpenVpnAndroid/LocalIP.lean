/-
  OpenVpnAndroid/LocalIP.lean
  ===========================
  **The address of the interface, and the route of its network.**

  The second argument of `setLocalIP` is a netmask or the other end of a small network,
  which is told by its bits.  Android does not route the network of the interface into
  the VPN, so a route is added for it: with the bits of the host cleared it has the
  interface's own address, and the other end too (`setLocalIP_coversLink`).
-/
import OpenVpnAndroid.DottedQuad

namespace OpenVpnAndroid

/-! ### The link -/

/-- The prefix length of a small network with two ends. -/
def smallNetwork (mode : Text) : Nat := if mode = ("net30" : Text) then 30 else 31

/-- Two addresses are in the same block of this prefix length. -/
def SameBlock (a b : BitVec 32) (len : Nat) : Prop :=
  a.toNat / 2 ^ (32 - len) = b.toNat / 2 ^ (32 - len)

instance (a b : BitVec 32) (len : Nat) : Decidable (SameBlock a b len) :=
  inferInstanceAs (Decidable (_ = _))

/-- The prefix length of an interface. -/
structure InterfaceLength (address argument : BitVec 32) (mode : Text) (len : Nat) : Prop where
  netmask : ∀ n, IsNetmask argument.toNat n → len = n
  peer : (∀ n, ¬IsNetmask argument.toNat n) →
    len = if SameBlock argument address (smallNetwork mode) then smallNetwork mode else 32

/-- The address is in the network of the route. -/
def TunRoute.Has (route : TunRoute true) (a : BitVec 32) : Prop :=
  route.getFirstAddress ≤ a.toNat ∧ a.toNat ≤ route.getLastAddress

/-- The routes of a configuration that had none: the network of the interface. -/
structure CoversLink (address argument : BitVec 32) (len : Nat) (routes : List (TunRoute true)) :
    Prop where
  route : len ≤ 31 → ∃ route, routes = [route] ∧ route.included = true ∧
    route.networkMask = len ∧ (2 ^ (32 - len) : Int) ∣ route.netAddress ∧ route.Has address ∧
    ((∀ n, ¬IsNetmask argument.toNat n) → route.Has argument)
  host : 31 < len → routes = []

namespace Collecting

/-! ### Methods, step by step -/

section Run

variable {c : Collecting} {α β : Type}

theorem run_lift {x : Java α} {a : α} (h : x = .ok a) (rest : α → Code β) :
    ((liftM x >>= rest : Code β).run.run c) = (rest a).run.run c := by
  rw [h]
  rfl

theorem run_modifyConfig (f : TunConfig → TunConfig) (rest : Unit → Code β) :
    ((modifyConfig f >>= rest).run.run c) =
      (rest ()).run.run { c with tunConfig := f c.tunConfig } := rfl

theorem run_modify (f : Collecting → Collecting) (rest : Unit → Code β) :
    ((modify f >>= rest : Code β).run.run c) = (rest ()).run.run (f c) := rfl

theorem run_addIP {ip : CIDRIP} {included : Bool} {route : TunRoute true}
    (h : TunRoute.ofCIDRIP ip included = .ok route) (rest : Unit → Code β) :
    ((addIP ip included >>= rest).run.run c) = (rest ()).run.run { c with
      tunConfig := { c.tunConfig with mRoutes := route.treeAdd c.tunConfig.mRoutes } } := by
  rw [addIP, bind_assoc, run_lift h]
  rfl

end Run

/-! ### The length -/

/-- The other end is in the same small network. -/
theorem smallNetLength_eq (address argument : BitVec 32) (mode : Text) :
    smallNetLength argument.toNat address.toNat mode =
      (if SameBlock argument address (smallNetwork mode) then smallNetwork mode else 32 : Nat) := by
  have hsame : ∀ {k : Nat} {mask : Int}, k ≤ 32 →
      BitVec.ofInt 64 mask = BitVec.ofNat 64 ((2 ^ (64 - k) - 1) * 2 ^ k) →
      (longAnd argument.toNat mask = longAnd address.toNat mask ↔
        argument.toNat / 2 ^ k = address.toNat / 2 ^ k) := by
    intro k mask hk hmask
    rw [longAnd_high argument.isLt hk hmask, longAnd_high address.isLt hk hmask, Nat.cast_inj]
    exact Nat.mul_right_cancel_iff (Nat.two_pow_pos k)
  have hnet30 := @hsame 2 (-4) (by decide) (by decide)
  have hother := @hsame 1 (-2) (by decide) (by decide)
  rw [smallNetLength, smallNetwork]
  by_cases hmode : mode = ("net30" : Text)
  · simp only [hmode, if_true, SameBlock, hnet30]
    split_ifs <;> rfl
  · simp only [hmode, if_false, SameBlock, hother]
    split_ifs <;> rfl

theorem setLocalIP_run {c : Collecting} {localIP netmask mode : Text} {mtu a b len₀ len : Int}
    {ip : CIDRIP} {route : TunRoute true}
    (hmask : CIDRIP.calculateLenFromMask netmask = .ok len₀)
    (hb : CIDRIP.getInt netmask = .ok b) (ha : CIDRIP.getInt localIP = .ok a)
    (hlen : len = if len₀ = 32 ∧ netmask ≠ ("255.255.255.255" : Text) then
      smallNetLength b a mode else len₀)
    (hip : CIDRIP.normalise ⟨localIP, len⟩ = .ok ip)
    (hroute : TunRoute.ofCIDRIP ip true = .ok route) :
    (setLocalIP localIP netmask mtu mode).run.run c = (.ok (), {
      tunConfig := { c.tunConfig with
        mLocalIP := some ⟨localIP, len⟩
        mMtu := mtu
        mRoutes := if len ≤ 31 then route.treeAdd c.tunConfig.mRoutes else c.tunConfig.mRoutes }
      mRemoteGW := some netmask }) := by
  have hofMask : CIDRIP.ofMask localIP netmask = .ok ⟨localIP, len₀⟩ := by
    rw [CIDRIP.ofMask, hmask]
    rfl
  rw [setLocalIP, run_lift hofMask, run_modifyConfig, run_modify, run_lift hb]
  split_ifs at hlen with hsmall
  · subst hlen
    simp only [if_pos hsmall]
    rw [run_lift ha, run_modifyConfig]
    split_ifs with hle
    · rw [run_lift hip, run_addIP hroute]
      rfl
    · rfl
  · subst hlen
    simp only [if_neg hsmall]
    split_ifs with hle
    · rw [run_lift hip, run_addIP hroute]
      rfl
    · rfl

/-- The length that the method comes to. -/
theorem exists_interfaceLength (address argument : BitVec 32) (mode : Text) :
    ∃ (len₀ : Int) (len : Nat),
      CIDRIP.calculateLenFromMask (dottedQuad argument.toNat) = .ok len₀ ∧ len ≤ 32 ∧
      InterfaceLength address argument mode len ∧
      (len : Int) = if len₀ = 32 ∧ dottedQuad argument.toNat ≠ ("255.255.255.255" : Text) then
        smallNetLength argument.toNat address.toNat mode else len₀ := by
  by_cases hmask : ∃ n, IsNetmask argument.toNat n
  · obtain ⟨n, hn⟩ := hmask
    refine ⟨n, n, CIDRIP.calculateLenFromMask_netmask hn, hn.1, ⟨fun n' hn' => ?_, ?_⟩, ?_⟩
    · exact hn.unique hn'
    · exact fun hpeer => absurd hn (hpeer n)
    · refine (if_neg ?_).symm
      rintro ⟨h32, hquad⟩
      obtain rfl : n = 32 := by exact_mod_cast h32
      exact hquad (by rw [hn.2]; rfl)
  · have hpeer : ∀ n, ¬IsNetmask argument.toNat n := not_exists.mp hmask
    refine ⟨32, if SameBlock argument address (smallNetwork mode) then smallNetwork mode else 32,
      CIDRIP.calculateLenFromMask_other argument.isLt hpeer, ?_,
      ⟨fun n hn => absurd hn (hpeer n), fun _ => rfl⟩, ?_⟩
    · rw [smallNetwork]
      split_ifs <;> decide
    · have hnot : dottedQuad argument.toNat ≠ ("255.255.255.255" : Text) := by
        intro hquad
        have hall : dottedQuad argument.toNat = dottedQuad (2 ^ 32 - 1) := hquad
        have hones := dottedQuad_injective argument.isLt (by decide) hall
        exact hpeer 32 ⟨le_rfl, hones⟩
      rw [if_pos (And.intro rfl hnot), smallNetLength_eq]

end Collecting

/-! ### The route -/

/-- The network of the interface. -/
def interfaceRoute (address : BitVec 32) (len : Nat) : TunRoute true :=
  ⟨(address.toNat / 2 ^ (32 - len) * 2 ^ (32 - len) : Nat), len, true⟩

theorem has_interfaceRoute (address a : BitVec 32) {len : Nat} (hlen : len ≤ 32) :
    (interfaceRoute address len).Has a ↔ SameBlock a address len := by
  have hbits : (interfaceRoute address len).numBits = 32 - len := by
    show ((32 : Int) - len).toNat = 32 - len
    omega
  have hpos := Nat.two_pow_pos (32 - len)
  have hfirst : (interfaceRoute address len).getFirstAddress =
      ((address.toNat / 2 ^ (32 - len) * 2 ^ (32 - len) : Nat) : Int) := by
    rw [TunRoute.getFirstAddress, hbits, interfaceRoute]
    push_cast
    rw [Int.mul_ediv_cancel _ (by positivity)]
  have hsize : (2 : Int) ^ (32 - len) = ((2 ^ (32 - len) : Nat) : Int) := by
    push_cast
    rfl
  rw [TunRoute.Has, TunRoute.getLastAddress, hfirst, hbits, hsize, SameBlock,
    Nat.div_eq_iff hpos]
  generalize address.toNat / 2 ^ (32 - len) * 2 ^ (32 - len) = first
  generalize 2 ^ (32 - len) = size at hpos
  omega

theorem ofCIDRIP_interface (address : BitVec 32) (len : Nat) :
    TunRoute.ofCIDRIP
        ⟨dottedQuad (address.toNat / 2 ^ (32 - len) * 2 ^ (32 - len)), len⟩ true =
      .ok (interfaceRoute address len) := by
  have hle := Nat.div_mul_le_self address.toNat (2 ^ (32 - len))
  rw [TunRoute.ofCIDRIP, CIDRIP.getInt_dottedQuad (by omega)]
  rfl

theorem coversLink_interfaceRoute {address argument : BitVec 32} {mode : Text} {len : Nat}
    (hlen : len ≤ 32) (h : InterfaceLength address argument mode len) :
    CoversLink address argument len (if len ≤ 31 then [interfaceRoute address len] else []) := by
  constructor
  · intro hle
    rw [if_pos hle]
    refine ⟨_, rfl, rfl, rfl, ?_, ?_, fun hpeer => ?_⟩
    · rw [interfaceRoute]
      push_cast
      exact Int.dvd_mul_left _ _
    · exact (has_interfaceRoute address address hlen).mpr rfl
    · rw [has_interfaceRoute address argument hlen]
      have hsmall := h.peer hpeer
      split_ifs at hsmall with hsame
      · rwa [hsmall]
      · omega
  · intro hhost
    exact if_neg (by omega)

/-- The interface has the length of the netmask, or of the small network that it shares with
    the other end, and its network is routed. -/
theorem setLocalIP_coversLink (c : Collecting) (hroutes : c.tunConfig.mRoutes = [])
    (address argument : BitVec 32) (mtu : Int) (mode : Text) :
    ∃ c' len, ((Collecting.setLocalIP (dottedQuad address.toNat) (dottedQuad argument.toNat) mtu
        mode).run.run c) = (.ok (), c') ∧
      c'.tunConfig.mLocalIP = some ⟨dottedQuad address.toNat, (len : Nat)⟩ ∧
      InterfaceLength address argument mode len ∧
      CoversLink address argument len c'.tunConfig.mRoutes := by
  obtain ⟨len₀, len, hmask, hle, hinterface, hlen⟩ :=
    Collecting.exists_interfaceLength address argument mode
  have hrun := @Collecting.setLocalIP_run c _ _ mode mtu _ _ _ _ _ _ hmask
    (CIDRIP.getInt_dottedQuad argument.isLt) (CIDRIP.getInt_dottedQuad address.isLt) hlen
    (CIDRIP.normalise_dottedQuad address.isLt hle) (ofCIDRIP_interface address len)
  have hcovers := coversLink_interfaceRoute hle hinterface
  refine ⟨_, len, hrun, rfl, hinterface, ?_⟩
  simp only [hroutes, TunRoute.treeAdd]
  exact_mod_cast hcovers

theorem setLocalIP_coversLink_net30 :
    let c : Collecting := ⟨{}, none⟩
    let address : BitVec 32 := 0x0a080006
    let argument : BitVec 32 := 0x0a080005
    dottedQuad address.toNat = ("10.8.0.6" : Text) ∧ ∃ c' len,
      ((Collecting.setLocalIP (dottedQuad address.toNat) (dottedQuad argument.toNat) 1500
        "net30").run.run c) = (.ok (), c') ∧
      c'.tunConfig.mLocalIP = some ⟨dottedQuad address.toNat, (len : Nat)⟩ ∧
      InterfaceLength address argument "net30" len ∧
      CoversLink address argument len c'.tunConfig.mRoutes :=
  ⟨by decide, setLocalIP_coversLink ⟨{}, none⟩ rfl 0x0a080006 0x0a080005 1500 "net30"⟩

end OpenVpnAndroid
