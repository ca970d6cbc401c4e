/-
  OpenVpnAndroid/RouteList.lean
  =============================
  **The routes of OpenVPN** (`route.c`), as they are on Android.

  A route option has a network, a netmask and a gateway, each a text that may be a name
  for a special address.  The default gateway of the system is not known there and stands
  for itself with a fixed address, so that the app can tell the routes that are to stay
  outside the VPN.
-/
import OpenVpnAndroid.LocalIP

namespace OpenVpnAndroid

/-! ### Options -/

/-- `struct route_option`; `none` is `NULL`. -/
structure RouteOption where
  network : Option Text
  netmask : Option Text
  gateway : Option Text
  metric : Option Text
deriving DecidableEq, Repr

/-- `struct route_option_list` with two of its flags. -/
structure RouteOptionList where
  /-- `RG_ENABLE` -/
  enable : Bool
  /-- `RG_REROUTE_GW` -/
  rerouteGw : Bool
  routes : List RouteOption
deriving DecidableEq, Repr

/-- `struct route_ipv4`, of those that are `RT_DEFINED`. -/
structure RouteIpv4 where
  network : BitVec 32
  netmask : BitVec 32
  gateway : BitVec 32
deriving DecidableEq, Repr

/-- `struct route_list`; what is not there is not defined by its flags. -/
structure RouteList where
  enable : Bool
  rerouteGw : Bool
  remote_host : Option (BitVec 32)
  remote_endpoint : Option (BitVec 32)
  routes : List RouteIpv4
deriving DecidableEq, Repr

/-- The gateway of `get_default_gateway`: 127.'d'.'g'.'w'. -/
def default_gateway : BitVec 32 := 127 <<< 24 ||| 0x64 <<< 16 ||| 0x67 <<< 8 ||| 0x77

/-- `rgi->iface` -/
def android_gw : Text := "android-gw"

/-- What the resolver of the system says: all addresses of a host, or the first one.  The flag
    is `GETADDR_RESOLVE`; without it only numbers are read. -/
structure Resolver where
  openvpn_getaddrinfo : Bool → Text → Option (List (BitVec 32))
  getaddr : Bool → Text → Option (BitVec 32)

/-! ### Parameters -/

/-- The parameter, if `is_route_parm_defined`. -/
def is_route_parm_defined (parm : Option Text) : Option Text :=
  parm.filter fun parm => parm ≠ ("default" : Text)

/-- `isspace` -/
def isspace (c : Char) : Bool := c == ' ' || (9 ≤ c.toNat && c.toNat ≤ 13)

/-- The number in front of a text. -/
def leadingNumber (s : Text) : Nat :=
  (s.takeWhile fun c => '0' ≤ c ∧ c ≤ '9').foldl (fun n c => 10 * n + (c.toNat - 48)) 0

def atoi (s : Text) : Int :=
  match s.dropWhile isspace with
  | '-' :: s => -leadingNumber s
  | '+' :: s => leadingNumber s
  | s => leadingNumber s

namespace RouteList

/-- `get_special_addr`: nothing for an ordinary text, and no address for a special one that is
    not defined. -/
def get_special_addr (rl : RouteList) (string : Text) : Option (Option (BitVec 32)) :=
  if string = ("vpn_gateway" : Text) then some rl.remote_endpoint
  else if string = ("net_gateway" : Text) then some (some default_gateway)
  else if string = ("remote_host" : Text) then some rl.remote_host
  else none

variable (resolver : Resolver) (rl : RouteList)

def networkList (network : Text) : Option (List (BitVec 32)) :=
  match rl.get_special_addr network with
  | some none => none
  | some (some special) => resolver.openvpn_getaddrinfo false (dottedQuad special.toNat)
  | none => resolver.openvpn_getaddrinfo true network

def netmaskOf (netmask : Option Text) : Option (BitVec 32) :=
  match is_route_parm_defined netmask with
  | some netmask => resolver.getaddr false netmask
  | none => some 0xffffffff

def gatewayOf (gateway : Option Text) : Option (BitVec 32) :=
  match is_route_parm_defined gateway with
  | some gateway =>
      match rl.get_special_addr gateway with
      | some special => special
      | none => resolver.getaddr true gateway
  | none => rl.remote_endpoint

/-- `r->metric` is not negative. -/
def metricOk (metric : Option Text) : Bool :=
  match is_route_parm_defined metric with
  | some metric => 0 ≤ atoi metric
  | none => true

/-- `init_route`, for all addresses of the network. -/
def init_route (ro : RouteOption) : Option (List RouteIpv4) := do
  let network ← is_route_parm_defined ro.network
  let network_list ← rl.networkList resolver network
  let netmask ← netmaskOf resolver ro.netmask
  let gateway ← rl.gatewayOf resolver ro.gateway
  if metricOk ro.metric then
    return network_list.map fun network => ⟨network, netmask, gateway⟩
  else none

/-- The last loop of `init_route_list`; each route goes in front of the others. -/
def addOptions : List RouteOption → Bool × RouteList → Bool × RouteList
  | [], r => r
  | ro :: opts, (ret, rl) =>
      match rl.init_route resolver ro with
      | none => addOptions opts (false, rl)
      | some rs => addOptions opts (ret, { rl with routes := rs.reverse ++ rl.routes })

end RouteList

open RouteList in
/-- `init_route_list`.  The default gateway has no netmask, so `add_block_local` does nothing. -/
def init_route_list (resolver : Resolver) (opt : RouteOptionList)
    (remote_endpoint : Option Text) (remote_host : Option (BitVec 32)) : Bool × RouteList :=
  let rl : RouteList := ⟨opt.enable, opt.rerouteGw, remote_host, none, []⟩
  match is_route_parm_defined remote_endpoint with
  | none => addOptions resolver opt.routes (true, rl)
  | some text =>
      match resolver.getaddr true text with
      | none => addOptions resolver opt.routes (false, rl)
      | some endpoint =>
          addOptions resolver opt.routes (true, { rl with remote_endpoint := some endpoint })

/-- `--topology` -/
inductive Topology where
  | undef
  | net30
  | p2p
  | subnet
deriving DecidableEq, Repr

/-- The text in `do_ifconfig_ipv4`. -/
def Topology.text : Topology → Text
  | net30 => "net30"
  | p2p => "p2p"
  | subnet => "subnet"
  | undef => "undef"

/-- `do_init_route_list`, for a tun device. -/
def do_init_route_list (resolver : Resolver) (opt : RouteOptionList) (topology : Topology)
    (ifconfig_remote_netmask route_default_gateway : Option Text)
    (remote_host : Option (BitVec 32)) : Bool × RouteList :=
  let gw := if topology = .net30 ∨ topology = .p2p then ifconfig_remote_netmask else none
  let gw := if route_default_gateway.isSome then route_default_gateway else gw
  init_route_list resolver opt gw remote_host

/-! ### IPv6 -/

/-- `struct route_ipv6`, of those that are `RT_DEFINED`. -/
structure RouteIpv6 where
  network : BitVec 128
  netbits : Nat
  netbits_le : netbits ≤ 128
deriving DecidableEq, Repr

namespace RouteIpv6

/-- The loop of `route_ipv6_clear_host_bits`, over the bytes from the last one on. -/
def clearBytes : List UInt8 → Nat → List UInt8
  | [], _ => []
  | b :: bytes, bits_to_clear =>
      if bits_to_clear = 0 then b :: bytes
      else if 8 ≤ bits_to_clear then 0 :: clearBytes bytes (bits_to_clear - 8)
      else (b &&& (0xff <<< bits_to_clear.toUInt8)) :: bytes

/-- `s6_addr`, from the last byte on. -/
def lastBytes : Nat → Nat → List UInt8
  | 0, _ => []
  | count + 1, a => UInt8.ofNat a :: lastBytes count (a / 256)

/-- `route_ipv6_clear_host_bits` -/
def clear_host_bits (r6 : RouteIpv6) : BitVec 128 :=
  BitVec.ofNat 128 (Nat.ofDigits 256
    ((clearBytes (lastBytes 16 r6.network.toNat) (128 - r6.netbits)).map UInt8.toNat))

theorem ofDigits_lastBytes (count a : Nat) :
    Nat.ofDigits 256 ((lastBytes count a).map UInt8.toNat) = a % 256 ^ count := by
  induction count generalizing a with
  | zero => simp [lastBytes, Nat.mod_one]
  | succ count ih =>
      have hpow : 256 ^ (count + 1) = 256 * 256 ^ count := by rw [Nat.pow_succ, Nat.mul_comm]
      rw [lastBytes, List.map_cons, Nat.ofDigits_cons, ih, hpow, Nat.mod_mul]
      simp

/-- A byte without its last bits. -/
theorem toNat_and_shift (b : UInt8) {bits : Nat} (h : bits < 8) :
    (b &&& (0xff <<< bits.toUInt8)).toNat = b.toNat / 2 ^ bits * 2 ^ bits := by
  have hall : ∀ bits < 8, ∀ n < 256,
      (UInt8.ofNat n &&& (0xff <<< bits.toUInt8)).toNat = n / 2 ^ bits * 2 ^ bits := by
    decide +kernel
  simpa using hall bits h b.toNat b.toNat_lt

/-- The bits of the host are zeros then. -/
theorem ofDigits_clearBytes (bytes : List UInt8) (bits : Nat) :
    Nat.ofDigits 256 ((clearBytes bytes bits).map UInt8.toNat) =
      Nat.ofDigits 256 (bytes.map UInt8.toNat) / 2 ^ bits * 2 ^ bits := by
  induction bytes generalizing bits with
  | nil => simp [clearBytes]
  | cons b bytes ih =>
      rw [clearBytes]
      have hb := b.toNat_lt
      split_ifs with hzero height
      · simp [hzero]
      · obtain ⟨more, rfl⟩ := Nat.exists_eq_add_of_le height
        have hpow : 2 ^ (8 + more) = 256 * 2 ^ more := by rw [Nat.pow_add]
        have hdiv : (b.toNat + 256 * Nat.ofDigits 256 (bytes.map UInt8.toNat)) / 256 =
            Nat.ofDigits 256 (bytes.map UInt8.toNat) := by omega
        simp only [List.map_cons, Nat.ofDigits_cons, Nat.add_sub_cancel_left, ih, hpow,
          ← Nat.div_div_eq_div_mul, hdiv]
        simp [Nat.mul_left_comm]
      · obtain ⟨more, hmore⟩ := Nat.exists_eq_add_of_le (Nat.le_of_not_le height)
        have hpow : 256 = 2 ^ bits * 2 ^ more := by rw [← Nat.pow_add, ← hmore]
        have hpos := Nat.two_pow_pos bits
        simp only [List.map_cons, Nat.ofDigits_cons, toNat_and_shift b (Nat.lt_of_not_le height)]
        generalize Nat.ofDigits 256 (bytes.map UInt8.toNat) = rest
        rw [hpow, Nat.mul_assoc, Nat.add_mul_div_left _ _ hpos, Nat.add_mul, Nat.mul_comm (2 ^ bits)]

/-- `route_ipv6_clear_host_bits` leaves the bits of the prefix. -/
theorem toNat_clear_host_bits (r6 : RouteIpv6) :
    r6.clear_host_bits.toNat =
      r6.network.toNat / 2 ^ (128 - r6.netbits) * 2 ^ (128 - r6.netbits) := by
  have hlt : r6.network.toNat % 256 ^ 16 = r6.network.toNat := Nat.mod_eq_of_lt r6.network.isLt
  rw [clear_host_bits, ofDigits_clearBytes, ofDigits_lastBytes, hlt, BitVec.toNat_ofNat]
  exact Nat.mod_eq_of_lt (Nat.lt_of_le_of_lt (Nat.div_mul_le_self _ _) r6.network.isLt)

end RouteIpv6

end OpenVpnAndroid
