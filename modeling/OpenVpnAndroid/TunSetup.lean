/-
  OpenVpnAndroid/TunSetup.lean
  ============================
  **OpenVPN describes the tun to the app** (`do_open_tun` and what it calls).

  The addresses, the routes and the options of the tun go over one by one, each with a
  confirmation, and then the app is asked to open it.  `described` says in numbers what all
  that comes to, and the app has collected exactly that when it opens the tun.
-/
import OpenVpnAndroid.Confirmation
import OpenVpnAndroid.RouteList

namespace OpenVpnAndroid

/-- The part of `struct tuntap` that is sent, with `tuntap_options`. -/
structure Tuntap where
  /-- `local` and `remote_netmask`, if `did_ifconfig_setup` -/
  ifconfig : Option (BitVec 32 × BitVec 32)
  topology : Topology
  /-- `local_ipv6` and `netbits_ipv6`, if `did_ifconfig_ipv6_setup` -/
  ifconfig_ipv6 : Option (BitVec 128 × Nat)
  tun_mtu : Nat
  dns6 : List (BitVec 128)
  dns : List (BitVec 32)
  domain : Option Text
  http_proxy : Option (Text × Nat)
deriving DecidableEq, Repr

/-- `openvpn_snprintf(out, size, ...)` for this text -/
def openvpn_snprintf (size : Nat) (text : Text) : Text := text.take (size - 1)

/-- `print_in_addr_t` -/
def print_in_addr_t (addr : BitVec 32) : Text := dottedQuad addr.toNat

namespace Dialogue

open ManagementConnection ManagementThread

variable (env : ThreadEnvironment) (socket : Socket)

section Requests

variable (print_in6_addr : BitVec 128 → Text)

/-! ### `do_ifconfig` -/

def do_ifconfig_ipv4 (tt : Tuntap) : Option (BitVec 32 × BitVec 32) → Asking Unit
  | none => pure ()
  | some (local_, remote_netmask) => do
      let out := print_in_addr_t local_ ++ ' ' :: (print_in_addr_t remote_netmask
        ++ ' ' :: (decimal tt.tun_mtu ++ ' ' :: tt.topology.text))
      let _ ← management_android_control env socket "IFCONFIG" (openvpn_snprintf 64 out)
      pure ()

def do_ifconfig_ipv6 (tt : Tuntap) : Option (BitVec 128 × Nat) → Asking Unit
  | none => pure ()
  | some (local_ipv6, netbits_ipv6) => do
      let out6 := print_in6_addr local_ipv6 ++ '/' :: (decimal netbits_ipv6
        ++ ' ' :: decimal tt.tun_mtu)
      let _ ← management_android_control env socket "IFCONFIG6" (openvpn_snprintf 64 out6)
      pure ()

def do_ifconfig (tt : Tuntap) : Asking Unit := do
  do_ifconfig_ipv4 env socket tt tt.ifconfig
  do_ifconfig_ipv6 env socket print_in6_addr tt tt.ifconfig_ipv6

/-! ### `add_routes` -/

/-- `add_route`; the gateway of the system is always known on Android. -/
def add_route (r : RouteIpv4) : Asking Bool :=
  let out := print_in_addr_t r.network ++ ' ' :: (print_in_addr_t r.netmask
    ++ ' ' :: (print_in_addr_t r.gateway ++ (" dev " : Text) ++ android_gw))
  management_android_control env socket "ROUTE" (openvpn_snprintf 128 out)

/-- `tt->actual_name` is not set before the tun is open; this is how `NULL` is printed. -/
def actual_name : Text := "(null)"

/-- `add_route_ipv6`, for a tun device. -/
def add_route_ipv6 (r6 : RouteIpv6) : Asking Bool :=
  let out := print_in6_addr r6.clear_host_bits ++ '/' :: (decimal r6.netbits
    ++ ' ' :: actual_name)
  management_android_control env socket "ROUTE6" (openvpn_snprintf 64 out)

/-- `ret = add(r) && ret` for all routes -/
def addAll {ρ : Type} (add : ρ → Asking Bool) : List ρ → Bool → Asking Bool
  | [], ret => pure ret
  | r :: rs, ret => do
      let ok ← add r
      addAll add rs (ok && ret)

/-- `redirect_default_route_to_vpn`; there are no bypass routes on Android. -/
def redirect_default_route_to_vpn (rl : RouteList) : Asking Bool :=
  if rl.enable && rl.rerouteGw then
    match rl.remote_endpoint with
    | none => pure false
    | some remote_endpoint => do
        let _ ← add_route env socket ⟨0, 0, remote_endpoint⟩
        pure true
  else pure true

/-- `add_routes`, once for each of the lists. -/
def add_routes (rl : Option RouteList) (rl6 : Option (List RouteIpv6)) : Asking Bool := do
  let ret ← match rl with
    | none => pure true
    | some rl => do
        let ret ← redirect_default_route_to_vpn env socket rl
        addAll (add_route env socket) rl.routes ret
  addAll (add_route_ipv6 env socket print_in6_addr) (rl6.getD []) ret

/-! ### `open_tun` -/

/-- The requests of one kind. -/
def controls (command : Text) : List Text → Asking Unit
  | [] => pure ()
  | msg :: msgs => do
      let _ ← management_android_control env socket command msg
      controls command msgs

/-- The first requests of `open_tun`; IPv6 name servers are preferred. -/
def send_options (tt : Tuntap) : Asking Unit := do
  controls env socket "DNS6SERVER" (tt.dns6.map print_in6_addr)
  controls env socket "DNSSERVER" (tt.dns.map print_in_addr_t)
  controls env socket "DNSDOMAIN" tt.domain.toList
  controls env socket "HTTPPROXY" (tt.http_proxy.toList.map fun p => p.1 ++ ' ' :: decimal p.2)

/-- `open_tun`: whether there is a tun then.  `oldtun` says that one is still open. -/
def open_tun (tt : Tuntap) (oldtun : Bool) (dev : Text) : Asking Bool := do
  send_options env socket print_in6_addr tt
  let android_method ← managment_android_persisttun_action env socket
  if oldtun && android_method = .keepOldTun then pure true
  else management_android_control env socket "OPENTUN" dev

/-- `do_open_tun`: whether there was no error with a route, and whether there is a tun. -/
def do_open_tun (tt : Tuntap) (rl : Option RouteList) (rl6 : Option (List RouteIpv6))
    (oldtun : Bool) (dev : Text) : Asking (Bool × Bool) := do
  do_ifconfig env socket print_in6_addr tt
  let status ← add_routes env socket print_in6_addr rl rl6
  let opentun ← open_tun env socket print_in6_addr tt oldtun dev
  pure (status, opentun)

end Requests

end Dialogue

/-! ### What it comes to -/

/-- The length of the prefix, if the mask is a netmask. -/
def prefixLength (mask : BitVec 32) : Option Nat :=
  (List.range 33).find? fun len => mask.toNat = 2 ^ 32 - 2 ^ (32 - len)

/-- The prefix length of an interface with this address and netmask or other end. -/
def interfaceLength (address argument : BitVec 32) (mode : Text) : Nat :=
  (prefixLength argument).getD
    (if SameBlock argument address (smallNetwork mode) then smallNetwork mode else 32)

/-- The prefix length of a route; anything else than a netmask stands for a host. -/
def RouteIpv4.length (r : RouteIpv4) : Nat := (prefixLength r.netmask).getD 32

namespace Tuntap

variable (tt : Tuntap)

/-- The prefix length of the interface. -/
def localLength (p : BitVec 32 × BitVec 32) : Nat := interfaceLength p.1 p.2 tt.topology.text

/-- A route is for the VPN if its gateway is in the network of the interface, is its other end
    or is no address. -/
def Includes (p : BitVec 32 × BitVec 32) (r : RouteIpv4) : Prop :=
  SameBlock r.gateway p.1 (tt.localLength p) ∨ r.gateway = 0xffffffff ∨ r.gateway = p.2

instance (p : BitVec 32 × BitVec 32) (r : RouteIpv4) : Decidable (tt.Includes p r) :=
  inferInstanceAs (Decidable (_ ∨ _ ∨ _))

/-- The route in the configuration of the app. -/
def routeOf (p : BitVec 32 × BitVec 32) (r : RouteIpv4) : TunRoute true :=
  ⟨networkAddress r.network.toNat r.length, r.length, decide (tt.Includes p r)⟩

/-- The route of the interface's own network. -/
def localRoutes (p : BitVec 32 × BitVec 32) : List (TunRoute true) :=
  if tt.localLength p ≤ 31 then [interfaceRoute p.1 (tt.localLength p)] else []

/-- The routes of the app, for these of OpenVPN. -/
def routesOf (rs : List RouteIpv4) : List (TunRoute true) :=
  match tt.ifconfig with
  | none => []
  | some p => rs.foldl (fun routes r => (tt.routeOf p r).treeAdd routes) (tt.localRoutes p)

end Tuntap

/-- The default route that is added for `RG_REROUTE_GW`. -/
def RouteList.defaultRoutes (rl : RouteList) : List RouteIpv4 :=
  if rl.enable && rl.rerouteGw then rl.remote_endpoint.toList.map fun gateway => ⟨0, 0, gateway⟩
  else []

/-- The routes in the order in which they are sent. -/
def sentRoutes : Option RouteList → List RouteIpv4
  | none => []
  | some rl => rl.defaultRoutes ++ rl.routes

/-- The default route is not wanted, or its gateway is known. -/
def RouteList.complete (rl : RouteList) : Bool :=
  !(rl.enable && rl.rerouteGw) || rl.remote_endpoint.isSome

/-- The route of an IPv6 network. -/
def RouteIpv6.routeOf (r6 : RouteIpv6) : TunRoute false :=
  ⟨r6.clear_host_bits.toNat, r6.netbits, true⟩

/-- The configuration that OpenVPN describes. -/
def described (env : ThreadEnvironment) (print_in6_addr : BitVec 128 → Text) (tt : Tuntap)
    (rl : Option RouteList) (rl6 : Option (List RouteIpv6)) : TunConfig where
  mDnslist := tt.dns6.map print_in6_addr ++ tt.dns.map print_in_addr_t
  mRoutes := tt.routesOf (sentRoutes rl)
  mRoutesv6 := (rl6.getD []).foldl (fun routes r6 => r6.routeOf.treeAdd routes) []
  mDomain := tt.domain.map (Dialogue.delivered "DNSDOMAIN")
  mLocalIP := tt.ifconfig.map fun p => ⟨print_in_addr_t p.1, tt.localLength p⟩
  mMtu := if tt.ifconfig.isSome || tt.ifconfig_ipv6.isSome then tt.tun_mtu else 0
  mLocalIPv6 := tt.ifconfig_ipv6.map fun p => print_in6_addr p.1 ++ '/' :: decimal p.2
  mProxyInfo := tt.http_proxy.bind fun p =>
    if env.buildDirectProxy p.1 p.2 then some ⟨p.1, p.2⟩ else none

end OpenVpnAndroid
