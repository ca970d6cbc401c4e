/-
  OpenVpnAndroid/TunConfig.lean
  =============================
  **`TunConfig` and its text.**

  What OpenVPN tells `OpenVPNService` about the tun is collected in a `TunConfig`,
  and two of them are compared through `getTunConfigString`.  The text is put
  together without separators between its parts, so that different configurations
  may have the same text.  For configurations that are `Plain` it does not happen
  (`Plain.collected_eq`).
-/
import OpenVpnAndroid.CIDRIP
import OpenVpnAndroid.NetworkBlock
import OpenVpnAndroid.TextDecoding

namespace OpenVpnAndroid

/-! ### Routes -/

/-- An `IpAddress` with the numbers that stand in the texts, in any range. -/
structure TunRoute (isV4 : Bool) where
  netAddress : Int
  networkMask : Int
  included : Bool
deriving DecidableEq, Repr

namespace TunRoute

section Order

variable {isV4 : Bool} (n m : TunRoute isV4)

def numBits : Nat := ((addressBits isV4 : Int) - n.networkMask).toNat

/-- `getMaskedAddress` clears, or sets, that many bits. -/
def getFirstAddress : Int := n.netAddress / 2 ^ n.numBits * 2 ^ n.numBits

def getLastAddress : Int := n.getFirstAddress + (2 ^ n.numBits - 1)

def compareTo : Ordering :=
  if n.getFirstAddress < m.getFirstAddress then .lt
  else if n.getFirstAddress > m.getFirstAddress then .gt
  else if n.networkMask > m.networkMask then .lt
  else if m.networkMask = n.networkMask then .eq
  else .gt

def containsNet (network : TunRoute isV4) : Bool :=
  n.getFirstAddress ≤ network.getFirstAddress && network.getLastAddress ≤ n.getLastAddress

/-- `TreeSet.add` -/
def treeAdd (x : TunRoute isV4) : List (TunRoute isV4) → List (TunRoute isV4)
  | [] => [x]
  | y :: ys =>
      match x.compareTo y with
      | .lt => x :: y :: ys
      | .eq => y :: ys
      | .gt => y :: treeAdd x ys

end Order

/-! ### Routes in range -/

section OfIpAddress

variable {isV4 : Bool} {n m : IpAddress}

def ofIpAddress (isV4 : Bool) (n : IpAddress) : TunRoute isV4 :=
  ⟨n.netAddress, n.networkMask, n.included⟩

theorem getFirstAddress_ofIpAddress (hn : n.isV4 = isV4) :
    (ofIpAddress isV4 n).getFirstAddress = n.getFirstAddress := by
  have hbits : (ofIpAddress isV4 n).numBits = n.numBits := by
    rw [IpAddress.numBits, hn]
    show ((addressBits isV4 : Int) - n.networkMask).toNat = addressBits isV4 - n.networkMask
    omega
  rw [getFirstAddress, hbits, n.getFirstAddress_eq, IpAddress.block]
  show (n.netAddress : Int) / 2 ^ n.numBits * 2 ^ n.numBits = _
  push_cast
  rfl

theorem compareTo_ofIpAddress (hn : n.isV4 = isV4) (hm : m.isV4 = isV4) :
    (ofIpAddress isV4 n).compareTo (ofIpAddress isV4 m) = n.compareTo m := by
  rw [compareTo, IpAddress.compareTo, getFirstAddress_ofIpAddress hn,
    getFirstAddress_ofIpAddress hm]
  simp only [ofIpAddress, gt_iff_lt, Nat.cast_lt, Nat.cast_inj]

/-- On networks of one family with numbers in range the set is the one of
    `NetworkSpace`. -/
theorem treeAdd_ofIpAddress {x : IpAddress} {ys : List IpAddress} (hx : x.isV4 = isV4)
    (hys : ∀ y ∈ ys, y.isV4 = isV4) :
    treeAdd (ofIpAddress isV4 x) (ys.map (ofIpAddress isV4)) =
      (OpenVpnAndroid.treeAdd x ys).map (ofIpAddress isV4) := by
  induction ys with
  | nil => rfl
  | cons y ys ih =>
      have hrest := ih fun z hz => hys z (List.mem_cons_of_mem _ hz)
      rw [List.map_cons, treeAdd, OpenVpnAndroid.treeAdd,
        compareTo_ofIpAddress hx (hys y List.mem_cons_self)]
      cases x.compareTo y with
      | lt => rfl
      | eq => rfl
      | gt => rw [List.map_cons, ← hrest]

end OfIpAddress

/-! ### Texts -/

/-- `%d.%d.%d.%d` -/
def getIPv4Address (ip : Int) : Text :=
  decimal ((ip / 2 ^ 24).tmod 256) ++ '.' :: (decimal ((ip / 2 ^ 16).tmod 256)
    ++ '.' :: (decimal ((ip / 2 ^ 8).tmod 256) ++ '.' :: decimal (ip.tmod 256)))

/-- `%x` -/
def hex (part : Nat) : Text := Nat.toDigits 16 part

/-- The loop of `getIPv6Address`, over the parts from the last one on. -/
def ipv6Loop (r : Nat) (ipv6str : Option Text) (lastPart : Bool) : Option Text :=
  if r = 0 then ipv6str
  else
    let part := r % 0x10000
    let next :=
      if ipv6str.isSome || part ≠ 0 then
        let ipv6str := if ipv6str.isNone && !lastPart then some [':'] else ipv6str
        if lastPart then some (hex part) else some (hex part ++ ':' :: orNull ipv6str)
      else ipv6str
    ipv6Loop (r / 0x10000) next false
termination_by r
decreasing_by exact Nat.div_lt_self (by omega) (by decide)

def getIPv6Address (netAddress : Int) : Text := (ipv6Loop netAddress.toNat none true).getD "::"

def toString {isV4 : Bool} (n : TunRoute isV4) : Text :=
  (if isV4 then getIPv4Address n.netAddress else getIPv6Address n.netAddress)
    ++ '/' :: decimal n.networkMask

end TunRoute

/-! ### Configurations -/

structure ProxyInfo where
  host : Text
  port : Int
deriving DecidableEq, Repr

/-- `toString` of a proxy from `buildDirectProxy`. -/
def ProxyInfo.toString (p : ProxyInfo) : Text :=
  '[' :: (p.host ++ ']' :: ' ' :: decimal p.port)

structure TunConfig where
  mDnslist : List Text := []
  mRoutes : List (TunRoute true) := []
  mRoutesv6 : List (TunRoute false) := []
  mDomain : Option Text := none
  mLocalIP : Option CIDRIP := none
  mMtu : Int := 0
  mLocalIPv6 : Option Text := none
  mProxyInfo : Option ProxyInfo := none
deriving DecidableEq, Repr

namespace TunConfig

/-- The networks of a `NetworkSpace` that are included, or excluded, in its order. -/
def getNetworks {isV4 : Bool} (mIpAddresses : List (TunRoute isV4)) (included : Bool) :
    List (TunRoute isV4) :=
  mIpAddresses.filter fun ip => ip.included == included

/-- Two lists of routes, of both families, one behind the other. -/
def routesText (tc : TunConfig) (included : Bool) : Text :=
  join '|' ((getNetworks tc.mRoutes included).map TunRoute.toString)
    ++ join '|' ((getNetworks tc.mRoutesv6 included).map TunRoute.toString)

def ipsText (tc : TunConfig) : Text :=
  ((tc.mLocalIP.map CIDRIP.toString).getD []) ++ tc.mLocalIPv6.getD []

/-- The text of a configuration that is not `null`. -/
def configText (tc : TunConfig) : Text :=
  ("TUNCFG UNQIUE STRING ips:" : Text) ++ tc.ipsText
    ++ ("routes: " : Text) ++ tc.routesText true
    ++ ("excl. routes:" : Text) ++ tc.routesText false
    ++ ("dns: " : Text) ++ join '|' tc.mDnslist
    ++ ("domain: " : Text) ++ orNull tc.mDomain
    ++ ("mtu: " : Text) ++ decimal tc.mMtu
    ++ ("proxyInfo: " : Text) ++ orNull (tc.mProxyInfo.map ProxyInfo.toString)

def getTunConfigString : Option TunConfig → Text
  | none => ("NULL" : Text)
  | some tc => tc.configText

/-- The configuration that was collected: addresses, included and excluded routes,
    DNS servers, domain, MTU and proxy. -/
structure Collected where
  localIP : Option CIDRIP
  localIPv6 : Option Text
  includedRoutes : List (TunRoute true)
  includedRoutesv6 : List (TunRoute false)
  excludedRoutes : List (TunRoute true)
  excludedRoutesv6 : List (TunRoute false)
  dns : List Text
  domain : Option Text
  mtu : Int
  proxyInfo : Option ProxyInfo
deriving DecidableEq, Repr

def collected (tc : TunConfig) : Collected where
  localIP := tc.mLocalIP
  localIPv6 := tc.mLocalIPv6
  includedRoutes := getNetworks tc.mRoutes true
  includedRoutesv6 := getNetworks tc.mRoutesv6 true
  excludedRoutes := getNetworks tc.mRoutes false
  excludedRoutesv6 := getNetworks tc.mRoutesv6 false
  dns := tc.mDnslist
  domain := tc.mDomain
  mtu := tc.mMtu
  proxyInfo := tc.mProxyInfo

end TunConfig

end OpenVpnAndroid
