/-
  OpenVpnAndroid/TunReopen.lean
  =============================
  **`getTunReopenStatus`: may the tun stay open?**

  The answer compares the configuration that is being collected with the one of the
  last `openTun`.  That one is remembered whether or not a descriptor came of it,
  and after `openTun` has added the local networks to it.

  So the answer is right when the last `openTun` returned a descriptor and added
  nothing, and both configurations are plain (`tunReopenStatus_iff`).
-/
import OpenVpnAndroid.Machine
import OpenVpnAndroid.TunConfigText

namespace OpenVpnAndroid

/-! ### Collecting -/

/-- The fields that the calls from OpenVPN write. -/
structure Collecting where
  tunConfig : TunConfig
  mRemoteGW : Option Text
deriving DecidableEq, Repr

/-- A method on these fields; what it has written before an exception stays. -/
abbrev Collecting.Code := ExceptT Stop (StateM Collecting)

/-- The fields after a method. -/
def Collecting.after (c : Collecting) {α : Type} (code : Collecting.Code α) : Collecting :=
  (code.run.run c).2

/-- `a & b` of two `long` values. -/
def longAnd (a b : Int) : Int := (BitVec.ofInt 64 a &&& BitVec.ofInt 64 b).toInt

namespace CIDRIP

/-- `normalise`: the address without the bits behind the prefix length. -/
def normalise (c : CIDRIP) : Java CIDRIP := do
  let ip ← getInt c.mIp
  let newip := longAnd ip (long (0xffffffff * 2 ^ ((32 - c.len) % 64).toNat))
  if newip ≠ ip then
    let part (mask shift : Int) : Text := decimal (longAnd newip mask / 2 ^ shift.toNat)
    let mIp := part (-0x1000000) 24 ++ '.' :: (part 0xff0000 16
      ++ '.' :: (part 0xff00 8 ++ '.' :: part 0xff 0))
    return { c with mIp := mIp }
  else return c

end CIDRIP

namespace TunRoute

/-- `new IpAddress(ip, included)` -/
def ofCIDRIP (ip : CIDRIP) (included : Bool) : Java (TunRoute true) := do
  let netAddress ← CIDRIP.getInt ip.mIp
  return ⟨netAddress, ip.len, included⟩

/-- The route of `addRoutev6` for a text with the address of the host in it, if that
    is an IPv6 address. -/
def ofText (network : Text) (inet6 : Option (BitVec 128)) (included : Bool) :
    Java (Option (TunRoute false)) := do
  let v6parts := split (· == '/') network
  let _ ← vectorGet v6parts 0
  match inet6 with
  | none => return none
  | some ip =>
      let mask ← CIDRIP.part parseInt v6parts 1
      return some ⟨ip.toNat, mask, included⟩

end TunRoute

namespace Collecting

def modifyConfig (f : TunConfig → TunConfig) : Code Unit :=
  modify fun c => { c with tunConfig := f c.tunConfig }

def addIP (ip : CIDRIP) (included : Bool) : Code Unit := do
  let route ← TunRoute.ofCIDRIP ip included
  modifyConfig fun tc => { tc with mRoutes := route.treeAdd tc.mRoutes }

def addIPv6 (network : Text) (inet6 : Option (BitVec 128)) (included : Bool) : Code Unit := do
  match ← TunRoute.ofText network inet6 included with
  | none => return
  | some route => modifyConfig fun tc => { tc with mRoutesv6 := route.treeAdd tc.mRoutesv6 }

def isAndroidTunDevice : Option Text → Bool
  | none => false
  | some device =>
      ("tun" : Text).isPrefixOf device || device == ("(null)" : Text)
        || device == ("vpnservice-tun" : Text)

/-- `addRoute(dest, mask, gateway, device)` -/
def addRoute (dest mask gateway : Text) (device : Option Text) : Code Unit := do
  let route ← CIDRIP.ofMask dest mask
  let gatewayIP ← TunRoute.ofCIDRIP ⟨gateway, 32⟩ false
  match (← get).tunConfig.mLocalIP with
  | none => return
  | some mLocalIP =>
      let localNet ← TunRoute.ofCIDRIP mLocalIP true
      let included := isAndroidTunDevice device || localNet.containsNet gatewayIP
        || gateway == ("255.255.255.255" : Text) || some gateway == (← get).mRemoteGW
      addIP (← route.normalise) included

/-- The prefix length of an interface whose netmask is none: OpenVPN then sends the
    other end of a small network. -/
def smallNetLength (netMaskAsInt localIP : Int) (mode : Text) : Int :=
  let (masklen, mask) := if mode = ("net30" : Text) then (30, -4) else (31, -2)
  if longAnd netMaskAsInt mask = longAnd localIP mask then masklen else 32

/-- `setLocalIP(local, netmask, mtu, mode)` -/
def setLocalIP (localIP netmask : Text) (mtu : Int) (mode : Text) : Code Unit := do
  let ip ← CIDRIP.ofMask localIP netmask
  modifyConfig fun tc => { tc with mLocalIP := some ip, mMtu := mtu }
  modify fun c => { c with mRemoteGW := none }
  let netMaskAsInt ← CIDRIP.getInt netmask
  let mut ip := ip
  if ip.len = 32 ∧ netmask ≠ ("255.255.255.255" : Text) then
    ip := { ip with len := smallNetLength netMaskAsInt (← CIDRIP.getInt ip.mIp) mode }
    let assigned := ip
    modifyConfig fun tc => { tc with mLocalIP := some assigned }
  if ip.len ≤ 31 then
    addIP (← CIDRIP.normalise ip) true
  modify fun c => { c with mRemoteGW := some netmask }

end Collecting

/-- The calls with which OpenVPN describes the tun. -/
inductive ConfigCall where
  | setLocalIP (localIP netmask : Text) (mtu : Int) (mode : Text)
  /-- `setLocalIP(cdrip)` -/
  | setLocalCIDRIP (cdrip : CIDRIP)
  | setLocalIPv6 (ipv6addr : Option Text)
  | addRoute (dest mask gateway : Text) (device : Option Text)
  /-- `addRoute(route, include)` -/
  | addCIDRIP (route : CIDRIP) (included : Bool)
  /-- `addRoutev6(network, device)`, with the address of the host in it -/
  | addRoutev6 (network : Text) (device : Option Text) (inet6 : Option (BitVec 128))
  /-- `addRoutev6(network, included)` -/
  | addIncludedv6 (network : Text) (included : Bool) (inet6 : Option (BitVec 128))
  | addDNS (dns : Text)
  | setDomain (domain : Option Text)
  | setMtu (mtu : Int)
  /-- `built` is false if `buildDirectProxy` throws -/
  | addHttpProxy (proxy : Text) (port : Int) (built : Bool)
deriving DecidableEq, Repr

open Collecting in
def ConfigCall.code : ConfigCall → Collecting.Code Unit
  | .setLocalIP localIP netmask mtu mode => Collecting.setLocalIP localIP netmask mtu mode
  | .setLocalCIDRIP cdrip => modifyConfig fun tc => { tc with mLocalIP := some cdrip }
  | .setLocalIPv6 ipv6addr => modifyConfig fun tc => { tc with mLocalIPv6 := ipv6addr }
  | .addRoute dest mask gateway device => Collecting.addRoute dest mask gateway device
  | .addCIDRIP route included => addIP route included
  | .addRoutev6 network device inet6 => addIPv6 network inet6 (isAndroidTunDevice device)
  | .addIncludedv6 network included inet6 => addIPv6 network inet6 included
  | .addDNS dns => modifyConfig fun tc => { tc with mDnslist := tc.mDnslist ++ [dns] }
  | .setDomain domain => modifyConfig fun tc => { tc with mDomain := tc.mDomain <|> domain }
  | .setMtu mtu => modifyConfig fun tc => { tc with mMtu := mtu }
  | .addHttpProxy proxy port built => modifyConfig fun tc =>
      if built then { tc with mProxyInfo := some ⟨proxy, port⟩ } else tc

/-! ### Opening -/

/-- What comes of the `Builder`. -/
inductive Built where
  | descriptor
  | null
  | thrown (stop : Stop)
deriving DecidableEq, Repr

structure OpenEnvironment where
  /-- `mProfile.mAllowLocalLAN`, if there is a profile -/
  mAllowLocalLAN : Option Bool
  doUseOpenVPN3 : Bool
  /-- `getLocalNetworks(this, false)` -/
  localNetworks : List CIDRIP
  /-- `getLocalNetworks(this, true)`, with the addresses in them -/
  localNetworksv6 : List (Text × Option (BitVec 128))
  builder : TunConfig → Built

namespace Collecting

/-- The networks that `addLocalNetworksToRoutes` excludes: not that of the tun. -/
def otherNetworks (env : OpenEnvironment) (mLocalIP : CIDRIP) : List CIDRIP :=
  env.localNetworks.filter fun net => net.mIp ≠ mLocalIP.mIp

def addLocalNetworksToRoutes (env : OpenEnvironment) (mLocalIP : CIDRIP) : Code Unit := do
  if env.mAllowLocalLAN = some true then
    (otherNetworks env mLocalIP).forM fun net => addIP net false
    env.localNetworksv6.forM fun net => addIPv6 net.1 net.2 false

/-- The rest of `openTun`: the configuration goes into the builder. -/
def establish (env : OpenEnvironment) : Code Bool := do
  match env.builder (← get).tunConfig with
  | .descriptor => return true
  | .null => return false
  | .thrown stop => throw stop

/-- `openTun(tunConfig)`: true if it returns a descriptor. -/
def openTun (env : OpenEnvironment) : Code Bool := do
  if env.mAllowLocalLAN = none then return false
  let tc := (← get).tunConfig
  if tc.mLocalIP = none ∧ tc.mLocalIPv6 = none then return false
  match tc.mLocalIP with
  | none => pure ()
  | some mLocalIP => if !env.doUseOpenVPN3 then addLocalNetworksToRoutes env mLocalIP
  establish env

end Collecting

/-- The service, with a record of the configuration that was collected for the last
    call of `openTun` that returned a descriptor. -/
structure TunService extends Collecting where
  mLastTunCfg : Option TunConfig
  opened : Option TunConfig
deriving DecidableEq, Repr

inductive TunEvent where
  | config (c : ConfigCall)
  | openTun (env : OpenEnvironment)
  | getTunReopenStatus

def TunEvent.isOpenTun : TunEvent → Bool
  | .openTun _ => true
  | _ => false

namespace TunService

def openTun (s : TunService) (env : OpenEnvironment) : TunService :=
  match (Collecting.openTun env).run.run s.toCollecting with
  | (.error _, c) => { s with toCollecting := c }
  | (.ok descriptor, c) =>
      { tunConfig := {}
        mRemoteGW := c.mRemoteGW
        mLastTunCfg := some c.tunConfig
        opened := if descriptor then some s.tunConfig else s.opened }

def getTunReopenStatus (s : TunService) : Text :=
  if TunConfig.getTunConfigString (some s.tunConfig)
      = TunConfig.getTunConfigString s.mLastTunCfg then
    "NOACTION"
  else "OPEN_BEFORE_CLOSE"

def step (s : TunService) : TunEvent → TunService
  | .config c => { s with toCollecting := s.toCollecting.after c.code }
  | .openTun env => s.openTun env
  | .getTunReopenStatus => s

def machine : Machine TunService TunEvent where
  initial := ⟨⟨{}, none⟩, none, none⟩
  step := step

end TunService

/-! ### Opening without additions -/

namespace Collecting

variable {c : Collecting} {α β : Type}

/-- The method leaves the fields as they are. -/
def Stays (c : Collecting) (code : Code α) : Prop := c.after code = c

theorem Stays.pure (a : α) : Stays c (Pure.pure a : Code α) := rfl

theorem Stays.bind {code : Code α} {f : α → Code β} (hcode : Stays c code)
    (hf : ∀ a, Stays c (f a)) : Stays c (code >>= f) := by
  have hrun : c.after (code >>= f) = match code.run.run c with
      | (.ok a, c') => c'.after (f a)
      | (.error _, c') => c' := by
    show ((code.run >>= ExceptT.bindCont f).run c).2 = _
    rw [StateT.run_bind]
    rcases code.run.run c with ⟨_ | a, c'⟩ <;> rfl
  rw [Stays, hrun]
  rw [Stays, after] at hcode
  rcases hresult : code.run.run c with ⟨_ | a, c'⟩ <;> rw [hresult] at hcode
  · exact hcode
  · obtain rfl : c' = c := hcode
    exact hf a

theorem Stays.get {f : Collecting → Code β} (hf : Stays c (f c)) :
    Stays c (MonadState.get >>= f) := hf

theorem Stays.forM {l : List α} {f : α → Code Unit} (h : ∀ a ∈ l, Stays c (f a)) :
    Stays c (l.forM f) := by
  induction l with
  | nil => exact Stays.pure ()
  | cons a l ih =>
      show Stays c (f a >>= fun _ => l.forM f)
      apply Stays.bind (h a List.mem_cons_self)
      exact fun _ => ih fun b hb => h b (List.mem_cons_of_mem _ hb)

theorem stays_addIP {ip : CIDRIP} {included : Bool}
    (h : ∀ route, TunRoute.ofCIDRIP ip included = .ok route →
      route.treeAdd c.tunConfig.mRoutes = c.tunConfig.mRoutes) : Stays c (addIP ip included) := by
  rw [Stays, after, addIP]
  cases hroute : TunRoute.ofCIDRIP ip included with
  | error stop => rfl
  | ok route =>
      show { c with tunConfig := { c.tunConfig with
        mRoutes := route.treeAdd c.tunConfig.mRoutes } } = c
      rw [h route hroute]

theorem stays_addIPv6 {network : Text} {inet6 : Option (BitVec 128)} {included : Bool}
    (h : ∀ route, TunRoute.ofText network inet6 included = .ok (some route) →
      route.treeAdd c.tunConfig.mRoutesv6 = c.tunConfig.mRoutesv6) :
    Stays c (addIPv6 network inet6 included) := by
  rw [Stays, after, addIPv6]
  cases hroute : TunRoute.ofText network inet6 included with
  | error stop => rfl
  | ok found =>
      cases found with
      | none => rfl
      | some route =>
          show { c with tunConfig := { c.tunConfig with
            mRoutesv6 := route.treeAdd c.tunConfig.mRoutesv6 } } = c
          rw [h route hroute]

/-- No local network is added: the profile does not allow the local network, or all
    of them are in the configuration already. -/
def AddsNothing (env : OpenEnvironment) (tc : TunConfig) : Prop :=
  env.mAllowLocalLAN = some true → env.doUseOpenVPN3 = false →
    ∀ ip, tc.mLocalIP = some ip →
      (∀ net ∈ otherNetworks env ip, ∀ route, TunRoute.ofCIDRIP net false = .ok route →
        route.treeAdd tc.mRoutes = tc.mRoutes) ∧
      (∀ net ∈ env.localNetworksv6, ∀ route, TunRoute.ofText net.1 net.2 false = .ok (some route) →
        route.treeAdd tc.mRoutesv6 = tc.mRoutesv6)

theorem stays_addLocalNetworksToRoutes {env : OpenEnvironment} {ip : CIDRIP}
    (h : AddsNothing env c.tunConfig) (hv3 : env.doUseOpenVPN3 = false)
    (hip : c.tunConfig.mLocalIP = some ip) : Stays c (addLocalNetworksToRoutes env ip) := by
  rw [addLocalNetworksToRoutes]
  split
  · rename_i hallow
    obtain ⟨hv4, hv6⟩ := h hallow hv3 ip hip
    apply Stays.bind (Stays.forM fun net hnet => stays_addIP (hv4 net hnet))
    exact fun _ => Stays.forM fun net hnet => stays_addIPv6 (hv6 net hnet)
  · exact Stays.pure ()

theorem stays_establish {env : OpenEnvironment} : Stays c (establish env) := by
  rw [establish]
  apply Stays.get
  cases env.builder c.tunConfig <;> rfl

theorem stays_openTun {env : OpenEnvironment} (h : AddsNothing env c.tunConfig) :
    Stays c (openTun env) := by
  rw [openTun]
  split
  · rfl
  · apply Stays.get
    dsimp only
    split
    · rfl
    · cases hip : c.tunConfig.mLocalIP with
      | none => exact stays_establish
      | some ip =>
          dsimp only
          split
          · rename_i hv3
            apply Stays.bind (stays_addLocalNetworksToRoutes h (by simpa using hv3) hip)
            exact fun _ => stays_establish
          · exact stays_establish

end Collecting

/-! ### The remembered configuration -/

namespace TunService

/-- The call returns a descriptor, for the configuration as it was collected. -/
def OpensCleanly (s : TunService) (env : OpenEnvironment) : Prop :=
  ((Collecting.openTun env).run.run s.toCollecting).1 = .ok true ∧
    Collecting.AddsNothing env s.tunConfig

theorem openTun_of_opensCleanly {s : TunService} {env : OpenEnvironment}
    (h : s.OpensCleanly env) :
    s.openTun env = ⟨⟨{}, s.mRemoteGW⟩, some s.tunConfig, some s.tunConfig⟩ := by
  have hresult : (Collecting.openTun env).run.run s.toCollecting = (.ok true, s.toCollecting) :=
    Prod.ext h.1 (Collecting.stays_openTun h.2)
  rw [openTun, hresult]
  rfl

/-- The last call of `openTun` among the events, if there is one, is clean. -/
def LastOpenClean (es : List TunEvent) : Prop :=
  ∀ before env after, es = before ++ .openTun env :: after →
    (∀ e ∈ after, e.isOpenTun = false) → (machine.run before).OpensCleanly env

theorem lastOpenClean_openTun {es : List TunEvent} {env : OpenEnvironment} :
    LastOpenClean (es ++ [.openTun env]) ↔ (machine.run es).OpensCleanly env := by
  constructor
  · intro h
    exact h es env [] rfl fun e he => nomatch he
  · intro h before env' after heq hafter
    rcases List.eq_nil_or_concat after with rfl | ⟨after, e, rfl⟩
    · obtain ⟨rfl, hlast⟩ := List.append_inj' heq rfl
      obtain rfl := TunEvent.openTun.inj (List.cons.inj hlast).1
      exact h
    · rw [List.concat_eq_append, ← List.cons_append, ← List.append_assoc] at heq
      have hlast := (List.cons.inj (List.append_inj' heq rfl).2).1
      have hother := hafter e (by simp)
      rw [← hlast] at hother
      cases hother

theorem lastOpenClean_other {es : List TunEvent} {e : TunEvent} (he : e.isOpenTun = false) :
    LastOpenClean (es ++ [e]) ↔ LastOpenClean es := by
  constructor
  · intro h before env after heq hafter
    apply h before env (after ++ [e]) (by rw [heq, List.append_assoc, List.cons_append])
    intro e' he'
    rcases List.mem_append.mp he' with he' | he'
    · exact hafter e' he'
    · rw [List.mem_singleton.mp he']
      exact he
  · intro h before env after heq hafter
    rcases List.eq_nil_or_concat after with rfl | ⟨after, e', rfl⟩
    · rw [(List.cons.inj (List.append_inj' heq rfl).2).1] at he
      cases he
    · rw [List.concat_eq_append, ← List.cons_append, ← List.append_assoc] at heq
      apply h before env after (List.append_inj' heq rfl).1
      intro x hx
      exact hafter x (by simp [hx])

/-- The other calls leave what is remembered, so a clean opening stays the last one. -/
theorem mLastTunCfg_eq_opened {es : List TunEvent} (h : LastOpenClean es) :
    (machine.run es).mLastTunCfg = (machine.run es).opened := by
  induction es using List.reverseRecOn with
  | nil => rfl
  | append_singleton es e ih =>
      rw [Machine.run_append_singleton]
      cases e with
      | config c => exact ih ((lastOpenClean_other rfl).mp h)
      | getTunReopenStatus => exact ih ((lastOpenClean_other rfl).mp h)
      | openTun env =>
          have hclean := lastOpenClean_openTun.mp h
          show ((machine.run es).openTun env).mLastTunCfg = ((machine.run es).openTun env).opened
          rw [openTun_of_opensCleanly hclean]

/-! ### The answer -/

/-- The configurations to be compared are plain. -/
def Comparable (s : TunService) : Prop :=
  s.tunConfig.Plain ∧ ∀ tc, s.opened = some tc → tc.Plain

/-- What is being collected equals what was collected for the last call of `openTun`
    that returned a descriptor. -/
def Unchanged (s : TunService) : Prop :=
  s.opened.map TunConfig.collected = some s.tunConfig.collected

instance (s : TunService) : Decidable s.Unchanged := inferInstanceAs (Decidable (_ = _))

theorem getTunReopenStatus_eq (s : TunService) : s.getTunReopenStatus = ("NOACTION" : Text) ↔
    TunConfig.getTunConfigString (some s.tunConfig) =
      TunConfig.getTunConfigString s.mLastTunCfg := by
  rw [getTunReopenStatus]
  split
  · rename_i heq
    exact iff_of_true rfl heq
  · rename_i hne
    exact iff_of_false (by decide) hne

/-- After every sequence of calls whose last `openTun` was clean, `NOACTION` is the
    answer exactly if the configuration is unchanged, for plain configurations. -/
theorem tunReopenStatus_iff (es : List TunEvent) (hopen : LastOpenClean es)
    (hplain : (machine.run es).Comparable) :
    (machine.run es).getTunReopenStatus = ("NOACTION" : Text) ↔ (machine.run es).Unchanged := by
  rw [getTunReopenStatus_eq, mLastTunCfg_eq_opened hopen, Unchanged]
  cases hopened : (machine.run es).opened with
  | none => exact iff_of_false (TunConfig.configText_ne_null _) nofun
  | some tc =>
      rw [Option.map_some, Option.some_inj]
      constructor
      · intro htext
        exact (hplain.1.collected_eq (hplain.2 tc hopened) htext).symm
      · intro hsame
        exact TunConfig.configText_congr hsame.symm

/-- The calls for a tun with an address and a DNS server. -/
def sampleCalls : List TunEvent :=
  [.config (.setLocalCIDRIP ⟨"10.8.0.2", 24⟩), .config (.addDNS "9.9.9.9")]

def sampleEnvironment (built : Built) : OpenEnvironment where
  mAllowLocalLAN := some false
  doUseOpenVPN3 := false
  localNetworks := [⟨"192.168.1.7", 24⟩]
  localNetworksv6 := []
  builder := fun _ => built

def sampleConfig : TunConfig where
  mLocalIP := some ⟨"10.8.0.2", 24⟩
  mDnslist := ["9.9.9.9"]

theorem plain_sampleConfig : sampleConfig.Plain where
  localIP := by
    rintro ip ⟨⟩
    exact ⟨by decide, by decide, by decide⟩
  localIPv6 := nofun
  localApart := by
    rintro ip ⟨⟩
    decide
  routes := nofun
  routesv6 := nofun
  routesApart := by
    intro included r hr
    cases included <;> cases hr
  dns := by
    intro server hserver
    obtain rfl := List.mem_singleton.mp hserver
    exact ⟨by decide, by decide⟩
  domain := nofun

/-- The same configuration after a descriptor has been returned. -/
theorem tunReopenStatus_iff_reconnect :
    (machine.run (sampleCalls ++ .openTun (sampleEnvironment .descriptor) :: sampleCalls)
      ).getTunReopenStatus = ("NOACTION" : Text) := by
  apply (tunReopenStatus_iff _ ?_ ?_).mpr
  · decide +kernel
  · show LastOpenClean (((sampleCalls ++ [.openTun _]) ++ [.config _]) ++ [.config _])
    rw [lastOpenClean_other rfl, lastOpenClean_other rfl, lastOpenClean_openTun]
    exact ⟨rfl, nofun⟩
  · refine ⟨plain_sampleConfig, ?_⟩
    rintro tc ⟨⟩
    exact plain_sampleConfig

/-- The builder returns `null`, and the configuration is remembered all the same. -/
theorem not_tunReopenStatus :
    ¬∀ es, (machine.run es).getTunReopenStatus = ("NOACTION" : Text) ↔
      (machine.run es).Unchanged := by
  intro h
  have hfailed := h (sampleCalls ++ .openTun (sampleEnvironment .null) :: sampleCalls)
  exact absurd (hfailed.mp (by decide +kernel)) (by decide +kernel)

end TunService

end OpenVpnAndroid
