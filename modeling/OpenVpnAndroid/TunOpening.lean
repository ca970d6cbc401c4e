/-
  OpenVpnAndroid/TunOpening.lean
  ==============================
  **The tun is opened as OpenVPN has described it.**

  `do_open_tun` as a whole: the app opens the tun with the configuration `described`, and
  OpenVPN learns whether there is one (`do_open_tun_described`).
-/
import OpenVpnAndroid.TunHandshake
import OpenVpnAndroid.Ipv6

namespace OpenVpnAndroid

namespace Dialogue

open ManagementConnection ManagementThread

variable {env : ThreadEnvironment} {socket : Socket} {s : TunService} {command : Text}
  {print_in6_addr : BitVec 128 → Text}

/-! ### `OPENTUN` -/

/-- What comes of `openTun` of the app. -/
def openTunResult (env : ThreadEnvironment) (s : TunService) : Java Bool :=
  ((Collecting.openTun env.openEnvironment).run.run s.toCollecting).1

theorem status_cancel : Status "cancel" :=
  ⟨plain_of_all (by decide) (by decide) (by decide), by decide⟩

theorem does_openTun {descriptor : Bool} (h : openTunResult env s = .ok descriptor) :
    Does (management_android_control env socket "OPENTUN" "tun") s descriptor
      (s.openTun env.openEnvironment) := by
  intro d hidle hs
  have hconfirmable : Confirmable "OPENTUN" := confirmable_of_all (by decide) (by decide)
  let status : Text := if descriptor then "ok" else "cancel"
  have hstatus : Status status := by
    cases descriptor
    · exact status_cancel
    · exact status_ok
  have hsend : d.app.sendTunFD env "tun" =
      (.ok status, { d.app with service := s.openTun env.openEnvironment }) := by
    rw [sendTunFD, if_pos rfl, hs]
    change (Except.map _ (openTunResult env s), _) = _
    rw [h]
    rfl
  have hperform : d.app.processNeedCommand env (needPrompt "OPENTUN" ++ delivered "OPENTUN" "tun") =
      (.ok (), { d.app with service := s.openTun env.openEnvironment }.managmentCommand
        (needokCommand "OPENTUN" status)) := by
    rw [processNeedCommand_eq .opentun hconfirmable rfl, perform,
      delivered_of_le (by decide), hsend]
  obtain ⟨s', hidle', hcontrol⟩ := management_android_control_eq env socket hidle hconfirmable
    (asciiPrintable_of_all (by decide)) hstatus (congrArg Prod.snd hperform) rfl
  have hanswer : decide (status = ("ok" : Text)) = descriptor := by cases descriptor <;> rfl
  rw [hanswer] at hcontrol
  exact ⟨_, hcontrol, hidle', rfl⟩

/-- An exception in the app leaves OpenVPN without an answer. -/
theorem waits_openTun {stop : Stop} (h : openTunResult env s = .error stop) :
    Waits (management_android_control env socket "OPENTUN" "tun") s := by
  intro d hidle hs
  have hconfirmable : Confirmable "OPENTUN" := confirmable_of_all (by decide) (by decide)
  have hprintable := AsciiPrintable.alert hconfirmable
    (@asciiPrintable_of_all (strncpynt "tun" USER_PASS_LEN) (by decide))
  have hsend : d.app.sendTunFD env "tun" =
      (.error stop, { d.app with service := s.openTun env.openEnvironment }) := by
    rw [sendTunFD, if_pos rfl, hs]
    change (Except.map _ (openTunResult env s), _) = _
    rw [h]
    rfl
  have happ : heard env socket (alertMessage .needOk "OPENTUN" (strncpynt "tun" USER_PASS_LEN))
      d.app = { d.app with service := s.openTun env.openEnvironment } := by
    rw [heard_eq env socket hprintable.ascii7 hprintable.newline,
      processCommand_needOk hconfirmable,
      processNeedCommand_eq .opentun hconfirmable rfl, perform, delivered_strncpynt,
      delivered_of_le (by decide), hsend]
  have hreads : reads socket d.app { d.app with service := s.openTun env.openEnvironment } = [] := by
    rw [reads, List.drop_length]
    exact socket.up.cut_nil
  rw [management_android_control, happ, hreads]
  rfl

/-! ### The configuration -/

/-- The options of the tun come to the app as they are, but for a domain that is too long. -/
structure Describable (tt : Tuntap) : Prop where
  tun_mtu : tt.tun_mtu < 2 ^ 31
  netbits_ipv6 : ∀ p ∈ tt.ifconfig_ipv6, p.2 ≤ 128
  domain : ∀ domain ∈ tt.domain, AsciiPrintable domain
  proxy : ∀ p ∈ tt.http_proxy, MessageField p.1 ∧ p.1.length ≤ 78 ∧ p.2 < 65536

/-- The service when it has heard everything. -/
def afterDescription (env : ThreadEnvironment) (print_in6_addr : BitVec 128 → Text)
    (s : TunService) (tt : Tuntap) (rl : Option RouteList) (rl6 : Option (List RouteIpv6)) :
    TunService :=
  { s with
    tunConfig := described env print_in6_addr tt rl rl6
    mRemoteGW := (tt.ifconfig.map fun p => print_in_addr_t p.2).or s.mRemoteGW }

/-- The service after the addresses. -/
def ifconfigStep (print_in6_addr : BitVec 128 → Text) (s : TunService) (tt : Tuntap) :
    TunService :=
  { s with
    tunConfig := { s.tunConfig with
      mLocalIP := tt.ifconfig.map fun p => ⟨print_in_addr_t p.1, tt.localLength p⟩
      mMtu := if tt.ifconfig.isSome || tt.ifconfig_ipv6.isSome then tt.tun_mtu else 0
      mRoutes := tt.routesOf []
      mLocalIPv6 := tt.ifconfig_ipv6.map fun p => print_in6_addr p.1 ++ '/' :: decimal p.2 }
    mRemoteGW := (tt.ifconfig.map fun p => print_in_addr_t p.2).or s.mRemoteGW }

theorem does_ifconfig (texts : AddressTexts env print_in6_addr) {tt : Tuntap} (h : Describable tt)
    (hstart : s.tunConfig = {}) :
    Does (do_ifconfig env socket print_in6_addr tt) s () (ifconfigStep print_in6_addr s tt) := by
  obtain ⟨⟨tc, gw⟩, last, opened⟩ := s
  obtain rfl : tc = {} := hstart
  obtain ⟨hmtu, hbits, -, -⟩ := h
  rw [do_ifconfig, ifconfigStep, Tuntap.routesOf]
  cases hifconfig : tt.ifconfig with
  | none =>
      refine Does.bind (.pure _ ()) ?_
      cases hipv6 : tt.ifconfig_ipv6 with
      | none => exact .pure _ ()
      | some p => exact does_ifconfig_ipv6 texts hmtu p (hbits p hipv6)
  | some p =>
      refine Does.bind (does_ifconfig_ipv4 tt hmtu p) ?_
      have hroutes : (if tt.localLength p ≤ 31 then
          (interfaceRoute p.1 (tt.localLength p)).treeAdd [] else []) = tt.localRoutes p := rfl
      cases hipv6 : tt.ifconfig_ipv6 with
      | none => exact .pure _ ()
      | some p' => exact does_ifconfig_ipv6 texts hmtu p' (hbits p' hipv6)

theorem interface_ifconfigStep (s : TunService) (tt : Tuntap) :
    Interface tt (ifconfigStep print_in6_addr s tt) := by
  refine ⟨rfl, fun p hp => ?_⟩
  rw [ifconfigStep, Option.mem_def.mp hp]
  rfl

/-- The service after the routes. -/
theorem does_add_routes (texts : AddressTexts env print_in6_addr) {tt : Tuntap}
    (h : Interface tt s) (rl : Option RouteList) (rl6 : Option (List RouteIpv6)) :
    Does (add_routes env socket print_in6_addr rl rl6) s (rl.all RouteList.complete)
      ((rl6.getD []).foldl route6Step ((sentRoutes rl).foldl (routeStep tt) s)) := by
  have hroutes6 : ∀ ret s, Does (addAll (add_route_ipv6 env socket print_in6_addr) (rl6.getD []) ret)
      s ret ((rl6.getD []).foldl route6Step s) := fun ret s =>
    Does.addAll (fun _ => True) (fun _ _ _ => trivial)
      (fun s r6 _ => does_add_route_ipv6 texts s r6) _ ret trivial
  have hstep : ∀ s r, Interface tt s → Interface tt (routeStep tt s r) := fun s r hs =>
    hs.routeStep r
  have hadd : ∀ s r, Interface tt s → Does (add_route env socket r) s true (routeStep tt s r) :=
    fun s r hs => does_add_route hs r
  cases rl with
  | none => exact Does.bind (.pure s true) (hroutes6 true s)
  | some rl =>
      have hdefault : Interface tt (rl.defaultRoutes.foldl (routeStep tt) s) :=
        List.foldlRecOn _ _ h fun s hs r _ => hstep s r hs
      have hroutes := Does.addAll (Interface tt) hstep hadd rl.routes rl.complete hdefault
      rw [sentRoutes, List.foldl_append]
      exact (does_redirect h rl).bind (hroutes.bind (hroutes6 _ _))

/-- The service after the options. -/
def optionsStep (env : ThreadEnvironment) (print_in6_addr : BitVec 128 → Text) (s : TunService)
    (tt : Tuntap) : TunService :=
  let s := (tt.dns.map print_in_addr_t).foldl dnsStep ((tt.dns6.map print_in6_addr).foldl dnsStep s)
  tt.http_proxy.toList.foldl (proxyStep env) (tt.domain.toList.foldl domainStep s)

theorem does_send_options (texts : AddressTexts env print_in6_addr) {tt : Tuntap}
    (h : Describable tt) (s : TunService) :
    Does (send_options env socket print_in6_addr tt) s () (optionsStep env print_in6_addr s tt) := by
  have hdns6 : ∀ s, Does (controls env socket "DNS6SERVER" (tt.dns6.map print_in6_addr)) s ()
      ((tt.dns6.map print_in6_addr).foldl dnsStep s) := by
    refine Does.controls fun msg hmsg s => ?_
    obtain ⟨a, -, rfl⟩ := List.mem_map.mp hmsg
    exact does_dns (.inr rfl) (texts.field a).printable (texts.length_le a) s
  have hdns : ∀ s, Does (controls env socket "DNSSERVER" (tt.dns.map print_in_addr_t)) s ()
      ((tt.dns.map print_in_addr_t).foldl dnsStep s) := by
    refine Does.controls fun msg hmsg s => ?_
    obtain ⟨a, -, rfl⟩ := List.mem_map.mp hmsg
    exact does_dns (.inl rfl) (messageField_addr a).printable
      ((length_addr_le a).trans (by decide)) s
  have hdomain : ∀ s, Does (controls env socket "DNSDOMAIN" tt.domain.toList) s ()
      (tt.domain.toList.foldl domainStep s) :=
    Does.controls fun msg hmsg s => does_domain (h.domain msg (Option.mem_toList.mp hmsg)) s
  have hproxy : ∀ s, Does (controls env socket "HTTPPROXY"
      (tt.http_proxy.toList.map fun p => p.1 ++ ' ' :: decimal p.2)) s ()
        (tt.http_proxy.toList.foldl (proxyStep env) s) := by
    intro s
    cases hp : tt.http_proxy with
    | none => exact .pure _ ()
    | some p =>
        obtain ⟨hfield, hlen, hport⟩ := h.proxy p hp
        exact (does_httpProxy hfield hlen hport s).bind (.pure _ ())
  exact (hdns6 s).bind ((hdns _).bind ((hdomain _).bind (hproxy _)))

/-! ### All together -/

theorem foldl_dnsStep (msgs : List Text) (s : TunService) :
    msgs.foldl dnsStep s =
      mapConfig s fun tc => { tc with mDnslist := tc.mDnslist ++ msgs } := by
  induction msgs generalizing s with
  | nil => simp [mapConfig]
  | cons msg msgs ih => simp [ih, dnsStep, mapConfig]

theorem foldl_routeStep_none {tt : Tuntap} (h : tt.ifconfig = none) (rs : List RouteIpv4)
    (s : TunService) : rs.foldl (routeStep tt) s = s := by
  induction rs generalizing s with
  | nil => rfl
  | cons r rs ih =>
      have hstep : routeStep tt s r = s := by rw [routeStep, h]
      rw [List.foldl_cons, hstep, ih]

theorem foldl_routeStep_some {tt : Tuntap} {p : BitVec 32 × BitVec 32} (h : tt.ifconfig = some p)
    (rs : List RouteIpv4) (s : TunService) :
    rs.foldl (routeStep tt) s = mapConfig s fun tc => { tc with
      mRoutes := rs.foldl (fun routes r => (tt.routeOf p r).treeAdd routes) tc.mRoutes } := by
  induction rs generalizing s with
  | nil => simp [mapConfig]
  | cons r rs ih => simp [ih, routeStep, h, mapConfig]

theorem foldl_route6Step (rs : List RouteIpv6) (s : TunService) :
    rs.foldl route6Step s = mapConfig s fun tc => { tc with
      mRoutesv6 := rs.foldl (fun routes r6 => r6.routeOf.treeAdd routes) tc.mRoutesv6 } := by
  induction rs generalizing s with
  | nil => simp [mapConfig]
  | cons r6 rs ih => simp [ih, route6Step, mapConfig]

theorem steps_eq (hstart : s.tunConfig = {}) (tt : Tuntap) (rl : Option RouteList)
    (rl6 : Option (List RouteIpv6)) :
    optionsStep env print_in6_addr ((rl6.getD []).foldl route6Step
      ((sentRoutes rl).foldl (routeStep tt) (ifconfigStep print_in6_addr s tt))) tt =
        afterDescription env print_in6_addr s tt rl rl6 := by
  obtain ⟨⟨tc, gw⟩, last, opened⟩ := s
  obtain rfl : tc = {} := hstart
  rw [optionsStep, afterDescription, described]
  dsimp only
  rw [foldl_dnsStep, foldl_dnsStep, foldl_route6Step]
  have hroutes : (sentRoutes rl).foldl (routeStep tt)
      (ifconfigStep print_in6_addr ⟨⟨{}, gw⟩, last, opened⟩ tt) =
        mapConfig (ifconfigStep print_in6_addr ⟨⟨{}, gw⟩, last, opened⟩ tt) fun tc =>
          { tc with mRoutes := tt.routesOf (sentRoutes rl) } := by
    cases hifconfig : tt.ifconfig with
    | none =>
        rw [foldl_routeStep_none hifconfig]
        simp [mapConfig, ifconfigStep, Tuntap.routesOf, hifconfig]
    | some p =>
        rw [foldl_routeStep_some hifconfig]
        simp [mapConfig, ifconfigStep, Tuntap.routesOf, hifconfig]
  rw [hroutes]
  cases tt.http_proxy with
  | none => cases tt.domain <;> rfl
  | some p =>
      cases hbuilt : env.buildDirectProxy p.1 p.2
      all_goals cases tt.domain <;> simp [proxyStep, domainStep, mapConfig, ifconfigStep, hbuilt]

/-- OpenVPN describes the tun, asks whether the old one may stay and goes on. -/
theorem does_description (texts : AddressTexts env print_in6_addr) {tt : Tuntap}
    (h : Describable tt) (hstart : s.tunConfig = {}) (rl : Option RouteList)
    (rl6 : Option (List RouteIpv6)) :
    let s' := afterDescription env print_in6_addr s tt rl rl6
    ∃ s₁ s₂, Does (do_ifconfig env socket print_in6_addr tt) s () s₁ ∧
      Does (add_routes env socket print_in6_addr rl rl6) s₁ (rl.all RouteList.complete) s₂ ∧
      Does (send_options env socket print_in6_addr tt) s₂ () s' := by
  refine ⟨_, _, does_ifconfig texts h hstart,
    does_add_routes texts (interface_ifconfigStep s tt) rl rl6, ?_⟩
  rw [← steps_eq hstart]
  exact does_send_options texts h _

end Dialogue

/-! ### Addresses in full -/

namespace Ipv6

/-- All eight groups. -/
def fullText (a : BitVec 128) : Text :=
  joined (List.replicate (8 - (groupsOf a.toNat).length) 0 ++ groupsOf a.toNat)

theorem joined_bounds {gs : List Nat} (h : ∀ g ∈ gs, g < BASE) :
    joined gs ⊆ ("0123456789abcdef:" : Text) ∧ (joined gs).length ≤ 5 * gs.length := by
  have hgroup : ∀ {g : Nat}, g < BASE → (writeGroup g).length ≤ 4 := fun {g} hg =>
    (Nat.length_toDigits_le_iff (by decide) (by decide)).mpr hg
  have hsubset : ∀ g, writeGroup g ⊆ ("0123456789abcdef:" : Text) := fun g =>
    List.Subset.trans (writeGroup_subset g) (by decide)
  induction gs with
  | nil => exact ⟨List.nil_subset _, Nat.zero_le _⟩
  | cons g gs ih =>
      obtain ⟨hg, hgs⟩ := List.forall_mem_cons.mp h
      obtain ⟨hchars, hlen⟩ := ih hgs
      have hfour := hgroup hg
      cases gs with
      | nil => exact ⟨hsubset g, hfour.trans (Nat.le_succ 4)⟩
      | cons g' gs =>
          rw [joined_cons]
          refine ⟨List.append_subset.mpr ⟨hsubset g, List.cons_subset.mpr ⟨by decide, hchars⟩⟩, ?_⟩
          simp only [List.length_append, List.length_cons] at hlen ⊢
          omega

theorem fullText_facts (a : BitVec 128) :
    fullText a ⊆ ("0123456789abcdef:" : Text) ∧ (fullText a).length ≤ 40 ∧
      parse (fullText a) = some a := by
  have hle : (groupsOf a.toNat).length ≤ 8 := length_groupsOf_le_iff.mpr a.isLt
  let gs := List.replicate (8 - (groupsOf a.toNat).length) 0 ++ groupsOf a.toNat
  have hlen : gs.length = 8 := by
    rw [List.length_append, List.length_replicate, Nat.sub_add_cancel hle]
  have hlt : ∀ g ∈ gs, g < BASE := by
    intro g hg
    rcases List.mem_append.mp hg with hg | hg
    · rw [List.eq_of_mem_replicate hg]
      decide
    · exact lt_of_mem_groupsOf hg
  have hvalue : ofGroups gs = a := by
    rw [ofGroups, List.reverse_append, List.reverse_replicate, Nat.ofDigits_append_replicate_zero,
      groupsOf, List.reverse_reverse, Nat.ofDigits_digits]
    simp
  obtain ⟨hsubset, hbound⟩ := joined_bounds hlt
  rw [hlen] at hbound
  have hne : gs ≠ [] := fun heq => by simp [heq] at hlen
  refine ⟨hsubset, hbound, ?_⟩
  rw [fullText, parse_joined hne hlt, if_pos hlen, hvalue]

end Ipv6

namespace Dialogue

theorem addressTexts_full {env : ThreadEnvironment} (h : env.getAllByName = Ipv6.parse) :
    AddressTexts env Ipv6.fullText where
  subset a := List.Subset.trans (Ipv6.fullText_facts a).1 (by decide)
  ne_nil a hnil := by
    have hparse := (Ipv6.fullText_facts a).2.2
    rw [hnil] at hparse
    exact absurd hparse (by simp [Ipv6.parse, Ipv6.splitGap, Ipv6.parseGroups])
  length_le a := (Ipv6.fullText_facts a).2.1.trans (by decide)
  getAllByName a := by
    rw [h]
    exact (Ipv6.fullText_facts a).2.2

end Dialogue

end OpenVpnAndroid
