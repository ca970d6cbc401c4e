/-
  OpenVpnAndroid/TunHandshake.lean
  ================================
  **The app has collected what OpenVPN has described.**

  A piece of OpenVPN's code that asks the app takes the service of the app from one state to
  another and comes to a result (`Does`), however the streams between them are cut.  The rules
  for the single requests come from the confirmations, those for the loops by induction.
-/
import OpenVpnAndroid.TunSetup

namespace OpenVpnAndroid

namespace Dialogue

open ManagementConnection ManagementThread

/-! ### Code that asks -/

/-- From this state of the service the code comes to a result, and the service to that one. -/
def Does {α : Type} (code : Asking α) (s : TunService) (a : α) (s' : TunService) : Prop :=
  ∀ d : Dialogue, Idle d.openvpn → d.app.service = s →
    ∃ d', code d = some (a, d') ∧ Idle d'.openvpn ∧ d'.app.service = s'

variable {α β : Type} {code : Asking α} {s s' s'' : TunService} {a : α}

theorem Does.pure (s : TunService) (a : α) : Does (Pure.pure a) s a s := fun d hidle hs =>
  ⟨d, rfl, hidle, hs⟩

theorem Does.bind {f : α → Asking β} {b : β} (h : Does code s a s') (hf : Does (f a) s' b s'') :
    Does (code >>= f) s b s'' := by
  intro d hidle hs
  obtain ⟨d', hcode, hidle', hs'⟩ := h d hidle hs
  obtain ⟨d'', hrest, hidle'', hs''⟩ := hf d' hidle' hs'
  refine ⟨d'', ?_, hidle'', hs''⟩
  change ((code d).bind fun r => f r.1 r.2) = _
  rw [hcode]
  exact hrest

/-! ### Calls of the service -/

section Run

variable {γ δ : Type} {method : Collecting.Code γ} {rest : γ → Collecting.Code δ} {c c' : Collecting}

theorem run_bind_ok {x : γ} (h : method.run.run c = (.ok x, c')) :
    (method >>= rest).run.run c = (rest x).run.run c' := by
  change ((method.run >>= ExceptT.bindCont rest).run c) = _
  rw [StateT.run_bind, h]
  rfl

theorem run_bind_error {stop : Stop} (h : method.run.run c = (.error stop, c')) :
    (method >>= rest).run.run c = (.error stop, c') := by
  change ((method.run >>= ExceptT.bindCont rest).run c) = _
  rw [StateT.run_bind, h]
  rfl

end Run

/-- The calls one after another. -/
def callsCode (calls : List ConfigCall) : Collecting.Code Unit := calls.forM ConfigCall.code

theorem serviceCalls_eq (calls : List ConfigCall) (t : ManagementThread) :
    serviceCalls calls t =
      (((callsCode calls).run.run t.service.toCollecting).1, { t with service := { t.service with
        toCollecting := ((callsCode calls).run.run t.service.toCollecting).2 } }) := by
  induction calls generalizing t with
  | nil => rfl
  | cons call calls ih =>
      have hcode : callsCode (call :: calls) = call.code >>= fun _ => callsCode calls := rfl
      rw [serviceCalls, serviceCall, hcode]
      rcases h : call.code.run.run t.service.toCollecting with ⟨_ | _, c'⟩
      · rw [run_bind_error h]
      · rw [run_bind_ok h]
        exact ih _

/-! ### Requests -/

variable {env : ThreadEnvironment} {socket : Socket} {command msg : Text}

/-- A request that leads to calls of the service. -/
theorem does_calls (hcommand : Confirmable command) (hmsg : AsciiPrintable msg)
    {calls : List ConfigCall} {c : Collecting}
    (haction : needAction env command (delivered command msg) = .ok (.calls calls))
    (hcalls : (callsCode calls).run.run s.toCollecting = (.ok (), c)) :
    Does (management_android_control env socket command msg) s true
      { s with toCollecting := c } := by
  intro d hidle hs
  have hperform : d.app.processNeedCommand env (needPrompt command ++ delivered command msg) =
      (.ok (), { d.app with service := { s with toCollecting := c } }.managmentCommand
        (needokCommand command "ok")) := by
    rw [processNeedCommand_eq _ hcommand haction, perform, serviceCalls_eq, hs, hcalls]
  obtain ⟨s', hidle', hcontrol⟩ := management_android_control_eq env socket hidle hcommand hmsg
    status_ok (congrArg Prod.snd hperform) rfl
  exact ⟨_, hcontrol, hidle', rfl⟩

end Dialogue

/-! ### The methods of the service -/

theorem prefixLength_eq_some_iff {mask : BitVec 32} {len : Nat} :
    prefixLength mask = some len ↔ IsNetmask mask.toNat len := by
  constructor
  · intro h
    have hmem := List.mem_of_find?_eq_some h
    have heq := List.find?_some h
    simp only [List.mem_range, decide_eq_true_eq] at hmem heq
    exact ⟨Nat.lt_succ_iff.mp hmem, heq⟩
  · intro h
    cases hfind : prefixLength mask with
    | none =>
        have hnone := List.find?_eq_none.mp hfind len (List.mem_range.mpr (Nat.lt_succ_of_le h.1))
        exact absurd h.2 (by simpa using hnone)
    | some len' =>
        have hmem := List.mem_of_find?_eq_some hfind
        have heq := List.find?_some hfind
        simp only [List.mem_range, decide_eq_true_eq] at hmem heq
        rw [h.unique ⟨Nat.lt_succ_iff.mp hmem, heq⟩]

theorem prefixLength_eq_none_iff {mask : BitVec 32} :
    prefixLength mask = none ↔ ∀ len, ¬IsNetmask mask.toNat len := by
  rw [Option.eq_none_iff_forall_ne_some]
  simp only [ne_eq, prefixLength_eq_some_iff]

theorem calculateLenFromMask_print (mask : BitVec 32) :
    CIDRIP.calculateLenFromMask (print_in_addr_t mask) = .ok ((prefixLength mask).getD 32 : Nat) := by
  cases h : prefixLength mask with
  | none => exact CIDRIP.calculateLenFromMask_other mask.isLt (prefixLength_eq_none_iff.mp h)
  | some len => exact CIDRIP.calculateLenFromMask_netmask (prefixLength_eq_some_iff.mp h)

theorem InterfaceLength.eq {address argument : BitVec 32} {mode : Text} {len : Nat}
    (h : InterfaceLength address argument mode len) : len = interfaceLength address argument mode := by
  rw [interfaceLength]
  cases hlen : prefixLength argument with
  | none => exact h.peer (prefixLength_eq_none_iff.mp hlen)
  | some n => exact h.netmask n (prefixLength_eq_some_iff.mp hlen)

theorem RouteIpv4.length_le (r : RouteIpv4) : r.length ≤ 32 := by
  rw [RouteIpv4.length]
  cases h : prefixLength r.netmask with
  | none => exact le_rfl
  | some len => exact (prefixLength_eq_some_iff.mp h).1

/-- The network of the interface contains the gateway. -/
theorem containsNet_host (address gateway : BitVec 32) {len : Nat} (hlen : len ≤ 32)
    (included : Bool) :
    (⟨address.toNat, len, true⟩ : TunRoute true).containsNet ⟨gateway.toNat, 32, included⟩ =
      decide (SameBlock gateway address len) := by
  have hbits : (interfaceRoute address len).numBits = 32 - len := by
    change ((32 : Int) - len).toNat = 32 - len
    omega
  have hfirst : (⟨address.toNat, len, true⟩ : TunRoute true).getFirstAddress =
      (interfaceRoute address len).getFirstAddress := by
    change (address.toNat : Int) / 2 ^ (interfaceRoute address len).numBits
      * 2 ^ (interfaceRoute address len).numBits = _
    rw [TunRoute.getFirstAddress, hbits, interfaceRoute]
    push_cast
    rw [Int.mul_ediv_cancel _ (by positivity)]
  have hlast : (⟨address.toNat, len, true⟩ : TunRoute true).getLastAddress =
      (interfaceRoute address len).getLastAddress := by
    rw [TunRoute.getLastAddress, hfirst]
    rfl
  have hgateway : (⟨gateway.toNat, 32, included⟩ : TunRoute true).getFirstAddress = gateway.toNat ∧
      (⟨gateway.toNat, 32, included⟩ : TunRoute true).getLastAddress = gateway.toNat := by
    simp [TunRoute.getLastAddress, TunRoute.getFirstAddress, TunRoute.numBits, addressBits]
  have hhas := has_interfaceRoute address gateway hlen
  rw [TunRoute.containsNet, hfirst, hlast, hgateway.1, hgateway.2, ← Bool.decide_and]
  exact decide_eq_decide.mpr hhas

/-! ### Texts -/

theorem print_in_addr_t_inj {a a' : BitVec 32} :
    print_in_addr_t a = print_in_addr_t a' ↔ a = a' :=
  ⟨fun h => BitVec.eq_of_toNat_eq (dottedQuad_injective a.isLt a'.isLt h), fun h => h ▸ rfl⟩

namespace Collecting

variable {c : Collecting} {tt : Tuntap} {p : BitVec 32 × BitVec 32}

theorem run_get {β : Type} (rest : Collecting → Code β) :
    ((get >>= rest : Code β).run.run c) = (rest c).run.run c := rfl

theorem ofMask_print (address mask : BitVec 32) :
    CIDRIP.ofMask (print_in_addr_t address) (print_in_addr_t mask) =
      .ok ⟨print_in_addr_t address, ((prefixLength mask).getD 32 : Nat)⟩ := by
  rw [CIDRIP.ofMask, calculateLenFromMask_print]
  rfl

theorem ofCIDRIP_print (a : BitVec 32) (len : Int) (included : Bool) :
    TunRoute.ofCIDRIP ⟨print_in_addr_t a, len⟩ included = .ok ⟨a.toNat, len, included⟩ := by
  rw [TunRoute.ofCIDRIP, print_in_addr_t, CIDRIP.getInt_dottedQuad a.isLt]
  rfl

/-- Without an interface a route is not taken. -/
theorem addRoute_run_none (hlocal : c.tunConfig.mLocalIP = none) (r : RouteIpv4)
    (device : Option Text) :
    (addRoute (print_in_addr_t r.network) (print_in_addr_t r.netmask) (print_in_addr_t r.gateway)
      device).run.run c = (.ok (), c) := by
  rw [addRoute, run_lift (ofMask_print r.network r.netmask),
    run_lift (ofCIDRIP_print r.gateway 32 false), run_get, hlocal]
  rfl

/-- A route of OpenVPN comes into the configuration. -/
theorem addRoute_run (hlocal : c.tunConfig.mLocalIP = some ⟨print_in_addr_t p.1, tt.localLength p⟩)
    (hlen : tt.localLength p ≤ 32) (hgateway : c.mRemoteGW = some (print_in_addr_t p.2))
    (r : RouteIpv4) :
    (addRoute (print_in_addr_t r.network) (print_in_addr_t r.netmask) (print_in_addr_t r.gateway)
        (some android_gw)).run.run c =
      (.ok (), { c with tunConfig := { c.tunConfig with
        mRoutes := (tt.routeOf p r).treeAdd c.tunConfig.mRoutes } }) := by
  have hroute : CIDRIP.ofMask (print_in_addr_t r.network) (print_in_addr_t r.netmask) =
      .ok ⟨print_in_addr_t r.network, (r.length : Nat)⟩ := ofMask_print r.network r.netmask
  have hnormal : CIDRIP.normalise ⟨print_in_addr_t r.network, (r.length : Nat)⟩ =
      .ok ⟨dottedQuad (networkAddress r.network.toNat r.length), (r.length : Nat)⟩ :=
    CIDRIP.normalise_dottedQuad r.network.isLt r.length_le
  have hadded : ∀ included, TunRoute.ofCIDRIP
      ⟨dottedQuad (networkAddress r.network.toNat r.length), (r.length : Nat)⟩ included =
        .ok ⟨networkAddress r.network.toNat r.length, (r.length : Nat), included⟩ := by
    intro included
    have hlt := Nat.lt_of_le_of_lt (networkAddress_le r.network.toNat r.length) r.network.isLt
    rw [TunRoute.ofCIDRIP, CIDRIP.getInt_dottedQuad hlt]
    rfl
  have hdevice : isAndroidTunDevice (some android_gw) = false := by decide
  have hall : ("255.255.255.255" : Text) = print_in_addr_t 0xffffffff := by decide
  have hincluded : (isAndroidTunDevice (some android_gw) ||
      (⟨p.1.toNat, (tt.localLength p : Nat), true⟩ : TunRoute true).containsNet
        ⟨r.gateway.toNat, 32, false⟩ || print_in_addr_t r.gateway == ("255.255.255.255" : Text) ||
      some (print_in_addr_t r.gateway) == c.mRemoteGW) = decide (tt.Includes p r) := by
    rw [hdevice, containsNet_host p.1 r.gateway hlen, hall, hgateway, Bool.eq_iff_iff,
      decide_eq_true_iff]
    simp [Tuntap.Includes, print_in_addr_t_inj, or_assoc]
  rw [addRoute, run_lift hroute, run_lift (ofCIDRIP_print r.gateway 32 false), run_get, hlocal]
  dsimp only
  rw [run_lift (ofCIDRIP_print p.1 (tt.localLength p) true), run_get, hincluded,
    run_lift hnormal, addIP, run_lift (hadded _)]
  rfl

theorem localLength_le (tt : Tuntap) (p : BitVec 32 × BitVec 32) : tt.localLength p ≤ 32 := by
  obtain ⟨-, len, -, hle, hlen, -⟩ := exists_interfaceLength p.1 p.2 tt.topology.text
  rwa [Tuntap.localLength, ← hlen.eq]

/-- The interface comes into the configuration. -/
theorem setLocalIP_print (tt : Tuntap) (p : BitVec 32 × BitVec 32) (mtu : Int) :
    (setLocalIP (print_in_addr_t p.1) (print_in_addr_t p.2) mtu tt.topology.text).run.run c =
      (.ok (), {
        tunConfig := { c.tunConfig with
          mLocalIP := some ⟨print_in_addr_t p.1, tt.localLength p⟩
          mMtu := mtu
          mRoutes := if tt.localLength p ≤ 31 then
            (interfaceRoute p.1 (tt.localLength p)).treeAdd c.tunConfig.mRoutes
          else c.tunConfig.mRoutes }
        mRemoteGW := some (print_in_addr_t p.2) }) := by
  obtain ⟨len₀, len, hmask, hle, hlen, heq⟩ := exists_interfaceLength p.1 p.2 tt.topology.text
  have hrun := @setLocalIP_run c _ _ tt.topology.text mtu _ _ _ _ _ _ hmask
    (CIDRIP.getInt_dottedQuad p.2.isLt) (CIDRIP.getInt_dottedQuad p.1.isLt) heq
    (CIDRIP.normalise_dottedQuad p.1.isLt hle) (ofCIDRIP_interface p.1 len)
  obtain rfl : len = tt.localLength p := hlen.eq
  have hsmall : ((tt.localLength p : Nat) : Int) ≤ 31 ↔ tt.localLength p ≤ 31 := by omega
  simpa only [print_in_addr_t, hsmall] using hrun

end Collecting

/-! ### Messages -/

/-- A text between blanks. -/
structure MessageField (text : Text) : Prop where
  printable : Dialogue.AsciiPrintable text
  blank : ' ' ∉ text
  ne_nil : text ≠ []

theorem messageField_of_subset {text : Text} (characters : Text) (h : text ⊆ characters)
    (hall : characters.all (fun c => 33 ≤ c.toNat && c.toNat < 127) = true) (hne : text ≠ []) :
    MessageField text := by
  have hchar : ∀ c ∈ text, 33 ≤ c.toNat ∧ c.toNat < 127 := by
    intro c hc
    simpa using List.all_eq_true.mp hall c (h hc)
  refine ⟨fun c hc => ?_, fun hmem => absurd (hchar _ hmem).1 (by decide), hne⟩
  have := hchar c hc
  omega

theorem messageField_decimal (n : Int) : MessageField (decimal n) :=
  messageField_of_subset _ (decimal_subset n) (by decide) (decimal_ne_nil n)

theorem length_decimal_le {n size : Nat} (hsize : 0 < size) (hn : n < 10 ^ size) :
    (decimal n).length ≤ size := by
  rw [decimal_natCast]
  exact (Nat.length_toDigits_le_iff (by decide) hsize).mpr hn

theorem messageField_addr (a : BitVec 32) : MessageField (print_in_addr_t a) := by
  refine messageField_of_subset _ (TunRoute.getIPv4Address_subset _) (by decide) ?_
  rw [print_in_addr_t, dottedQuad_eq]
  simp

theorem length_addr_le (a : BitVec 32) : (print_in_addr_t a).length ≤ 15 := by
  have hpart : ∀ n, (Nat.toDigits 10 (n % 256)).length ≤ 3 := fun n =>
    (Nat.length_toDigits_le_iff (by decide) (by decide)).mpr
      (Nat.lt_trans (Nat.mod_lt n (by decide)) (by decide))
  have h₁ := hpart (a.toNat / 2 ^ 24)
  have h₂ := hpart (a.toNat / 2 ^ 16)
  have h₃ := hpart (a.toNat / 2 ^ 8)
  have h₄ := hpart a.toNat
  rw [print_in_addr_t, dottedQuad_eq]
  simp only [List.length_append, List.length_cons]
  omega

theorem messageField_topology (topology : Topology) :
    MessageField topology.text ∧ topology.text.length ≤ 6 := by
  cases topology
  all_goals
    exact ⟨messageField_of_subset _ (List.Subset.refl _) (by decide) (by decide), by decide⟩

theorem asciiPrintable_join {fields : List Text}
    (h : ∀ field ∈ fields, Dialogue.AsciiPrintable field) :
    Dialogue.AsciiPrintable (join ' ' fields) := by
  induction fields with
  | nil => exact fun c hc => absurd hc List.not_mem_nil
  | cons field fields ih =>
      obtain ⟨hfield, hfields⟩ := List.forall_mem_cons.mp h
      cases fields with
      | nil => exact hfield
      | cons field' fields =>
          refine .append hfield fun c hc => ?_
          rcases List.mem_cons.mp hc with rfl | hc
          · decide
          · exact ih hfields c hc

/-- The fields are read back. -/
theorem split_join {fields : List Text} (hne : fields ≠ [])
    (h : ∀ field ∈ fields, MessageField field) :
    split (· == ' ') (join ' ' fields) = fields := by
  have hnone : ∀ {field : Text}, ' ' ∉ field → ∀ c ∈ field, (c == ' ') = false := by
    intro field hfield c hc
    exact beq_eq_false_iff_ne.mpr fun heq => hfield (heq ▸ hc)
  have hpieces : pieces (· == ' ') (join ' ' fields) = fields := by
    induction fields with
    | nil => exact absurd rfl hne
    | cons field fields ih =>
        obtain ⟨hfield, hfields⟩ := List.forall_mem_cons.mp h
        cases fields with
        | nil => exact pieces_of_none (hnone hfield.blank)
        | cons field' fields =>
            rw [join_cons_cons, pieces_append _ (hnone hfield.blank) rfl,
              ih (List.cons_ne_nil _ _) hfields]
  rw [split]
  split_ifs with hany
  · rw [hpieces]
    have hreverse : fields.reverse.dropWhile List.isEmpty = fields.reverse := by
      refine List.dropWhile_eq_self_iff.mpr fun hlen => ?_
      have hmem := List.mem_reverse.mp (List.getElem_mem hlen)
      simpa using (h _ hmem).ne_nil
    rw [hreverse, List.reverse_reverse]
  · have hblank : ' ' ∉ join ' ' fields := by simpa using hany
    rw [pieces_of_none (hnone hblank)] at hpieces
    exact hpieces

namespace Dialogue

open ManagementThread

variable {env : ThreadEnvironment} {socket : Socket} {s : TunService} {command : Text}

/-- A message for which there is room. -/
theorem delivered_of_le {msg : Text} (h : command.length + msg.length ≤ 93) :
    delivered command msg = msg := List.take_of_length_le (by omega)

/-- A request of fields between blanks that fit. -/
theorem does_fields (hcommand : Confirmable command) {fields : List Text} {size len : Nat}
    (hfields : ∀ field ∈ fields, MessageField field) (hlen : (join ' ' fields).length ≤ len)
    (hsize : len < size) (hroom : command.length + len ≤ 93) {calls : List ConfigCall} {c : Collecting}
    (haction : needAction env command (join ' ' fields) = .ok (.calls calls))
    (hcalls : (callsCode calls).run.run s.toCollecting = (.ok (), c)) :
    Does (management_android_control env socket command
      (openvpn_snprintf size (join ' ' fields))) s true { s with toCollecting := c } := by
  have hfits : openvpn_snprintf size (join ' ' fields) = join ' ' fields :=
    List.take_of_length_le (Nat.le_sub_one_of_lt (Nat.lt_of_le_of_lt hlen hsize))
  have hdelivered : delivered command (join ' ' fields) = join ' ' fields :=
    delivered_of_le (by omega)
  rw [hfits]
  refine does_calls hcommand (asciiPrintable_join fun field hfield =>
    (hfields field hfield).printable) ?_ hcalls
  rw [hdelivered]
  exact haction

theorem callsCode_singleton (call : ConfigCall) {c c' : Collecting}
    (h : call.code.run.run c = (.ok (), c')) : (callsCode [call]).run.run c = (.ok (), c') := by
  change (call.code >>= fun _ => callsCode []).run.run c = _
  rw [run_bind_ok h]
  rfl

theorem part_decimal {parts : List Text} {i n : Nat} (h : parts[i]? = some (decimal n))
    (hn : n < 2 ^ 31) : CIDRIP.part parseInt parts i = .ok (n : Int) := by
  have hparse : parseInt (decimal n) = some (n : Int) := by
    rw [decimal_natCast]
    exact parseSigned_toDigits hn
  rw [CIDRIP.part, vectorGet_of_getElem? h]
  simp only [bind, Except.bind, hparse]
  rfl

theorem needAction_ifconfig (extra : Text) :
    needAction env "IFCONFIG" extra = (do
      let mtu ← CIDRIP.part parseInt (split (· == ' ') extra) 2
      let localIP ← vectorGet (split (· == ' ') extra) 0
      let netmask ← vectorGet (split (· == ' ') extra) 1
      let mode ← vectorGet (split (· == ' ') extra) 3
      return .calls [.setLocalIP localIP netmask mtu mode]) := rfl

/-- `IFCONFIG` -/
theorem does_ifconfig_ipv4 (tt : Tuntap) (hmtu : tt.tun_mtu < 2 ^ 31) (p : BitVec 32 × BitVec 32) :
    Does (do_ifconfig_ipv4 env socket tt (some p)) s () { s with toCollecting := {
      tunConfig := { s.tunConfig with
        mLocalIP := some ⟨print_in_addr_t p.1, tt.localLength p⟩
        mMtu := tt.tun_mtu
        mRoutes := if tt.localLength p ≤ 31 then
          (interfaceRoute p.1 (tt.localLength p)).treeAdd s.tunConfig.mRoutes
        else s.tunConfig.mRoutes }
      mRemoteGW := some (print_in_addr_t p.2) } } := by
  obtain ⟨htopology, htopologyLen⟩ := messageField_topology tt.topology
  let fields := [print_in_addr_t p.1, print_in_addr_t p.2, decimal tt.tun_mtu, tt.topology.text]
  have hfields : ∀ field ∈ fields, MessageField field := by
    simp only [fields, List.forall_mem_cons]
    exact ⟨messageField_addr _, messageField_addr _, messageField_decimal _, htopology, by simp⟩
  have hlen : (join ' ' fields).length ≤ 49 := by
    have h₁ := length_addr_le p.1
    have h₂ := length_addr_le p.2
    have h₃ := @length_decimal_le tt.tun_mtu 10 (by decide) (by omega)
    simp only [fields, join, List.length_append, List.length_cons]
    omega
  have haction : needAction env "IFCONFIG" (join ' ' fields) = .ok (.calls
      [.setLocalIP (print_in_addr_t p.1) (print_in_addr_t p.2) tt.tun_mtu tt.topology.text]) := by
    rw [needAction_ifconfig, split_join (List.cons_ne_nil _ _) hfields, part_decimal rfl hmtu]
    rfl
  exact Does.bind (does_fields (confirmable_of_all (by decide) (by decide)) hfields hlen (by decide)
    (by decide) haction (callsCode_singleton _ (Collecting.setLocalIP_print tt p tt.tun_mtu)))
    (.pure _ _)

/-- The configuration that is collected becomes another one. -/
def mapConfig (s : TunService) (f : TunConfig → TunConfig) : TunService :=
  { s with toCollecting := { s.toCollecting with tunConfig := f s.tunConfig } }

/-! ### IPv6 addresses -/

/-- What is known of `inet_ntop` and of the resolver of the app. -/
structure AddressTexts (env : ThreadEnvironment) (print_in6_addr : BitVec 128 → Text) : Prop where
  subset : ∀ a, print_in6_addr a ⊆ ("0123456789abcdef:." : Text)
  ne_nil : ∀ a, print_in6_addr a ≠ []
  length_le : ∀ a, (print_in6_addr a).length ≤ 45
  getAllByName : ∀ a, env.getAllByName (print_in6_addr a) = some a

section Ipv6

variable {print_in6_addr : BitVec 128 → Text} (texts : AddressTexts env print_in6_addr)

include texts

theorem AddressTexts.field (a : BitVec 128) : MessageField (print_in6_addr a) :=
  messageField_of_subset _ (texts.subset a) (by decide) (texts.ne_nil a)

/-- An address and a prefix length. -/
theorem AddressTexts.prefixField (a : BitVec 128) (n : Nat) :
    MessageField (print_in6_addr a ++ '/' :: decimal n) := by
  refine messageField_of_subset "-0123456789abcdef:./" ?_ (by decide) (by simp)
  refine List.append_subset.mpr ⟨?_, List.cons_subset.mpr ⟨by decide, ?_⟩⟩
  · exact List.Subset.trans (texts.subset a) (by decide)
  · exact List.Subset.trans (decimal_subset n) (by decide)

end Ipv6

theorem needAction_ifconfig6 (extra : Text) :
    needAction env "IFCONFIG6" extra = (do
      let mtu ← CIDRIP.part parseInt (split (· == ' ') extra) 1
      let ipv6addr ← vectorGet (split (· == ' ') extra) 0
      return .calls [.setMtu mtu, .setLocalIPv6 (some ipv6addr)]) := rfl

/-- `IFCONFIG6` -/
theorem does_ifconfig_ipv6 {print_in6_addr : BitVec 128 → Text}
    (texts : AddressTexts env print_in6_addr) {tt : Tuntap} (hmtu : tt.tun_mtu < 2 ^ 31)
    (p : BitVec 128 × Nat) (hbits : p.2 ≤ 128) :
    Does (do_ifconfig_ipv6 env socket print_in6_addr tt (some p)) s ()
      (mapConfig s fun tc => { tc with
        mMtu := tt.tun_mtu
        mLocalIPv6 := some (print_in6_addr p.1 ++ '/' :: decimal p.2) }) := by
  let fields := [print_in6_addr p.1 ++ '/' :: decimal p.2, decimal tt.tun_mtu]
  have hfields : ∀ field ∈ fields, MessageField field := by
    simp only [fields, List.forall_mem_cons]
    exact ⟨texts.prefixField _ _, messageField_decimal _, by simp⟩
  have hlen : (join ' ' fields).length ≤ 60 := by
    have h₁ := texts.length_le p.1
    have h₂ := @length_decimal_le p.2 3 (by decide) (by omega)
    have h₃ := @length_decimal_le tt.tun_mtu 10 (by decide) (by omega)
    simp only [fields, join, List.length_append, List.length_cons]
    omega
  have haction : needAction env "IFCONFIG6" (join ' ' fields) = .ok (.calls
      [.setMtu tt.tun_mtu, .setLocalIPv6 (some (print_in6_addr p.1 ++ '/' :: decimal p.2))]) := by
    rw [needAction_ifconfig6, split_join (List.cons_ne_nil _ _) hfields, part_decimal rfl hmtu]
    rfl
  have hout : print_in6_addr p.1 ++ '/' :: (decimal p.2 ++ ' ' :: decimal tt.tun_mtu) =
      join ' ' fields := by
    simp [fields, join]
  rw [do_ifconfig_ipv6, hout]
  exact Does.bind (does_fields (confirmable_of_all (by decide) (by decide)) hfields hlen (by decide)
    (by decide) haction rfl) (.pure _ _)

/-! ### Routes -/

theorem needAction_route {extra dest mask gateway dev device : Text}
    (h : split (· == ' ') extra = [dest, mask, gateway, dev, device]) :
    needAction env "ROUTE" extra = .ok (.calls [.addRoute dest mask gateway (some device)]) := by
  unfold needAction
  rw [h]
  rfl

/-- The message for a route. -/
theorem does_route (r : RouteIpv4) {c : Collecting}
    (hrun : (Collecting.addRoute (print_in_addr_t r.network) (print_in_addr_t r.netmask)
      (print_in_addr_t r.gateway) (some android_gw)).run.run s.toCollecting = (.ok (), c)) :
    Does (add_route env socket r) s true { s with toCollecting := c } := by
  let fields := [print_in_addr_t r.network, print_in_addr_t r.netmask, print_in_addr_t r.gateway,
    ("dev" : Text), android_gw]
  have hfields : ∀ field ∈ fields, MessageField field := by
    simp only [fields, List.forall_mem_cons]
    refine ⟨messageField_addr _, messageField_addr _, messageField_addr _, ?_, ?_, by simp⟩
    all_goals exact messageField_of_subset _ (List.Subset.refl _) (by decide) (by decide)
  have hlen : (join ' ' fields).length ≤ 62 := by
    have h₁ := length_addr_le r.network
    have h₂ := length_addr_le r.netmask
    have h₃ := length_addr_le r.gateway
    have h₄ : ("dev" : Text).length = 3 := rfl
    have h₅ : android_gw.length = 10 := rfl
    simp only [fields, join, List.length_append, List.length_cons]
    omega
  have hout : print_in_addr_t r.network ++ ' ' :: (print_in_addr_t r.netmask
      ++ ' ' :: (print_in_addr_t r.gateway ++ (" dev " : Text) ++ android_gw)) =
        join ' ' fields := by
    simp [fields, join]
  rw [add_route, hout]
  exact does_fields (confirmable_of_all (by decide) (by decide)) hfields hlen (by decide)
    (by decide) (needAction_route (split_join (List.cons_ne_nil _ _) hfields))
    (callsCode_singleton _ hrun)

/-- The app knows the interface. -/
structure Interface (tt : Tuntap) (s : TunService) : Prop where
  mLocalIP : s.tunConfig.mLocalIP =
    tt.ifconfig.map fun p => ⟨print_in_addr_t p.1, tt.localLength p⟩
  mRemoteGW : ∀ p ∈ tt.ifconfig, s.mRemoteGW = some (print_in_addr_t p.2)

/-- The service after a route; without an interface it is not taken. -/
def routeStep (tt : Tuntap) (s : TunService) (r : RouteIpv4) : TunService :=
  match tt.ifconfig with
  | none => s
  | some p => mapConfig s fun tc => { tc with mRoutes := (tt.routeOf p r).treeAdd tc.mRoutes }

theorem Interface.routeStep {tt : Tuntap} (h : Interface tt s) (r : RouteIpv4) :
    Interface tt (routeStep tt s r) := by
  obtain ⟨hlocal, hgateway⟩ := h
  unfold Dialogue.routeStep
  split
  · exact ⟨hlocal, hgateway⟩
  · exact ⟨hlocal, hgateway⟩

theorem does_add_route {tt : Tuntap} (h : Interface tt s) (r : RouteIpv4) :
    Does (add_route env socket r) s true (routeStep tt s r) := by
  obtain ⟨hlocal, hgateway⟩ := h
  rw [Dialogue.routeStep]
  cases hifconfig : tt.ifconfig with
  | none =>
      rw [hifconfig] at hlocal
      exact does_route r (Collecting.addRoute_run_none hlocal r _)
  | some p =>
      rw [hifconfig] at hlocal
      exact does_route r (Collecting.addRoute_run hlocal (Collecting.localLength_le tt p)
        (hgateway p hifconfig) r)

/-- All routes of a list are confirmed. -/
theorem Does.addAll {ρ : Type} {add : ρ → Asking Bool} {step : TunService → ρ → TunService}
    (invariant : TunService → Prop) (hstep : ∀ s r, invariant s → invariant (step s r))
    (hadd : ∀ s r, invariant s → Does (add r) s true (step s r)) (rs : List ρ) (ret : Bool)
    (hs : invariant s) : Does (addAll add rs ret) s ret (rs.foldl step s) := by
  induction rs generalizing s with
  | nil => exact .pure s ret
  | cons r rs ih => exact (hadd s r hs).bind (ih (hstep s r hs))

theorem does_redirect {tt : Tuntap} (h : Interface tt s) (rl : RouteList) :
    Does (redirect_default_route_to_vpn env socket rl) s rl.complete
      (rl.defaultRoutes.foldl (routeStep tt) s) := by
  rw [redirect_default_route_to_vpn, RouteList.complete, RouteList.defaultRoutes]
  cases rl.enable && rl.rerouteGw with
  | false => exact .pure s true
  | true =>
      cases rl.remote_endpoint with
      | none => exact .pure s false
      | some gateway => exact (does_add_route h ⟨0, 0, gateway⟩).bind (.pure _ true)

theorem needAction_route6 (extra : Text) :
    needAction env "ROUTE6" extra = (do
      let network ← vectorGet (split (· == ' ') extra) 0
      let device ← vectorGet (split (· == ' ') extra) 1
      let host ← vectorGet (split (· == '/') network) 0
      return .calls [.addRoutev6 network (some device) (env.getAllByName host)]) := rfl

/-- The service after a route of an IPv6 network. -/
def route6Step (s : TunService) (r6 : RouteIpv6) : TunService :=
  mapConfig s fun tc => { tc with mRoutesv6 := r6.routeOf.treeAdd tc.mRoutesv6 }

/-- `ROUTE6` -/
theorem does_add_route_ipv6 {print_in6_addr : BitVec 128 → Text}
    (texts : AddressTexts env print_in6_addr) (s : TunService) (r6 : RouteIpv6) :
    Does (add_route_ipv6 env socket print_in6_addr r6) s true (route6Step s r6) := by
  let network := print_in6_addr r6.clear_host_bits ++ '/' :: decimal r6.netbits
  let fields := [network, actual_name]
  have hfields : ∀ field ∈ fields, MessageField field := by
    simp only [fields, List.forall_mem_cons]
    refine ⟨texts.prefixField _ _, ?_, by simp⟩
    exact messageField_of_subset _ (List.Subset.refl _) (by decide) (by decide)
  have hlen : (join ' ' fields).length ≤ 56 := by
    have h₁ := texts.length_le r6.clear_host_bits
    have h₂ := @length_decimal_le r6.netbits 3 (by decide)
      (Nat.lt_of_le_of_lt r6.netbits_le (by decide))
    have h₃ : actual_name.length = 6 := rfl
    simp only [fields, network, join, List.length_append, List.length_cons]
    omega
  have hslash : split (· == '/') network =
      [print_in6_addr r6.clear_host_bits, decimal r6.netbits] := by
    have hnone : ∀ c ∈ print_in6_addr r6.clear_host_bits, (c == '/') = false := fun c hc =>
      beq_eq_false_iff_ne.mpr fun heq =>
        absurd (texts.subset _ (heq ▸ hc)) (by decide)
    rw [split_append_cons _ rfl (fun c hc => beq_eq_false_iff_ne.mpr fun heq =>
      TunRoute.slash_notMem_decimal _ (heq ▸ hc)) (decimal_ne_nil _), pieces_of_none hnone]
    rfl
  have haction : needAction env "ROUTE6" (join ' ' fields) = .ok (.calls
      [.addRoutev6 network (some actual_name) (some r6.clear_host_bits)]) := by
    rw [needAction_route6, split_join (List.cons_ne_nil _ _) hfields]
    change (do
      let host ← vectorGet (split (· == '/') network) 0
      return NeedAction.calls [.addRoutev6 network (some actual_name) (env.getAllByName host)]) = _
    rw [hslash, ← texts.getAllByName r6.clear_host_bits]
    rfl
  have hroute : TunRoute.ofText network (some r6.clear_host_bits) true = .ok (some r6.routeOf) := by
    have hmask : CIDRIP.part parseInt [print_in6_addr r6.clear_host_bits, decimal r6.netbits] 1 =
        .ok (r6.netbits : Int) :=
      part_decimal rfl (Nat.lt_of_le_of_lt r6.netbits_le (by decide))
    rw [TunRoute.ofText, hslash]
    change (do
      let mask ← CIDRIP.part parseInt [print_in6_addr r6.clear_host_bits, decimal r6.netbits] 1
      return some (⟨r6.clear_host_bits.toNat, mask, true⟩ : TunRoute false)) = _
    rw [hmask]
    rfl
  have hrun : (ConfigCall.addRoutev6 network (some actual_name)
      (some r6.clear_host_bits)).code.run.run s.toCollecting =
        (.ok (), (route6Step s r6).toCollecting) := by
    change (Collecting.addIPv6 network (some r6.clear_host_bits) true).run.run s.toCollecting = _
    rw [Collecting.addIPv6, Collecting.run_lift hroute]
    rfl
  have hout : print_in6_addr r6.clear_host_bits ++ '/' :: (decimal r6.netbits
      ++ ' ' :: actual_name) = join ' ' fields := by
    simp [fields, network, join]
  rw [add_route_ipv6, hout]
  exact does_fields (confirmable_of_all (by decide) (by decide)) hfields hlen (by decide)
    (by decide) haction (callsCode_singleton _ hrun)

/-! ### Options of the tun -/

theorem Does.controls {step : TunService → Text → TunService} {msgs : List Text}
    (h : ∀ msg ∈ msgs, ∀ s, Does (management_android_control env socket command msg) s true
      (step s msg)) (s : TunService) :
    Does (controls env socket command msgs) s () (msgs.foldl step s) := by
  induction msgs generalizing s with
  | nil => exact .pure s ()
  | cons msg msgs ih =>
      obtain ⟨hmsg, hmsgs⟩ := List.forall_mem_cons.mp h
      exact (hmsg s).bind (ih hmsgs _)

/-- The service after a name server. -/
def dnsStep (s : TunService) (dns : Text) : TunService :=
  mapConfig s fun tc => { tc with mDnslist := tc.mDnslist ++ [dns] }

/-- `DNSSERVER` and `DNS6SERVER` -/
theorem does_dns (hcommand : command = "DNSSERVER" ∨ command = "DNS6SERVER") {msg : Text}
    (hmsg : AsciiPrintable msg) (hlen : msg.length ≤ 45) (s : TunService) :
    Does (management_android_control env socket command msg) s true (dnsStep s msg) := by
  have hroom : command.length + msg.length ≤ 93 := by
    rcases hcommand with rfl | rfl
    · exact (Nat.add_le_add_left hlen _).trans (by decide)
    · exact (Nat.add_le_add_left hlen _).trans (by decide)
  have haction : needAction env command (delivered command msg) = .ok (.calls [.addDNS msg]) := by
    rw [delivered_of_le hroom]
    rcases hcommand with rfl | rfl
    · rfl
    · rfl
  have hconfirmable : Confirmable command := by
    rcases hcommand with rfl | rfl
    · exact confirmable_of_all (by decide) (by decide)
    · exact confirmable_of_all (by decide) (by decide)
  exact does_calls hconfirmable hmsg haction (callsCode_singleton _ rfl)

/-- The service after a domain; the first one stays. -/
def domainStep (s : TunService) (domain : Text) : TunService :=
  mapConfig s fun tc => { tc with mDomain := tc.mDomain <|> some (delivered "DNSDOMAIN" domain) }

/-- `DNSDOMAIN` -/
theorem does_domain {domain : Text} (hdomain : AsciiPrintable domain) (s : TunService) :
    Does (management_android_control env socket "DNSDOMAIN" domain) s true (domainStep s domain) :=
  does_calls (confirmable_of_all (by decide) (by decide)) hdomain rfl (callsCode_singleton _ rfl)

theorem needAction_httpProxy {extra proxy port : Text}
    (h : split (· == ' ') extra = [proxy, port]) :
    needAction env "HTTPPROXY" extra = (do
      let port ← CIDRIP.part parseInt [proxy, port] 1
      return .calls [.addHttpProxy proxy port (env.buildDirectProxy proxy port)]) := by
  unfold needAction
  rw [h]
  rfl

/-- The service after a proxy. -/
def proxyStep (env : ThreadEnvironment) (s : TunService) (p : Text × Nat) : TunService :=
  mapConfig s fun tc =>
    if env.buildDirectProxy p.1 p.2 then { tc with mProxyInfo := some ⟨p.1, p.2⟩ } else tc

/-- `HTTPPROXY` -/
theorem does_httpProxy {p : Text × Nat} (hproxy : MessageField p.1) (hlen : p.1.length ≤ 78)
    (hport : p.2 < 65536) (s : TunService) :
    Does (management_android_control env socket "HTTPPROXY" (p.1 ++ ' ' :: decimal p.2)) s true
      (proxyStep env s p) := by
  have hfields : ∀ field ∈ [p.1, decimal p.2], MessageField field := by
    simp only [List.forall_mem_cons]
    exact ⟨hproxy, messageField_decimal _, by simp⟩
  have hroom : ("HTTPPROXY" : Text).length + (p.1 ++ ' ' :: decimal p.2).length ≤ 93 := by
    have h₁ := @length_decimal_le p.2 5 (by decide) (by omega)
    have h₂ : ("HTTPPROXY" : Text).length = 9 := rfl
    simp only [List.length_append, List.length_cons]
    omega
  have haction : needAction env "HTTPPROXY" (delivered "HTTPPROXY" (p.1 ++ ' ' :: decimal p.2)) =
      .ok (.calls [.addHttpProxy p.1 p.2 (env.buildDirectProxy p.1 p.2)]) := by
    have hsplit : split (· == ' ') (p.1 ++ ' ' :: decimal p.2) = [p.1, decimal p.2] :=
      split_join (List.cons_ne_nil _ _) hfields
    rw [delivered_of_le hroom, needAction_httpProxy hsplit, part_decimal rfl (by omega)]
    rfl
  have hprintable : AsciiPrintable (p.1 ++ ' ' :: decimal p.2) :=
    asciiPrintable_join fun field hfield => (hfields field hfield).printable
  exact does_calls (confirmable_of_all (by decide) (by decide)) hprintable haction
    (callsCode_singleton _ rfl)

/-! ### Opening -/

/-- The code waits for an answer for ever. -/
def Waits {α : Type} (code : Asking α) (s : TunService) : Prop :=
  ∀ d : Dialogue, Idle d.openvpn → d.app.service = s → code d = none

theorem Does.bind_waits {α β : Type} {code : Asking α} {f : α → Asking β} {a : α}
    {s s' : TunService} (h : Does code s a s') (hf : Waits (f a) s') : Waits (code >>= f) s := by
  intro d hidle hs
  obtain ⟨d', hcode, hidle', hs'⟩ := h d hidle hs
  change ((code d).bind fun r => f r.1 r.2) = none
  rw [hcode]
  exact hf d' hidle' hs'

theorem Waits.bind {α β : Type} {code : Asking α} (h : Waits code s) (f : α → Asking β) :
    Waits (code >>= f) s := by
  intro d hidle hs
  change ((code d).bind fun r => f r.1 r.2) = none
  rw [h d hidle hs]
  rfl

/-- The answer of the app to `PERSIST_TUN_ACTION`. -/
def tunMethod (s : TunService) : TunMethod :=
  if s.getTunReopenStatus = ("NOACTION" : Text) then .keepOldTun else .openBeforeClose

theorem does_persisttun (s : TunService) :
    Does (managment_android_persisttun_action env socket) s (tunMethod s) s := by
  intro d hidle hs
  have hconfirmable : Confirmable "PERSIST_TUN_ACTION" :=
    confirmable_of_all (by decide) (by decide)
  have hperform : d.app.processNeedCommand env
      (needPrompt "PERSIST_TUN_ACTION" ++ delivered "PERSIST_TUN_ACTION" "tunmethod") =
        (.ok (), d.app.managmentCommand
          (needokCommand "PERSIST_TUN_ACTION" s.getTunReopenStatus)) := by
    rw [processNeedCommand_eq .persistTunAction hconfirmable rfl, perform, hs]
  have hstatus : s.getTunReopenStatus = ("NOACTION" : Text) ∨
      s.getTunReopenStatus = ("OPEN_BEFORE_CLOSE" : Text) := by
    rw [TunService.getTunReopenStatus]
    split_ifs
    · exact .inl rfl
    · exact .inr rfl
  have hok : Status s.getTunReopenStatus := by
    rcases hstatus with h | h
    all_goals
      rw [h]
      exact ⟨plain_of_all (by decide) (by decide) (by decide), by decide⟩
  obtain ⟨s', hidle', hasks⟩ := askUserPass_needOk env socket hidle hconfirmable
    (asciiPrintable_of_all (by decide)) hok (congrArg Prod.snd hperform) rfl
  refine ⟨⟨s', d.app.managmentCommand (needokCommand "PERSIST_TUN_ACTION" s.getTunReopenStatus)⟩,
    ?_, hidle', hs⟩
  rw [managment_android_persisttun_action, hasks, tunMethod]
  rcases hstatus with h | h
  all_goals
    rw [h]
    rfl

end Dialogue

end OpenVpnAndroid
