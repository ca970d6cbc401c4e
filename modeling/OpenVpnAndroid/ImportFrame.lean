/-
  OpenVpnAndroid/ImportFrame.lean
  ===============================
  **Which options a paragraph of the import can change**: those it looks up by
  name, and `remotetls` for `remote-cert-tls`.
-/
import OpenVpnAndroid.ConvertProfile

namespace OpenVpnAndroid

open Commands

namespace ConfigParser

/-- The options that a paragraph takes out of the map. -/
def Section.names : Section → List Text
  | client => ["client", "pull"]
  | secret => ["secret"]
  | route => ["route"]
  | routeIpv6 => ["route-ipv6"]
  | routeNopull => ["route-nopull"]
  | tlsAuth => ["tls-auth"]
  | keyDirection => ["key-direction"]
  | tlsCrypt => ["tls-crypt"]
  | tlsCryptV2 => ["tls-crypt-v2"]
  | redirectGateway => ["redirect-gateway"]
  | redirectPrivate => ["redirect-private"]
  | dev => ["dev", "dev-type"]
  | mssfix => ["mssfix"]
  | tunMtu => ["tun-mtu"]
  | mode => ["mode"]
  | dhcpOption => ["dhcp-option"]
  | ifconfig => ["ifconfig"]
  | remoteRandomHostname => ["remote-random-hostname"]
  | float => ["float"]
  | compLzo => ["comp-lzo"]
  | ciphers => ["ncp-ciphers", "data-ciphers", "cipher"]
  | tlsCertProfile => ["tls-cert-profile"]
  | provider => ["provider"]
  | compatMode => ["compat-mode"]
  | auth => ["auth"]
  | ca => ["ca"]
  | peerFingerprint => ["peer-fingerprint"]
  | cert => ["cert"]
  | key => ["key"]
  | pkcs12 => ["pkcs12"]
  | cryptoapicert => ["cryptoapicert"]
  | tlsRemote => ["compat-names", "no-name-remapping", "tls-remote"]
  | verifyX509Name => ["verify-x509-name"]
  | x509UsernameField => ["x509-username-field"]
  | verb => ["verb"]
  | nobind => ["nobind"]
  | persistTun => ["persist-tun"]
  | pushPeerInfo => ["push-peer-info"]
  | connectRetry => ["connect-retry"]
  | connectRetryMax => ["connect-retry-max"]
  | remoteCertTls => ["remote-cert-tls"]
  | authUserPass => ["auth-user-pass"]
  | authRetry => ["auth-retry"]
  | crlVerify => ["crl-verify"]
  | connections => "rport" :: "connection" :: connectionOptions
  | remoteRandom => ["remote-random"]
  | protoForce => ["proto-force"]
  | accessServer => []
  | checkIgnoreAndInvalidOptions => ignoreOptions
  | fixup => []

/-- A property of option maps that taking out options of these names keeps. -/
def Filtered (I : OptionMap → Prop) (names : List Text) : Prop :=
  ∀ options (p : Text → Bool), (∀ n, n ∉ names → p n = true) → I options →
    I (options.filter fun e => p e.1)

theorem Filtered.remove {I : OptionMap → Prop} {names : List Text} (h : Filtered I names)
    {name : Text} (hname : name ∈ names) {options : OptionMap} (hI : I options) :
    I (OptionMap.remove options name) := by
  refine h options (fun n => n != name) (fun n hn => ?_) hI
  rw [bne_iff_ne]
  rintro rfl
  exact hn hname

/-- Code that keeps a property of the options when it returns. -/
abbrev Keeping (I : OptionMap → Prop) (code : Import.Code α) : Prop :=
  Preserves (fun s : Import => I s.options) code

section Keeping

variable {I : OptionMap → Prop} {names : List Text} {option : Text} {minarg maxarg : Nat}

theorem getAllOption_preserves (h : Filtered I names) (hname : option ∈ names) :
    Preserves I (getAllOption option minarg maxarg) := by
  intro options hI
  rcases found_cases options option minarg maxarg with hget | ⟨lines, hfound⟩ | ⟨-, _, hbad⟩
  · rw [getAllOption_of_none hget]
    exact ⟨True.intro, hI⟩
  · rw [getAllOption_of_found hfound]
    exact ⟨True.intro, h.remove hname hI⟩
  · rw [hbad]
    exact True.intro

theorem getOption_preserves (h : Filtered I names) (hname : option ∈ names) :
    Preserves I (getOption option minarg maxarg) := by
  refine Keeps.bind (getAllOption_preserves h hname) fun r _ => ?_
  cases r with
  | none => exact Keeps.pure True.intro
  | some lines => exact Keeps.bind (Preserves.lift _) fun _ _ => Keeps.pure True.intro

theorem lookup_keeping {code : Options.Code α} (h : Preserves I code) : Keeping I (liftM code) := by
  intro s hs
  have hrun := h s.options hs
  cases hc : code s.options with
  | error e =>
      rw [lookup_error hc]
      exact True.intro
  | ok r =>
      rw [lookup_ok hc]
      rw [hc] at hrun
      exact hrun

theorem modifyProfile_keeping (f : VpnProfile → VpnProfile) : Keeping I (modifyProfile f) :=
  Keeps.modify fun _ hs => hs

theorem whenOption_keeping (h : Filtered I names) (hname : option ∈ names)
    {code : List Text → Import.Code Unit} (hcode : ∀ line, Keeping I (code line)) :
    Keeping I (whenOption option minarg maxarg code) := by
  refine Keeps.bind (lookup_keeping (getOption_preserves h hname)) fun r _ => ?_
  cases r with
  | none => exact Keeps.pure True.intro
  | some line => exact hcode line

theorem whenAllOption_keeping (h : Filtered I names) (hname : option ∈ names)
    {code : List (List Text) → Import.Code Unit} (hcode : ∀ lines, Keeping I (code lines)) :
    Keeping I (whenAllOption option minarg maxarg code) := by
  refine Keeps.bind (lookup_keeping (getAllOption_preserves h hname)) fun r _ => ?_
  cases r with
  | none => exact Keeps.pure True.intro
  | some lines => exact hcode lines

theorem lift_modifyProfile_keeping (x : Java α) (f : α → VpnProfile → VpnProfile) :
    Keeping I ((liftM x : Import.Code α) >>= fun a => modifyProfile (f a)) :=
  Keeps.bind (Preserves.lift x) fun a _ => modifyProfile_keeping (f a)

theorem flag_keeping (h : Filtered I names) (hname : option ∈ names) {maxarg : Nat}
    {set : VpnProfile → VpnProfile} : Keeping I (flag option maxarg set) :=
  whenOption_keeping h hname fun _ => modifyProfile_keeping set

theorem argument_keeping (h : Filtered I names) (hname : option ∈ names)
    {set : Text → VpnProfile → VpnProfile} : Keeping I (argument option set) :=
  whenOption_keeping h hname fun _ => lift_modifyProfile_keeping _ _

theorem authType_keeping (h : Filtered I names) (hname : option ∈ names)
    {set : Text → VpnProfile → VpnProfile} : Keeping I (authType option set) :=
  whenOption_keeping h hname fun _ =>
    Keeps.bind (Preserves.lift _) fun _ _ => Keeps.modify fun _ hs => hs

end Keeping

/-! ### The options of a connection -/

section Connections

variable {I : OptionMap → Prop} {names : List Text}

theorem takeCustomConfiguration_preserves (h : Filtered I names) {withDefault : Bool}
    (hnames : ∀ n, isConnectionOption withDefault n = true → n ∈ names) (env : JavaEnv)
    (conn : Connection) : Preserves I (takeCustomConfiguration env withDefault conn) := by
  intro options hI
  refine ⟨True.intro, h options (fun n => !isConnectionOption withDefault n) (fun n hn => ?_) hI⟩
  rw [Bool.not_eq_true', Bool.eq_false_iff]
  exact fun htrue => hn (hnames n htrue)

theorem mem_names_of_isConnectionOption {n : Text} (h : isConnectionOption false n = true) :
    n ∈ Section.connections.names := by
  have hn : connectionOptions.contains n = true := h
  exact List.mem_cons_of_mem _ (List.mem_cons_of_mem _ (List.contains_iff_mem.mp hn))

theorem parseConnectionOptions_preserves (h : Filtered I Section.connections.names)
    (env : JavaEnv) : Preserves I (parseConnectionOptions env none) := by
  have hget : ∀ {option minarg maxarg}, option ∈ Section.connections.names →
      Preserves I (getOption option minarg maxarg) :=
    fun hname => getOption_preserves h hname
  refine Keeps.bind (hget (by decide +kernel)) fun port _ => ?_
  refine Keeps.bind (Preserves.lift _) fun conn _ => ?_
  refine Keeps.bind (hget (by decide +kernel)) fun rport _ => ?_
  refine Keeps.bind (Preserves.lift _) fun conn _ => ?_
  refine Keeps.bind (hget (by decide +kernel)) fun proto _ => ?_
  refine Keeps.bind (Preserves.lift _) fun conn _ => ?_
  refine Keeps.bind (hget (by decide +kernel)) fun connectTimeout _ => ?_
  refine Keeps.bind (Preserves.lift _) fun conn _ => ?_
  have hproxy : Preserves I getProxy := by
    refine Keeps.bind (hget (by decide +kernel)) fun socks _ => ?_
    cases socks with
    | some proxy => exact Keeps.pure True.intro
    | none => exact hget (by decide +kernel)
  refine Keeps.bind hproxy fun proxy _ => ?_
  refine Keeps.bind (Preserves.lift _) fun conn _ => ?_
  refine Keeps.bind (hget (by decide +kernel)) fun auth _ => ?_
  refine Keeps.bind (Preserves.lift _) fun conn _ => ?_
  refine Keeps.bind (getAllOption_preserves h (by decide +kernel)) fun remotes _ => ?_
  refine Keeps.bind (takeCustomConfiguration_preserves h
    (fun n hn => mem_names_of_isConnectionOption hn) env conn) fun conn _ => ?_
  refine Keeps.bind (Preserves.lift _) fun connections _ => ?_
  exact Keeps.pure True.intro

theorem connections_keeping (h : Filtered I Section.connections.names) (env : JavaEnv) :
    Keeping I (connections env) := by
  refine Keeps.bind (lookup_keeping (parseConnectionOptions_preserves h env)) fun r _ => ?_
  refine Keeps.bind (modifyProfile_keeping _) fun _ _ => ?_
  refine whenAllOption_keeping h (by decide +kernel) fun blocks => ?_
  refine Keeps.ite (fun _ => Preserves.lift _) fun _ => ?_
  exact lift_modifyProfile_keeping _ _

end Connections

/-! ### All paragraphs -/

theorem foldl_remove_eq_filter (names : List Text) (options : OptionMap) :
    names.foldl OptionMap.remove options = options.filter fun e => !names.contains e.1 := by
  induction names generalizing options with
  | nil => simp
  | cons name names ih =>
      rw [List.foldl_cons, ih, OptionMap.remove, List.filter_filter]
      refine List.filter_congr fun e _ => ?_
      rw [List.contains_cons, Bool.not_or, Bool.and_comm]
      rfl

/-- A paragraph changes the map of options by taking out its names, and `remote-cert-tls`
    by adding `remotetls`. -/
theorem Section.run_keeping {I : OptionMap → Prop} (env : JavaEnv) (sec : Section)
    (h : Filtered I sec.names)
    (hput : sec = .remoteCertTls → ∀ options lines, lines ≠ [] → I options →
      I (OptionMap.put options "remotetls" lines)) : Keeping I (sec.run env) := by
  cases sec with
  | connections => exact connections_keeping h env
  | routeNopull | remoteRandomHostname | float | compLzo | nobind | persistTun | pushPeerInfo
  | remoteRandom => exact flag_keeping h List.mem_cons_self
  | keyDirection | tlsCrypt | tlsCryptV2 | auth | ca | key | x509UsernameField | verb
  | connectRetryMax => exact argument_keeping h List.mem_cons_self
  | cert | pkcs12 | cryptoapicert =>
      rw [Section.run]
      exact authType_keeping h List.mem_cons_self
  | client =>
      refine Keeps.bind Keeps.get fun s _ => ?_
      refine Keeps.ite (fun _ => ?_) fun _ => Keeps.pure True.intro
      refine Keeps.bind (modifyProfile_keeping _) fun _ _ => Keeps.modify fun s hs => ?_
      exact h.remove List.mem_cons_self (h.remove (by decide +kernel) hs)
  | secret =>
      refine whenOption_keeping h List.mem_cons_self fun line => ?_
      refine Preserves.lift_bind fun file _ => ?_
      refine Keeps.bind (Keeps.modify fun _ hs => hs) fun _ _ => ?_
      exact Keeps.ite (fun _ => lift_modifyProfile_keeping _ _) fun _ => Keeps.pure True.intro
  | redirectGateway =>
      exact whenAllOption_keeping h List.mem_cons_self fun _ => modifyProfile_keeping _
  | redirectPrivate =>
      exact whenAllOption_keeping h List.mem_cons_self fun _ => Keeps.pure True.intro
  | route | routeIpv6 | peerFingerprint =>
      exact whenAllOption_keeping h List.mem_cons_self fun _ => lift_modifyProfile_keeping _ _
  | tlsAuth | dhcpOption =>
      refine whenAllOption_keeping h List.mem_cons_self fun lines => ?_
      exact Keeps.bind Keeps.get fun s _ => lift_modifyProfile_keeping _ _
  | dev =>
      refine Keeps.bind (lookup_keeping (getOption_preserves h List.mem_cons_self)) fun dev _ => ?_
      refine Keeps.bind (lookup_keeping (getOption_preserves h (by decide +kernel))) fun _ _ => ?_
      refine Preserves.lift_bind fun isTun _ => Preserves.lift_bind fun startsWithTun _ => ?_
      exact Keeps.ite (fun _ => Keeps.pure True.intro) fun _ => Preserves.lift _
  | mssfix =>
      refine whenOption_keeping h List.mem_cons_self fun line => ?_
      refine Preserves.lift_bind fun size _ => Keeps.bind (modifyProfile_keeping _) fun _ _ => ?_
      refine Keeps.ite (fun _ => ?_) fun _ => Keeps.pure True.intro
      refine Preserves.lift_bind fun arg _ => ?_
      exact Keeps.ite (fun _ => Preserves.lift _) fun _ => Keeps.pure True.intro
  | tunMtu | compatMode | protoForce =>
      refine whenOption_keeping h List.mem_cons_self fun line => ?_
      exact Preserves.lift_bind fun _ _ => lift_modifyProfile_keeping _ _
  | ifconfig =>
      refine whenOption_keeping h List.mem_cons_self fun line => ?_
      refine Preserves.lift_bind fun _ _ => Preserves.lift_bind fun _ _ => ?_
      exact lift_modifyProfile_keeping _ _
  | mode =>
      refine whenOption_keeping h List.mem_cons_self fun line => ?_
      refine Preserves.lift_bind fun _ _ => ?_
      exact Keeps.ite (fun _ => Preserves.lift _) fun _ => Keeps.pure True.intro
  | ciphers =>
      have hget : ∀ {option}, option ∈ Section.ciphers.names →
          Keeping I (liftM (getOption option 1 1)) :=
        fun hname => lookup_keeping (getOption_preserves h hname)
      refine Keeps.bind (hget List.mem_cons_self) fun ncp_ciphers _ => ?_
      refine Keeps.bind (hget (by decide +kernel)) fun data_ciphers _ => ?_
      refine Keeps.bind (hget (by decide +kernel)) fun cipher _ => ?_
      refine Keeps.bind Keeps.get fun s _ => Preserves.lift_bind fun cipher _ => ?_
      exact lift_modifyProfile_keeping _ _
  | tlsCertProfile =>
      refine whenOption_keeping h List.mem_cons_self fun line => ?_
      refine Preserves.lift_bind fun profile _ => ?_
      have hcheck : Keeping I (do
          if profile ≠ (← get).np.mTlSCertProfile then
            configParseError (("Invalid tls-cert-profile '" : Text) ++ profile ++ ("'" : Text))) :=
        Keeps.bind Keeps.get fun s _ =>
          Keeps.ite (fun _ => Preserves.lift _) fun _ => Keeps.pure True.intro
      refine Keeps.ite (fun _ => ?_) fun _ => hcheck
      exact Keeps.bind (modifyProfile_keeping _) fun _ _ => hcheck
  | provider =>
      refine whenOption_keeping h List.mem_cons_self fun line => ?_
      refine Preserves.lift_bind fun _ _ => ?_
      exact Keeps.ite (fun _ => modifyProfile_keeping _) fun _ => Keeps.pure True.intro
  | tlsRemote =>
      refine Keeps.bind (lookup_keeping (getOption_preserves h List.mem_cons_self)) fun _ _ => ?_
      refine Keeps.bind (lookup_keeping (getOption_preserves h (by decide +kernel))) fun _ _ => ?_
      refine whenOption_keeping h (by decide +kernel) fun line => ?_
      exact lift_modifyProfile_keeping _ _
  | verifyX509Name =>
      refine whenOption_keeping h List.mem_cons_self fun line => ?_
      exact Preserves.lift_bind fun _ _ => lift_modifyProfile_keeping _ _
  | connectRetry =>
      refine whenOption_keeping h List.mem_cons_self fun line => ?_
      refine Preserves.lift_bind fun _ _ => Keeps.bind (modifyProfile_keeping _) fun _ _ => ?_
      exact Keeps.ite (fun _ => lift_modifyProfile_keeping _ _) fun _ => Keeps.pure True.intro
  | remoteCertTls =>
      refine whenAllOption_keeping h List.mem_cons_self fun lines => ?_
      refine Preserves.lift_bind fun line hline => Preserves.lift_bind fun type _ => ?_
      refine Keeps.ite (fun _ => modifyProfile_keeping _) fun _ => Keeps.modify fun s hs => ?_
      refine hput rfl _ _ ?_ hs
      rintro rfl
      cases hline
  | authUserPass =>
      refine whenOption_keeping h List.mem_cons_self fun line => ?_
      refine Keeps.bind (Keeps.modify fun _ hs => hs) fun _ _ => ?_
      refine Keeps.ite (fun _ => ?_) fun _ => Keeps.pure True.intro
      exact Preserves.lift_bind fun _ _ => Keeps.modify fun _ hs => hs
  | authRetry =>
      refine whenOption_keeping h List.mem_cons_self fun line => ?_
      refine Preserves.lift_bind fun type _ => ?_
      cases authRetryType type with
      | some retry => exact modifyProfile_keeping _
      | none => exact Preserves.lift_bind fun _ _ => Preserves.lift _
  | crlVerify =>
      refine whenOption_keeping h List.mem_cons_self fun line => ?_
      refine Preserves.lift_bind fun isDir _ => ?_
      exact Keeps.ite (fun _ => modifyProfile_keeping _) fun _ => lift_modifyProfile_keeping _ _
  | accessServer => exact Keeps.bind Keeps.get fun _ _ => modifyProfile_keeping _
  | fixup =>
      rw [Section.run, ConfigParser.fixup]
      exact modifyProfile_keeping _
  | checkIgnoreAndInvalidOptions =>
      refine Keeps.bind Keeps.get fun s hs => ?_
      have hrest : I (ignoreOptions.foldl OptionMap.remove s.options) := by
        rw [foldl_remove_eq_filter]
        refine h _ (fun n => !ignoreOptions.contains n) (fun n hn => ?_) hs
        have hnot : n ∉ ignoreOptions := hn
        simpa using hnot
      dsimp only
      split
      · exact Preserves.lift _
      · generalize ignoreOptions.foldl OptionMap.remove s.options = options at hrest ⊢
        refine Keeps.bind (Keeps.modify fun _ _ => hrest) fun _ _ => ?_
        exact Keeps.ite (fun _ => modifyProfile_keeping _) fun _ => Keeps.pure True.intro

end ConfigParser

end OpenVpnAndroid
