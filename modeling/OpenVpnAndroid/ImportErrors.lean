/-
  OpenVpnAndroid/ImportErrors.lean
  ================================
  **Code of the import that stops only with the exceptions it declares.**

  Reading the text is clean.  A look-up counts the arguments of an option, so that
  reading them in a paragraph cannot fail (`whenOption_clears`); most paragraphs
  and the options of a connection are clean for this reason.
-/
import OpenVpnAndroid.ImportFrame

namespace OpenVpnAndroid

open Commands

/-! ### Clean code -/

/-- Only the exceptions in the `throws` clause. -/
def Declared (e : Stop) : Prop := e.declared = true

/-- Code that stops only with a declared exception. -/
abbrev Clean (V : α → Prop) (x : Java α) : Prop := Yields Declared V x

namespace OptionMap

/-- No option is in the map without a line. -/
def Listed (options : OptionMap) : Prop := ∀ e ∈ options, e.2 ≠ []

theorem Listed.get {options : OptionMap} (h : Listed options) {name : Text}
    {lines : List (List Text)} (hget : get options name = some lines) : lines ≠ [] := by
  obtain ⟨e, he, rfl⟩ := Option.map_eq_some_iff.mp hget
  exact h e (List.mem_of_find?_eq_some he)

theorem Listed.remove {options : OptionMap} (h : Listed options) (name : Text) :
    Listed (remove options name) :=
  fun e he => h e (List.mem_of_mem_filter he)

theorem Listed.put {options : OptionMap} (h : Listed options) (name : Text)
    {lines : List (List Text)} (hlines : lines ≠ []) : Listed (put options name lines) := by
  intro e he
  unfold OptionMap.put at he
  split at he
  · obtain ⟨e', he', rfl⟩ := List.mem_map.mp he
    split
    · exact hlines
    · exact h e' he'
  · rcases List.mem_append.mp he with he | he
    · exact h e he
    · rw [List.mem_singleton.mp he]
      exact hlines

theorem Listed.add {options : OptionMap} (h : Listed options) (name : Text) (args : List Text) :
    Listed (add options name args) :=
  h.put name (by simp)

end OptionMap

open OptionMap (Listed)

namespace ConfigParser

theorem clean_configParseError (V : α → Prop) (msg : Text) :
    Clean V (configParseError msg : Java α) := rfl

theorem clean_vectorGet {v : List α} {i : Nat} (h : i < v.length) :
    Clean (fun a => v[i]? = some a) (vectorGet v i) := by
  simp only [vectorGet, List.getElem?_eq_getElem h]
  exact rfl

/-! ### `parseConfig` is clean -/

theorem clean_scan (p : LineParser) (line : Text) : Clean (fun _ => True) (scan p line) := by
  induction line generalizing p with
  | nil => exact True.intro
  | cons c line ih =>
      rw [scan]
      cases step p c with
      | next p' => exact ih p'
      | comment => exact True.intro
      | badBackslash => exact rfl

theorem clean_parseline (line : Text) : Clean (fun _ => True) (parseline line) := by
  unfold parseline
  split
  · exact True.intro
  · exact clean_scan _ _

theorem readOption_listed {p : ConfigParser} (h : Listed p.options) (name : Text)
    (rest : List Text) : Listed (p.readOption name rest).2.options := by
  unfold readOption
  dsimp only
  split
  · exact h
  · exact h.add _ _

theorem clean_readConfigLine (reading : Reading) {p : ConfigParser} (h : Listed p.options)
    (line : Text) : Clean (fun r => Listed r.2.options) (readConfigLine reading p line) := by
  unfold readConfigLine
  cases reading with
  | inlineFile argname inlinefile =>
      dsimp only
      split
      · exact h.add _ _
      · exact h
  | options =>
      dsimp only
      split
      · exact h
      · have hline := clean_parseline line
        cases hp : parseline line with
        | error e =>
            rw [hp] at hline
            exact hline
        | ok args =>
            cases args with
            | nil => exact h
            | cons name rest => exact readOption_listed h name rest

theorem clean_readConfig (reading : Reading) {p : ConfigParser} (h : Listed p.options)
    (lines : List Text) : Clean (fun p => Listed p.options) (readConfig reading p lines) := by
  induction lines generalizing reading p with
  | nil =>
      cases reading with
      | options => exact h
      | inlineFile argname inlinefile => exact rfl
  | cons line lines ih =>
      rw [readConfig]
      have hline := clean_readConfigLine reading h line
      cases hr : readConfigLine reading p line with
      | error e =>
          rw [hr] at hline
          exact hline
      | ok r =>
          rw [hr] at hline
          exact ih r.1 hline

theorem clean_parseConfig (text : Text) : Clean (fun p => Listed p.options) (parseConfig text) := by
  have hinit : Listed init.options := fun _ he => absurd he List.not_mem_nil
  unfold parseConfig
  split
  · exact hinit
  · split
    · exact rfl
    · exact clean_readConfig .options hinit _

/-! ### Look-ups -/

theorem Counted.lt {minarg maxarg i : Nat} {line : List Text} (h : Counted minarg maxarg line)
    (hi : i ≤ minarg) : i < line.length :=
  Nat.lt_of_lt_of_le (Nat.lt_succ_of_le hi) h.1

theorem getAllOption_clean (option : Text) (minarg maxarg : Nat) :
    Keeps Listed Declared
      (fun r => ∀ lines, r = some lines → lines ≠ [] ∧ ∀ l ∈ lines, Counted minarg maxarg l)
      (getAllOption option minarg maxarg) := by
  intro options h
  unfold getAllOption
  cases hget : OptionMap.get options option with
  | none =>
      refine ⟨?_, h⟩
      intro lines hlines
      cases hlines
  | some args =>
      dsimp only
      cases hbad : args.find? (badCount minarg maxarg) with
      | some line => exact rfl
      | none =>
          refine ⟨?_, h.remove option⟩
          intro lines hlines
          cases hlines
          refine ⟨h.get hget, fun l hl => badCount_eq_false.mp ?_⟩
          simpa using List.find?_eq_none.mp hbad l hl

theorem clean_lastElement {lines : List α} (h : lines ≠ []) :
    Clean (fun l => lines.getLast? = some l) (lastElement lines) := by
  simp only [lastElement, List.getLast?_eq_getLast_of_ne_nil h]
  exact rfl

theorem getOption_clean (option : Text) (minarg maxarg : Nat) :
    Keeps Listed Declared (fun r => ∀ line, r = some line → Counted minarg maxarg line)
      (getOption option minarg maxarg) := by
  refine Keeps.bind (getAllOption_clean option minarg maxarg) fun r hr => ?_
  cases r with
  | none =>
      refine Keeps.pure ?_
      intro line hline
      cases hline
  | some lines =>
      obtain ⟨hne, hcount⟩ := hr lines rfl
      refine Keeps.bind (Keeps.lift (clean_lastElement hne)) fun l hl => Keeps.pure ?_
      intro line hline
      cases hline
      exact hcount l (List.mem_of_getLast? hl)

/-! ### Paragraphs without a crash -/

/-- A paragraph, or a part of one, that stops only with a declared exception. -/
abbrev Clears (V : α → Prop) (code : Import.Code α) : Prop :=
  Keeps (fun s : Import => Listed s.options) Declared V code

theorem Clears.lookup {V : α → Prop} {code : Options.Code α} (h : Keeps Listed Declared V code) :
    Clears V (liftM code) := by
  intro s hs
  have hrun := h s.options hs
  change Yields Declared _ ((liftM code : Import.Code α) s)
  cases hc : code s.options with
  | error e =>
      rw [hc] at hrun
      rw [lookup_error hc]
      exact hrun
  | ok r =>
      rw [hc] at hrun
      rw [lookup_ok hc]
      exact hrun

theorem clears_modifyProfile (f : VpnProfile → VpnProfile) :
    Clears (fun _ => True) (modifyProfile f) :=
  Keeps.modify fun _ hs => hs

theorem clears_configParseError (V : α → Prop) (msg : Text) :
    Clears V (liftM (configParseError msg : Java α)) :=
  Keeps.lift (clean_configParseError V msg)

/-- Reading an argument that has been counted. -/
theorem Clears.vectorGet_bind {line : List Text} {i : Nat} {code : Text → Import.Code β}
    {W : β → Prop} (h : i < line.length)
    (hcode : ∀ arg, (line : List Text)[i]? = some arg → Clears W (code arg)) :
    Clears W ((liftM (vectorGet line i) : Import.Code Text) >>= code) :=
  Keeps.bind (Keeps.lift (clean_vectorGet h)) hcode

theorem whenOption_clears {option : Text} {minarg maxarg : Nat}
    {code : List Text → Import.Code Unit}
    (h : ∀ line, Counted minarg maxarg line → Clears (fun _ => True) (code line)) :
    Clears (fun _ => True) (whenOption option minarg maxarg code) := by
  refine Keeps.bind (Clears.lookup (getOption_clean option minarg maxarg)) fun r hr => ?_
  cases r with
  | none => exact Keeps.pure True.intro
  | some line => exact h line (hr line rfl)

theorem whenAllOption_clears {option : Text} {minarg maxarg : Nat}
    {code : List (List Text) → Import.Code Unit}
    (h : ∀ lines, lines ≠ [] → (∀ l ∈ lines, Counted minarg maxarg l) →
      Clears (fun _ => True) (code lines)) :
    Clears (fun _ => True) (whenAllOption option minarg maxarg code) := by
  refine Keeps.bind (Clears.lookup (getAllOption_clean option minarg maxarg)) fun r hr => ?_
  cases r with
  | none => exact Keeps.pure True.intro
  | some lines => exact h lines (hr lines rfl).1 (hr lines rfl).2

theorem flag_clears (option : Text) (maxarg : Nat) (set : VpnProfile → VpnProfile) :
    Clears (fun _ => True) (flag option maxarg set) :=
  whenOption_clears fun _ _ => clears_modifyProfile set

theorem argument_clears (option : Text) (set : Text → VpnProfile → VpnProfile) :
    Clears (fun _ => True) (argument option set) :=
  whenOption_clears fun _ hline =>
    Clears.vectorGet_bind (hline.lt (by decide)) fun arg _ => clears_modifyProfile (set arg)

theorem authType_clears (option : Text) (set : Text → VpnProfile → VpnProfile) :
    Clears (fun _ => True) (authType option set) :=
  whenOption_clears fun _ hline =>
    Clears.vectorGet_bind (hline.lt (by decide)) fun _ _ => Keeps.modify fun _ hs => hs

theorem client_clears : Clears (fun _ => True) client := by
  refine Keeps.bind Keeps.get fun s _ => ?_
  dsimp only
  split
  · refine Keeps.bind (clears_modifyProfile _) fun _ _ => ?_
    exact Keeps.modify fun _ hs => (hs.remove _).remove _
  · exact Keeps.pure True.intro

theorem secret_clears : Clears (fun _ => True) secret := by
  refine whenOption_clears fun line hline => ?_
  refine Clears.vectorGet_bind (hline.lt (by decide)) fun file _ => ?_
  refine Keeps.bind (Keeps.modify fun _ hs => hs) fun _ _ => ?_
  refine Keeps.ite (fun hlen => ?_) fun _ => Keeps.pure True.intro
  exact Clears.vectorGet_bind (by omega) fun _ _ => clears_modifyProfile _

theorem routeIpv6_clears : Clears (fun _ => True) routeIpv6 := by
  refine whenAllOption_clears fun lines _ hcount => ?_
  refine Keeps.bind (Keeps.lift (Yields.mapM fun l hl => ?_)) fun _ _ => clears_modifyProfile _
  exact (clean_vectorGet ((hcount l hl).lt (by decide))).trivial

theorem clean_applyTlsAuth (np : VpnProfile) {line : List Text} (hline : Counted 1 2 line) :
    Clean (fun _ => True) (applyTlsAuth np line) := by
  refine Yields.bind (clean_vectorGet (hline.lt (by decide))) fun file _ => ?_
  dsimp only
  split
  · exact Yields.bind (clean_vectorGet (by omega)) fun _ _ => True.intro
  · exact True.intro

theorem Clears.modifyProfile_bind {x : Java α} (hx : Clean (fun _ => True) x)
    (f : α → VpnProfile → VpnProfile) :
    Clears (fun _ => True) ((liftM x : Import.Code α) >>= fun a => modifyProfile (f a)) :=
  Keeps.bind (Keeps.lift hx) fun a _ => clears_modifyProfile (f a)

theorem tlsAuth_clears : Clears (fun _ => True) tlsAuth := by
  refine whenAllOption_clears fun lines _ hcount => ?_
  refine Keeps.bind Keeps.get fun s _ => ?_
  refine Clears.modifyProfile_bind ?_ _
  exact Yields.foldlM (fun np l hl => clean_applyTlsAuth np (hcount l hl)) s.np

theorem redirectPrivate_clears : Clears (fun _ => True) redirectPrivate :=
  whenAllOption_clears fun _ _ _ => Keeps.pure True.intro

theorem clean_hasArg {line : Option (List Text)} (h : ∀ l, line = some l → Counted 1 1 l)
    (test : Text → Bool) : Clean (fun _ => True) (hasArg line test) := by
  cases line with
  | none => exact True.intro
  | some line =>
      exact Yields.bind (clean_vectorGet ((h line rfl).lt (by decide))) fun _ _ => True.intro

theorem dev_clears : Clears (fun _ => True) dev := by
  refine Keeps.bind (Clears.lookup (getOption_clean _ _ _)) fun dev hdev => ?_
  refine Keeps.bind (Clears.lookup (getOption_clean _ _ _)) fun devtype hdevtype => ?_
  refine Keeps.bind (Keeps.lift (clean_hasArg hdevtype _)) fun isTun _ => ?_
  refine Keeps.bind (Keeps.lift (clean_hasArg hdev _)) fun startsWithTun _ => ?_
  refine Keeps.ite (fun _ => Keeps.pure True.intro) fun _ => ?_
  exact clears_configParseError _ _

theorem clean_parseArgument (option arg : Text) :
    Clean (fun _ => True) (parseArgument option arg) := by
  unfold parseArgument
  split
  · exact clean_configParseError _ _
  · exact True.intro

theorem clean_mssfixSize (line : List Text) : Clean (fun _ => True) (mssfixSize line) := by
  unfold mssfixSize
  split
  · exact Yields.bind (clean_vectorGet (by omega)) fun _ _ => clean_parseArgument _ _
  · exact True.intro

theorem mssfix_clears : Clears (fun _ => True) mssfix := by
  refine whenOption_clears fun line hline => ?_
  refine Keeps.bind (Keeps.lift (clean_mssfixSize line)) fun size _ => ?_
  refine Keeps.bind (clears_modifyProfile _) fun _ _ => ?_
  refine Keeps.ite (fun hlen => ?_) fun _ => Keeps.pure True.intro
  refine Clears.vectorGet_bind (by omega) fun arg _ => ?_
  exact Keeps.ite (fun _ => clears_configParseError _ _) fun _ => Keeps.pure True.intro

theorem tunMtu_clears : Clears (fun _ => True) tunMtu := by
  refine whenOption_clears fun line hline => ?_
  refine Clears.vectorGet_bind (hline.lt (by decide)) fun arg _ => ?_
  exact Clears.modifyProfile_bind (clean_parseArgument _ _) _

theorem mode_clears : Clears (fun _ => True) mode := by
  refine whenOption_clears fun line hline => ?_
  refine Clears.vectorGet_bind (hline.lt (by decide)) fun arg _ => ?_
  exact Keeps.ite (fun _ => clears_configParseError _ _) fun _ => Keeps.pure True.intro

theorem clean_applyDhcpOption (np : VpnProfile) {line : List Text} (hline : Counted 2 2 line) :
    Clean (fun _ => True) (applyDhcpOption np line) := by
  refine Yields.bind (clean_vectorGet (hline.lt (by decide))) fun type _ => ?_
  refine Yields.bind (clean_vectorGet (hline.lt (by decide))) fun arg _ => ?_
  split
  · exact True.intro
  · split
    · split <;> exact True.intro
    · exact True.intro

theorem dhcpOption_clears : Clears (fun _ => True) dhcpOption := by
  refine whenAllOption_clears fun lines _ hcount => ?_
  refine Keeps.bind Keeps.get fun s _ => ?_
  refine Clears.modifyProfile_bind ?_ _
  exact Yields.foldlM (fun np l hl => clean_applyDhcpOption np (hcount l hl)) s.np

theorem clean_storedArg {line : Option (List Text)} (h : ∀ l, line = some l → Counted 1 1 l)
    (old : Text) : Clean (fun _ => True) (storedArg line old) := by
  cases line with
  | none => exact True.intro
  | some line => exact (clean_vectorGet ((h line rfl).lt (by decide))).trivial

theorem ciphers_clears : Clears (fun _ => True) ciphers := by
  refine Keeps.bind (Clears.lookup (getOption_clean _ _ _)) fun ncp_ciphers hncp => ?_
  refine Keeps.bind (Clears.lookup (getOption_clean _ _ _)) fun data_ciphers hdata => ?_
  refine Keeps.bind (Clears.lookup (getOption_clean _ _ _)) fun cipher hcipher => ?_
  refine Keeps.bind Keeps.get fun s _ => ?_
  refine Keeps.bind (Keeps.lift (clean_storedArg hcipher _)) fun cipher _ => ?_
  refine Clears.modifyProfile_bind (clean_storedArg ?_ _) _
  intro l hl
  cases data_ciphers with
  | none => exact hncp l hl
  | some line => exact hdata l hl

theorem tlsCertProfile_clears : Clears (fun _ => True) tlsCertProfile := by
  refine whenOption_clears fun line hline => ?_
  refine Clears.vectorGet_bind (hline.lt (by decide)) fun profile _ => ?_
  have hcheck : ∀ s : Import, Clears (fun _ => True)
      (if profile ≠ s.np.mTlSCertProfile then
        liftM (configParseError (("Invalid tls-cert-profile '" : Text) ++ profile ++ ("'" : Text)) :
          Java Unit)
      else pure ()) :=
    fun s => Keeps.ite (fun _ => clears_configParseError _ _) fun _ => Keeps.pure True.intro
  refine Keeps.ite (fun _ => ?_) fun _ => Keeps.bind Keeps.get fun s _ => hcheck s
  exact Keeps.bind (clears_modifyProfile _) fun _ _ => Keeps.bind Keeps.get fun s _ => hcheck s

theorem provider_clears : Clears (fun _ => True) provider := by
  refine whenOption_clears fun line hline => ?_
  refine Clears.vectorGet_bind (hline.lt (by decide)) fun providers _ => ?_
  exact Keeps.ite (fun _ => clears_modifyProfile _) fun _ => Keeps.pure True.intro

theorem peerFingerprint_clears : Clears (fun _ => True) peerFingerprint := by
  refine whenAllOption_clears fun lines _ hcount => ?_
  refine Clears.modifyProfile_bind (Yields.mapM fun l hl => ?_) _
  exact Yields.bind (clean_vectorGet ((hcount l hl).lt (by decide))) fun _ _ => True.intro

theorem tlsRemote_clears : Clears (fun _ => True) tlsRemote := by
  refine Keeps.bind (Clears.lookup (getOption_clean _ _ _)) fun compatnames _ => ?_
  refine Keeps.bind (Clears.lookup (getOption_clean _ _ _)) fun nonameremapping _ => ?_
  refine whenOption_clears fun line hline => ?_
  exact Clears.vectorGet_bind (hline.lt (by decide)) fun _ _ => clears_modifyProfile _

theorem clean_x509AuthType (type : Text) : Clean (fun _ => True) (x509AuthType type) := by
  unfold x509AuthType
  split
  · exact True.intro
  · split
    · exact True.intro
    · split
      · exact True.intro
      · exact clean_configParseError _ _

theorem verifyX509Name_clears : Clears (fun _ => True) verifyX509Name := by
  refine whenOption_clears fun line hline => ?_
  refine Clears.vectorGet_bind (hline.lt (by decide)) fun name _ => ?_
  refine Clears.modifyProfile_bind ?_ _
  split
  · exact Yields.bind (clean_vectorGet (by omega)) fun _ _ => clean_x509AuthType _
  · exact True.intro

theorem connectRetry_clears : Clears (fun _ => True) connectRetry := by
  refine whenOption_clears fun line hline => ?_
  refine Clears.vectorGet_bind (hline.lt (by decide)) fun retry _ => ?_
  refine Keeps.bind (clears_modifyProfile _) fun _ _ => ?_
  refine Keeps.ite (fun hlen => ?_) fun _ => Keeps.pure True.intro
  exact Clears.vectorGet_bind (by omega) fun _ _ => clears_modifyProfile _

theorem remoteCertTls_clears : Clears (fun _ => True) remoteCertTls := by
  refine whenAllOption_clears fun lines hne hcount => ?_
  have hpos : 0 < lines.length := List.length_pos_iff.mpr hne
  refine Keeps.bind (Keeps.lift (clean_vectorGet hpos)) fun line hline => ?_
  have hmem := List.mem_of_getElem? hline
  refine Clears.vectorGet_bind ((hcount line hmem).lt (by decide)) fun type _ => ?_
  refine Keeps.ite (fun _ => clears_modifyProfile _) fun _ => ?_
  exact Keeps.modify fun s hs => hs.put _ hne

theorem authUserPass_clears : Clears (fun _ => True) authUserPass := by
  refine whenOption_clears fun line hline => ?_
  refine Keeps.bind (Keeps.modify fun _ hs => hs) fun _ _ => ?_
  refine Keeps.ite (fun hlen => ?_) fun _ => Keeps.pure True.intro
  exact Clears.vectorGet_bind (by omega) fun _ _ => Keeps.modify fun _ hs => hs

theorem crlVerify_clears : Clears (fun _ => True) crlVerify := by
  refine whenOption_clears fun line hline => ?_
  have hdir : Clean (fun _ => True) (hasDir line) := by
    unfold hasDir
    split
    · exact Yields.bind (clean_vectorGet (by omega)) fun _ _ => True.intro
    · exact True.intro
  refine Keeps.bind (Keeps.lift hdir) fun isDir _ => ?_
  refine Keeps.ite (fun _ => clears_modifyProfile _) fun _ => ?_
  exact Clears.vectorGet_bind (hline.lt (by decide)) fun _ _ => clears_modifyProfile _

theorem protoForce_clears : Clears (fun _ => True) protoForce := by
  refine whenOption_clears fun line hline => ?_
  refine Clears.vectorGet_bind (hline.lt (by decide)) fun protoToDisable _ => ?_
  refine Clears.modifyProfile_bind ?_ _
  unfold disableUDP
  split
  · exact True.intro
  · split
    · exact True.intro
    · exact clean_configParseError _ _

theorem accessServer_clears : Clears (fun _ => True) accessServer :=
  Keeps.bind Keeps.get fun _ _ => clears_modifyProfile _

theorem listed_foldl_remove {options : OptionMap} (h : Listed options) (names : List Text) :
    Listed (names.foldl OptionMap.remove options) := by
  induction names generalizing options with
  | nil => exact h
  | cons name names ih => exact ih (h.remove name)

theorem checkIgnoreAndInvalidOptions_clears (env : JavaEnv) :
    Clears (fun _ => True) (checkIgnoreAndInvalidOptions env) := by
  refine Keeps.bind Keeps.get fun s hs => ?_
  dsimp only
  split
  · exact clears_configParseError _ _
  · have hrest := listed_foldl_remove hs ignoreOptions
    generalize ignoreOptions.foldl OptionMap.remove s.options = options at hrest ⊢
    refine Keeps.bind (Keeps.modify fun _ _ => hrest) fun _ _ => ?_
    exact Keeps.ite (fun _ => clears_modifyProfile _) fun _ => Keeps.pure True.intro

theorem fixup_clears : Clears (fun _ => True) fixup := clears_modifyProfile _

/-! ### The options of a connection -/

theorem clean_isUdpProto (proto : Text) : Clean (fun _ => True) (isUdpProto proto) := by
  unfold isUdpProto
  split
  · exact True.intro
  · split
    · exact True.intro
    · exact clean_configParseError _ _

theorem clean_setRemote (conn : Connection) (remote : List Text) :
    Clean (fun _ => True) (setRemote conn remote) := by
  refine Yields.bind (V := fun _ => True) ?_ fun conn _ => ?_
  · split
    · exact Yields.bind (clean_vectorGet (by omega)) fun proto _ =>
        Yields.bind (clean_isUdpProto proto) fun _ _ => True.intro
    · exact True.intro
  · refine Yields.bind (V := fun _ => True) ?_ fun conn _ => ?_
    · split
      · exact Yields.bind (clean_vectorGet (by omega)) fun _ _ => True.intro
      · exact True.intro
    · split
      · exact Yields.bind (clean_vectorGet (by omega)) fun _ _ => True.intro
      · exact True.intro

theorem clean_setProxy (conn : Connection) {proxy : List Text} (h : 2 ≤ proxy.length) :
    Clean (fun _ => True) (setProxy conn proxy) := by
  refine Yields.bind (clean_vectorGet (by omega)) fun kind _ => ?_
  refine Yields.bind (clean_vectorGet (by omega)) fun name _ => ?_
  refine Yields.ite (fun hlen => ?_) fun _ => True.intro
  exact Yields.bind (clean_vectorGet (by omega)) fun _ _ => True.intro

theorem clean_parseConnectTimeout (env : JavaEnv) (timeout : Text) :
    Clean (fun _ => True) (parseConnectTimeout env timeout) := by
  unfold parseConnectTimeout
  split
  · exact True.intro
  · exact clean_configParseError _ _

theorem getProxy_clean :
    Keeps Listed Declared (fun r => ∀ line, r = some line → 2 ≤ line.length) getProxy := by
  refine Keeps.bind (getOption_clean _ _ _) fun socks hsocks => ?_
  cases socks with
  | some socks =>
      refine Keeps.pure fun line hline => ?_
      exact (hsocks line hline).1
  | none =>
      refine (getOption_clean _ _ _).mono fun http hhttp line hline => ?_
      have := (hhttp line hline).1
      omega

/-- A step of `parseConnectionOptions` that sets fields from a line. -/
theorem ifLine_bind_clean {line : Option (List Text)} {minlength : Nat}
    {set : List Text → Connection → Java Connection} {code : Connection → Options.Code β}
    {W : β → Prop} (hline : ∀ l, line = some l → minlength ≤ l.length)
    (hset : ∀ l c, minlength ≤ l.length → Clean (fun _ => True) (set l c))
    (hcode : ∀ c, Keeps Listed Declared W (code c)) (conn : Connection) :
    Keeps Listed Declared W ((liftM (ifLine line set conn) : Options.Code Connection) >>= code) := by
  refine Keeps.bind (V := fun _ => True) (Keeps.lift ?_) fun c _ => hcode c
  cases line with
  | none => exact True.intro
  | some line => exact hset line conn (hline line rfl)

theorem takeCustomConfiguration_clean (env : JavaEnv) (withDefault : Bool) (conn : Connection) :
    Keeps Listed Declared (fun _ => True) (takeCustomConfiguration env withDefault conn) :=
  fun _ h => ⟨True.intro, fun e he => h e (List.mem_of_mem_filter he)⟩

theorem Counted.two_le {maxarg : Nat} {r : Option (List Text)}
    (h : ∀ line, r = some line → Counted 1 maxarg line) : ∀ l, r = some l → 2 ≤ l.length :=
  fun l hl => (h l hl).1

theorem parseConnectionOptions_clean (env : JavaEnv) (connDefault : Option Connection) :
    Keeps Listed Declared (fun _ => True) (parseConnectionOptions env connDefault) := by
  have hget : ∀ l : List Text, 2 ≤ l.length → Clean (fun a => l[1]? = some a) (vectorGet l 1) :=
    fun l hl => clean_vectorGet (by omega)
  refine Keeps.bind (getOption_clean _ _ _) fun port hport => ?_
  refine ifLine_bind_clean (Counted.two_le hport) ?_ (fun conn => ?_) _
  · exact fun l c hl => Yields.bind (hget l hl) fun _ _ => True.intro
  refine Keeps.bind (getOption_clean _ _ _) fun rport hrport => ?_
  refine ifLine_bind_clean (Counted.two_le hrport) ?_ (fun conn => ?_) _
  · exact fun l c hl => Yields.bind (hget l hl) fun _ _ => True.intro
  refine Keeps.bind (getOption_clean _ _ _) fun proto hproto => ?_
  refine ifLine_bind_clean (Counted.two_le hproto) ?_ (fun conn => ?_) _
  · exact fun l c hl => Yields.bind (hget l hl) fun proto _ =>
      Yields.bind (clean_isUdpProto proto) fun _ _ => True.intro
  refine Keeps.bind (getOption_clean _ _ _) fun connectTimeout htimeout => ?_
  refine ifLine_bind_clean (Counted.two_le htimeout) ?_ (fun conn => ?_) _
  · exact fun l c hl => Yields.bind (hget l hl) fun timeout _ =>
      Yields.bind (clean_parseConnectTimeout env timeout) fun _ _ => True.intro
  refine Keeps.bind getProxy_clean fun proxy hproxy => ?_
  refine ifLine_bind_clean hproxy (fun l c hl => clean_setProxy c hl) (fun conn => ?_) _
  refine Keeps.bind (getOption_clean _ _ _) fun auth hauth => ?_
  refine ifLine_bind_clean (Counted.two_le hauth) ?_ (fun conn => ?_) _
  · exact fun l c hl => Yields.bind (hget l hl) fun _ _ => True.intro
  refine Keeps.bind (getAllOption_clean _ _ _) fun remotes _ => ?_
  refine Keeps.bind (takeCustomConfiguration_clean env _ conn) fun conn _ => ?_
  refine Keeps.bind (Keeps.lift (Yields.mapM fun remote _ => clean_setRemote conn remote))
    fun connections _ => ?_
  exact Keeps.pure True.intro

theorem filtered_listed (names : List Text) : Filtered Listed names :=
  fun _ _ _ h e he => h e (List.mem_of_mem_filter he)

/-- No paragraph leaves an option without a line. -/
theorem Section.run_listed (env : JavaEnv) (sec : Section) : Keeping Listed (sec.run env) :=
  sec.run_keeping env (filtered_listed _) fun _ _ _ hlines h => h.put _ hlines

end ConfigParser

end OpenVpnAndroid
