/-
  OpenVpnAndroid/ConvertProfile.lean
  ==================================
  **`convertProfile`: from the map of options to a profile.**

  The long method is cut into its paragraphs, in order (`Section`); each works on
  the fields of the parser and the local variables that later ones read
  (`Import`).  A paragraph that only looks an option up and stores what it finds
  is an instance of `flag` or `argument`.
-/
import OpenVpnAndroid.CIDRIP
import OpenVpnAndroid.ConnectionOptions

namespace OpenVpnAndroid

open Commands

/-- The parser's fields and the local variables of `convertProfile`. -/
structure Import where
  options : OptionMap
  metadata : List (Text × List Text)
  np : VpnProfile
  noauthtypeset : Bool
  auth_user_pass_file : Option Text
deriving DecidableEq, Repr

/-- A piece of code that works on the import. -/
abbrev Import.Code := StateT Import Java

/-- A look-up changes the field `options` only. -/
instance (priority := low) : MonadLift Options.Code Import.Code where
  monadLift code := fun s =>
    match code s.options with
    | .ok (a, options) => .ok (a, { s with options := options })
    | .error e => .error e

namespace ConfigParser

open VpnProfile (INLINE_TAG)

def modifyProfile (f : VpnProfile → VpnProfile) : Import.Code Unit :=
  modify fun s => { s with np := f s.np }

theorem modifyProfile_run (f : VpnProfile → VpnProfile) (s : Import) :
    modifyProfile f s = .ok ((), { s with np := f s.np }) := rfl

def modifyOptions (f : OptionMap → OptionMap) : Import.Code Unit :=
  modify fun s => { s with options := f s.options }

/-- `if (line != null)` after a look-up of the last line. -/
def whenOption (option : Text) (minarg maxarg : Nat) (code : List Text → Import.Code Unit) :
    Import.Code Unit := do
  match ← getOption option minarg maxarg with
  | none => return
  | some line => code line

/-- `if (lines != null)` after a look-up of all lines. -/
def whenAllOption (option : Text) (minarg maxarg : Nat)
    (code : List (List Text) → Import.Code Unit) : Import.Code Unit := do
  match ← getAllOption option minarg maxarg with
  | none => return
  | some lines => code lines

section When

variable {s : Import} {option : Text} {minarg maxarg : Nat}

theorem lookup_ok {code : Options.Code α} {a : α} {options : OptionMap}
    (h : code s.options = .ok (a, options)) :
    (liftM code : Import.Code α) s = .ok (a, { s with options := options }) := by
  change (match code s.options with
    | .ok (a, options) => Except.ok (a, { s with options := options })
    | .error e => .error e) = _
  rw [h]

theorem lookup_error {code : Options.Code α} {e : Stop} (h : code s.options = .error e) :
    (liftM code : Import.Code α) s = .error e := by
  change (match code s.options with
    | .ok (a, options) => Except.ok (a, { s with options := options })
    | .error e => .error e) = _
  rw [h]

theorem whenAllOption_of_none {code : List (List Text) → Import.Code Unit}
    (h : OptionMap.get s.options option = none) :
    whenAllOption option minarg maxarg code s = .ok ((), s) := by
  rw [whenAllOption, bind_ok (lookup_ok (getAllOption_of_none h))]
  rfl

theorem whenAllOption_of_found {code : List (List Text) → Import.Code Unit}
    {lines : List (List Text)} (h : Found s.options option minarg maxarg lines) :
    whenAllOption option minarg maxarg code s
      = code lines { s with options := OptionMap.remove s.options option } := by
  rw [whenAllOption, bind_ok (lookup_ok (getAllOption_of_found h))]

theorem whenOption_of_none {code : List Text → Import.Code Unit}
    (h : OptionMap.get s.options option = none) :
    whenOption option minarg maxarg code s = .ok ((), s) := by
  rw [whenOption, bind_ok (lookup_ok (getOption_of_none h))]
  rfl

theorem whenOption_of_found {code : List Text → Import.Code Unit} {lines : List (List Text)}
    {line : List Text} (h : Found s.options option minarg maxarg lines)
    (hline : lines.getLast? = some line) :
    whenOption option minarg maxarg code s
      = code line { s with options := OptionMap.remove s.options option } := by
  rw [whenOption, bind_ok (lookup_ok (getOption_of_found h hline))]

end When

/-- An option that sets something by being there. -/
def flag (option : Text) (maxarg : Nat) (set : VpnProfile → VpnProfile) : Import.Code Unit :=
  whenOption option 0 maxarg fun _ => modifyProfile set

/-- An option with one argument, which is stored. -/
def argument (option : Text) (set : Text → VpnProfile → VpnProfile) : Import.Code Unit :=
  whenOption option 1 1 fun line => do
    let arg ← vectorGet line 1
    modifyProfile (set arg)

/-! ### Pull, static keys and routes -/

/-- `VpnProfile(CONVERTED_PROFILE)` after `clearDefaults`. -/
def clearDefaults : VpnProfile :=
  { mName := "converted Profile"
    mServerName := "unknown"
    mUsePull := false
    mUseLzo := false
    mUseDefaultRoute := false
    mUseDefaultRoutev6 := false
    mExpectTLSCert := false
    mCheckRemoteCN := false
    mPersistTun := false
    mAllowLocalLAN := true
    mPushPeerInfo := false
    mMssFix := 0
    mNobind := false }

def client : Import.Code Unit := do
  let options := (← get).options
  if OptionMap.containsKey options "client" || OptionMap.containsKey options "pull" then
    modifyProfile fun np => { np with mUsePull := true }
    modifyOptions fun options => OptionMap.remove (OptionMap.remove options "pull") "client"

def secret : Import.Code Unit :=
  whenOption "secret" 1 2 fun secret => do
    let file ← vectorGet secret 1
    modify fun s => { s with
      noauthtypeset := false
      np := { s.np with
        mAuthenticationType := .statickeys, mUseTLSAuth := true, mTLSAuthFilename := some file } }
    if secret.length = 3 then
      let direction ← vectorGet secret 2
      modifyProfile fun np => { np with mTLSAuthDirection := direction }

/-- `new CIDRIP(net, netmask)` for a route; both exceptions are caught. -/
def routeCidr (net netmask : Text) : Java CIDRIP :=
  match CIDRIP.ofMask net netmask with
  | .error (.thrown .arrayIndexOutOfBounds) | .error (.thrown (.numberFormat _)) =>
      configParseError (("Could not parse netmask of route " : Text) ++ netmask)
  | x => x

/-- An argument that has a default. -/
def defaultArg (line : List Text) (i : Nat) (value : Text) : Java Text :=
  if line.length ≥ i + 1 then vectorGet line i else return value

theorem defaultArg_eq (args : List Text) (i : Nat) (value : Text) :
    defaultArg args i value = .ok ((args[i]?).getD value) := by
  unfold defaultArg
  split
  · have hget := List.getElem?_eq_getElem (by omega : i < args.length)
    rw [vectorGet_of_getElem? hget, hget]
    rfl
  · rw [List.getElem?_eq_none_iff.mpr (by omega)]
    rfl

/-- The loop over the `route` lines: `routeopt` and `routeExcluded`. -/
def convertRoutes : List (List Text) → Text → Text → Java (Text × Text)
  | [], routeopt, routeExcluded => return (routeopt, routeExcluded)
  | route :: routes, routeopt, routeExcluded => do
      let netmask ← defaultArg route 2 "255.255.255.255"
      let gateway ← defaultArg route 3 "vpn_gateway"
      let net ← vectorGet route 1
      let cidr ← routeCidr net netmask
      if gateway = ("net_gateway" : Text) then
        convertRoutes routes routeopt (routeExcluded ++ cidr.toString ++ (" " : Text))
      else convertRoutes routes (routeopt ++ cidr.toString ++ (" " : Text)) routeExcluded

def route : Import.Code Unit :=
  whenAllOption "route" 1 4 fun routes => do
    let (routeopt, routeExcluded) ← convertRoutes routes [] []
    modifyProfile fun np =>
      { np with mCustomRoutes := some routeopt, mExcludedRoutes := some routeExcluded }

def routeIpv6 : Import.Code Unit :=
  whenAllOption "route-ipv6" 1 4 fun routesV6 => do
    let networks ← (routesV6.mapM fun route => vectorGet route 1 : Java (List Text))
    modifyProfile fun np =>
      { np with mCustomRoutesv6 := networks.flatMap fun network => network ++ (" " : Text) }

/-- One `tls-auth` line; the file of `tls-auth [inline]` is read elsewhere. -/
def applyTlsAuth (np : VpnProfile) (tlsauth : List Text) : Java VpnProfile := do
  let file ← vectorGet tlsauth 1
  let np :=
    if file ≠ ("[inline]" : Text) then
      { np with mTLSAuthFilename := some file, mUseTLSAuth := true }
    else np
  if tlsauth.length = 3 then return { np with mTLSAuthDirection := ← vectorGet tlsauth 2 }
  else return np

def tlsAuth : Import.Code Unit :=
  whenAllOption "tls-auth" 1 2 fun tlsauthoptions => do
    let np ← (tlsauthoptions.foldlM applyTlsAuth (← get).np : Java VpnProfile)
    modifyProfile fun _ => np

def tlsCrypt (crypt : Text) : Import.Code Unit :=
  argument crypt fun file np =>
    { np with mUseTLSAuth := true, mTLSAuthFilename := some file, mTLSAuthDirection := crypt }

/-- One parameter of `redirect-gateway`. -/
def applyRedirect (np : VpnProfile) (parameter : Text) : VpnProfile :=
  if parameter = ("block-local" : Text) then { np with mAllowLocalLAN := false }
  else if parameter = ("unblock-local" : Text) then { np with mAllowLocalLAN := true }
  else if parameter = ("ipv6" : Text) then { np with mUseDefaultRoutev6 := true }
  else np

/-- `checkRedirectParameters(np, defgw, true)` -/
def checkRedirectParameters (defgw : List (List Text)) (np : VpnProfile) : VpnProfile :=
  let parameters := defgw.flatMap fun redirect => redirect.drop 1
  let np := parameters.foldl applyRedirect np
  if parameters.contains ("!ipv4" : Text) then np else { np with mUseDefaultRoute := true }

def redirectGateway : Import.Code Unit :=
  whenAllOption "redirect-gateway" 0 7 fun defgw => modifyProfile (checkRedirectParameters defgw)

/-- With `defaultRoute = false`, `checkRedirectParameters` does nothing. -/
def redirectPrivate : Import.Code Unit :=
  whenAllOption "redirect-private" 0 5 fun _ => return

/-! ### The device and its addresses -/

/-- `line != null && test(line.get(1))` -/
def hasArg (line : Option (List Text)) (test : Text → Bool) : Java Bool :=
  match line with
  | none => return false
  | some line => return test (← vectorGet line 1)

def dev : Import.Code Unit := do
  let dev ← getOption "dev" 1 1
  let devtype ← getOption "dev-type" 1 1
  let isTun ← hasArg devtype fun arg => arg == ("tun" : Text)
  let startsWithTun ← hasArg dev fun arg => ("tun" : Text).isPrefixOf arg
  if isTun || startsWithTun || (devtype.isNone && dev.isNone) then return
  else configParseError "Sorry. Only tun mode is supported. See the FAQ for more detail"

/-- `Integer.parseInt` with the error of an option. -/
def parseArgument (option : Text) (arg : Text) : Java Int :=
  match parseInt arg with
  | none => configParseError (("Argument to --" : Text) ++ option ++ (" has to be an integer" : Text))
  | some n => return n

/-- The size of a `mssfix` line, or OpenVPN's default. -/
def mssfixSize (mssfix : List Text) : Java Int :=
  if mssfix.length ≥ 2 then do parseArgument "mssfix" (← vectorGet mssfix 1) else return 1450

def mssfix : Import.Code Unit :=
  whenOption "mssfix" 0 2 fun mssfix => do
    let size ← mssfixSize mssfix
    modifyProfile fun np => { np with mMssFix := size }
    -- ignore the mtu argument of OpenVPN3 and report an error otherwise
    if mssfix.length ≥ 3 then
      if (← vectorGet mssfix 2) ≠ ("mtu" : Text) then
        configParseError "Second argument to --mssfix unkonwn"

def tunMtu : Import.Code Unit :=
  whenOption "tun-mtu" 1 1 fun tunmtu => do
    let size ← parseArgument "tun-mtu" (← vectorGet tunmtu 1)
    modifyProfile fun np => { np with mTunMtu := size }

def mode : Import.Code Unit :=
  whenOption "mode" 1 1 fun mode => do
    if (← vectorGet mode 1) ≠ ("p2p" : Text) then
      configParseError "Invalid mode for --mode specified, need p2p"

/-- One `dhcp-option` line. -/
def applyDhcpOption (np : VpnProfile) (dhcpoption : List Text) : Java VpnProfile := do
  let type ← vectorGet dhcpoption 1
  let arg ← vectorGet dhcpoption 2
  if type = ("DOMAIN" : Text) then return { np with mSearchDomain := arg }
  else if type = ("DNS" : Text) then
    if np.mDNS1 = VpnProfile.DEFAULT_DNS1 then
      return { np with mOverrideDNS := true, mDNS1 := arg, mDNS2 := [] }
    else return { np with mOverrideDNS := true, mDNS2 := arg }
  else return np

def dhcpOption : Import.Code Unit :=
  whenAllOption "dhcp-option" 2 2 fun dhcpoptions => do
    let np ← (dhcpoptions.foldlM applyDhcpOption (← get).np : Java VpnProfile)
    modifyProfile fun _ => np

/-- `new CIDRIP(address, netmask)` for `ifconfig`; only the `NumberFormatException`
    is caught. -/
def ifconfigCidr (env : JavaEnv) (address netmask : Text) : Java CIDRIP :=
  match CIDRIP.ofMask address netmask with
  | .error (.thrown (.numberFormat s)) =>
      configParseError
        (("Could not pase ifconfig IP address: " : Text) ++ env.numberFormatMessage s)
  | x => x

def ifconfig (env : JavaEnv) : Import.Code Unit :=
  whenOption "ifconfig" 2 2 fun ifconfig => do
    let cidr ← ifconfigCidr env (← vectorGet ifconfig 1) (← vectorGet ifconfig 2)
    modifyProfile fun np => { np with mIPv4Address := some cidr.toString }

/-! ### Ciphers and versions -/

/-- `if (line != null) field = line.get(1);` -/
def storedArg (line : Option (List Text)) (old : Text) : Java Text :=
  match line with
  | none => return old
  | some line => vectorGet line 1

def ciphers : Import.Code Unit := do
  let ncp_ciphers ← getOption "ncp-ciphers" 1 1
  let data_ciphers ← getOption "data-ciphers" 1 1
  let cipher ← getOption "cipher" 1 1
  let np := (← get).np
  let cipher ← storedArg cipher np.mCipher
  let data_ciphers ← storedArg (data_ciphers.or ncp_ciphers) np.mDataCiphers
  modifyProfile fun np => { np with mCipher := cipher, mDataCiphers := data_ciphers }

def tlsCertProfiles : List Text := ["insecure", "preferred", "legacy", "suiteb"]

def tlsCertProfile : Import.Code Unit :=
  whenOption "tls-cert-profile" 1 1 fun tls_cert_profile => do
    let profile ← vectorGet tls_cert_profile 1
    if tlsCertProfiles.contains profile then
      modifyProfile fun np => { np with mTlSCertProfile := profile }
    if profile ≠ (← get).np.mTlSCertProfile then
      configParseError (("Invalid tls-cert-profile '" : Text) ++ profile ++ ("'" : Text))

/-- `toLowerCase(Locale.ROOT)`, for a comparison with ASCII text that has neither
    an `i` nor a `k`. -/
def toLowerCase (s : Text) : Text := s.map Char.toLower

def provider : Import.Code Unit :=
  whenOption "provider" 1 9 fun provider => do
    let providers := toLowerCase (← vectorGet provider 1)
    if providers = ("legacy:default" : Text) ∨ providers = ("default:legacy" : Text)
        ∨ (provider.any fun prov => toLowerCase prov == ("legacy" : Text)) then
      modifyProfile fun np => { np with mUseLegacyProvider := true }

/-- A `Scanner` with the delimiter `\\.` skips one delimiter before a token. -/
def skipDelimiter : Text → Text
  | '.' :: rest => rest
  | text => text

/-- `nextInt` of the `Scanner`: the number and the text that is left. -/
def nextInt (env : JavaEnv) (text : Text) : Java (Int × Text) :=
  let text := skipDelimiter text
  if text.isEmpty then throwJava .noSuchElement
  else
    match env.nextInt (text.takeWhile (· != '.')) with
    | none => throwJava .inputMismatch
    | some n => return (n, text.dropWhile (· != '.'))

/-- The three numbers of a version. -/
def scanVersion (env : JavaEnv) (version : Text) : Java (Int × Int × Int) := do
  let (major, rest) ← nextInt env version
  let (minor, rest) ← nextInt env rest
  let (patch, _) ← nextInt env rest
  return (major, minor, patch)

def compatMode (env : JavaEnv) : Import.Code Unit :=
  whenOption "compat-mode" 1 1 fun compatmode => do
    let (major, minor, patch) ← scanVersion env (← vectorGet compatmode 1)
    modifyProfile fun np => { np with mCompatMode := int (major * 10000 + minor * 100 + patch) }

/-! ### Certificates and names -/

def fingerprint (fp : List Text) : Java Text := do
  let data ← vectorGet fp 1
  return (if INLINE_TAG.isPrefixOf data then data.drop INLINE_TAG.length else data) ++ ("\n" : Text)

def peerFingerprint : Import.Code Unit :=
  whenAllOption "peer-fingerprint" 1 1 fun peerfp => do
    let fingerprints ← (peerfp.mapM fingerprint : Java (List Text))
    modifyProfile fun np => { np with
      mCheckPeerFingerprint := true
      mPeerFingerPrints := np.mPeerFingerPrints ++ fingerprints.flatten }

/-- `cert`, `pkcs12` or `cryptoapicert`: an option that says how to authenticate. -/
def authType (option : Text) (set : Text → VpnProfile → VpnProfile) : Import.Code Unit :=
  whenOption option 1 1 fun line => do
    let file ← vectorGet line 1
    modify fun s => { s with np := set file s.np, noauthtypeset := false }

def tlsRemote : Import.Code Unit := do
  let compatnames ← getOption "compat-names" 1 2
  let nonameremapping ← getOption "no-name-remapping" 1 1
  whenOption "tls-remote" 1 1 fun tlsremote => do
    let name ← vectorGet tlsremote 1
    modifyProfile fun np => { np with
      mRemoteCN := name
      mCheckRemoteCN := true
      mX509AuthType :=
        if compatnames.any (fun line => line.length > 2) || nonameremapping.isSome then
          .tlsremoteCompatNoremapping
        else .tlsremote }

/-- The second argument of `verify-x509-name`. -/
def x509AuthType (type : Text) : Java X509AuthType :=
  if type = ("name" : Text) then return .tlsremoteRdn
  else if type = ("subject" : Text) then return .tlsremoteDn
  else if type = ("name-prefix" : Text) then return .tlsremoteRdnPrefix
  else configParseError (("Unknown parameter to verify-x509-name: " : Text) ++ type)

def verifyX509Name : Import.Code Unit :=
  whenOption "verify-x509-name" 1 2 fun verifyx509name => do
    let name ← vectorGet verifyx509name 1
    let type ← (if verifyx509name.length > 2 then do x509AuthType (← vectorGet verifyx509name 2)
      else return .tlsremoteDn : Java X509AuthType)
    modifyProfile fun np =>
      { np with mRemoteCN := name, mCheckRemoteCN := true, mX509AuthType := type }

def connectRetry : Import.Code Unit :=
  whenOption "connect-retry" 1 2 fun connectretry => do
    let retry ← vectorGet connectretry 1
    modifyProfile fun np => { np with mConnectRetry := retry }
    if connectretry.length > 2 then
      let retryMaxTime ← vectorGet connectretry 2
      modifyProfile fun np => { np with mConnectRetryMaxTime := retryMaxTime }

def remoteCertTls : Import.Code Unit :=
  whenAllOption "remote-cert-tls" 1 1 fun remotetls => do
    if (← vectorGet (← vectorGet remotetls 0) 1) = ("server" : Text) then
      modifyProfile fun np => { np with mExpectTLSCert := true }
    else modifyOptions fun options => OptionMap.put options "remotetls" remotetls

/-! ### Users -/

/-- `useEmbbedUserAuth` -/
def useEmbbedUserAuth (np : VpnProfile) (inlinedata : Text) : VpnProfile :=
  match split (· == '\n') (VpnProfile.getEmbeddedContent inlinedata) with
  | user :: password :: _ => { np with mUsername := some user, mPassword := password }
  | _ => np

/-- The authentication type with a user name and a password as well. -/
def withUser (noauthtypeset : Bool) (type : AuthenticationType) : AuthenticationType :=
  if noauthtypeset then .userpass
  else if type = .certificates then .userpassCertificates
  else if type = .keystore then .userpassKeystore
  else type

def authUserPass : Import.Code Unit :=
  whenOption "auth-user-pass" 0 1 fun authuser => do
    modify fun s => { s with
      np := { s.np with mAuthenticationType := withUser s.noauthtypeset s.np.mAuthenticationType } }
    if authuser.length > 1 then
      let file ← vectorGet authuser 1
      modify fun s => { s with
        auth_user_pass_file :=
          if INLINE_TAG.isPrefixOf file then s.auth_user_pass_file else some file
        np := useEmbbedUserAuth { s.np with mUsername := none } file }

/-- What `auth-retry` stores for its argument. -/
def authRetryType (type : Text) : Option AuthRetry :=
  if type = ("none" : Text) then some .noneForget
  else if type = ("nointeract" : Text) ∨ type = ("interact" : Text) then some .nointeract
  else none

def authRetry : Import.Code Unit :=
  whenOption "auth-retry" 1 1 fun authretry => do
    match authRetryType (← vectorGet authretry 1) with
    | some type => modifyProfile fun np => { np with mAuthRetry := type }
    | none =>
      -- the message is made with the next argument
      configParseError (("Unknown parameter to auth-retry: " : Text) ++ (← vectorGet authretry 2))

/-- The parameter `dir` of `crl-verify`. -/
def hasDir (crlfile : List Text) : Java Bool :=
  if crlfile.length = 3 then return (← vectorGet crlfile 2) == ("dir" : Text) else return false

def crlVerify : Import.Code Unit :=
  whenOption "crl-verify" 1 2 fun crlfile => do
    if ← hasDir crlfile then
      modifyProfile fun np => { np with
        mCustomConfigOptions :=
          np.mCustomConfigOptions ++ List.intercalate (" " : Text) crlfile ++ ("\n" : Text) }
    else
      let file ← vectorGet crlfile 1
      modifyProfile fun np => { np with mCrlFilename := some file }

/-! ### Connections -/

/-- One connection block. -/
def connectionBlock (env : JavaEnv) (connDefault : Connection) (conn : List Text) :
    Java Connection := do
  match ← parseConnection env (← vectorGet conn 1) connDefault with
  | [connection] => return connection
  | _ => configParseError "A <connection> block must have exactly one remote"

/-- The connection blocks, which exclude remotes outside of them. -/
def connectionBlocks (env : JavaEnv) (connDefault : Connection) (connections : List Connection) :
    Import.Code Unit :=
  whenAllOption "connection" 1 1 fun connectionBlocks => do
    if connections.length > 0 then
      configParseError "Using a <connection> block and --remote is not allowed."
    else
      let connections ← (connectionBlocks.mapM (connectionBlock env connDefault) :
        Java (List Connection))
      modifyProfile fun np => { np with mConnections := connections }

def connections (env : JavaEnv) : Import.Code Unit := do
  let (connDefault, connections) ← parseConnectionOptions env none
  modifyProfile fun np => { np with mConnections := connections }
  connectionBlocks env connDefault connections

/-- The protocol that `proto-force` disables is compared with `mUseUdp`. -/
def disableUDP (protoToDisable : Text) : Java Bool :=
  if protoToDisable = ("udp" : Text) then return true
  else if protoToDisable = ("tcp" : Text) then return false
  else
    configParseError
      (("Unknown protocol " : Text) ++ protoToDisable ++ (" in proto-force" : Text))

def protoForce : Import.Code Unit :=
  whenOption "proto-force" 1 1 fun protoforce => do
    let disableUDP ← disableUDP (← vectorGet protoforce 1)
    modifyProfile fun np => { np with
      mConnections := np.mConnections.map fun conn =>
        if conn.mUseUdp = disableUDP then { conn with mEnabled := false } else conn }

/-! ### The end of the import -/

/-- The value of an OpenVPN Access Server directive. -/
def metaValue (metadata : List (Text × List Text)) (name : Text) : Option Text :=
  ((metadata.find? fun e => e.1 == name).bind fun e => e.2[1]?)

def accessServer : Import.Code Unit := do
  let metadata := (← get).metadata
  modifyProfile fun np => { np with
    mName := ((metaValue metadata "FRIENDLY_NAME").or (metaValue metadata "PROFILE")).getD np.mName
    mUsername := (metaValue metadata "USERNAME").or np.mUsername }

def unsupportedOptions : List Text := ["config", "tls-server"]

def ignoreOptions : List Text :=
  ["tls-client", "allow-recursive-routing", "askpass", "auth-nocache", "up", "down", "route-up",
    "ipchange", "route-pre-down", "auth-user-pass-verify", "block-outside-dns",
    "client-cert-not-required", "dhcp-release", "dhcp-renew", "dh", "group", "ip-win32",
    "ifconfig-nowarn", "management-hold", "management", "management-client",
    "management-query-remote", "management-query-passwords", "management-query-proxy",
    "management-external-key", "management-forget-disconnect", "management-signal",
    "management-log-cache", "management-up-down", "management-client-user",
    "management-client-group", "pause-exit", "preresolve", "plugin", "machine-readable-output",
    "persist-key", "push", "register-dns", "route-delay", "route-gateway", "route-metric",
    "route-method", "status", "script-security", "show-net-up", "suppress-timestamps", "tap-sleep",
    "tmp-dir", "tun-ipv6", "topology", "user", "win-sys"]

def customOptionsComment : Text :=
  "# These options found in the config file do not map to config settings:\n"

/-- A line that the table of options with arguments does not ignore. -/
def hasCustomOptions (options : OptionMap) : Bool :=
  options.any fun e => e.2.any fun optionsline => !ignoreThisOption optionsline

def checkIgnoreAndInvalidOptions (env : JavaEnv) : Import.Code Unit := do
  let options := (← get).options
  match unsupportedOptions.find? fun option => OptionMap.containsKey options option with
  | some option =>
      configParseError (("Unsupported Option " : Text) ++ option
        ++ (" encountered in config file. Aborting" : Text))
  | none =>
      let options := ignoreOptions.foldl OptionMap.remove options
      modifyOptions fun _ => options
      if hasCustomOptions options then
        modifyProfile fun np => { np with
          mCustomConfigOptions :=
            customOptionsComment ++ np.mCustomConfigOptions
              ++ (env.hashOrder.entries options).flatMap fun e => getOptionStrings e.2
          mUseCustomConfig := true }

def fixup : Import.Code Unit :=
  modifyProfile fun np => if np.mRemoteCN = np.mServerName then { np with mRemoteCN := [] } else np

/-! ### `convertProfile` -/

/-- The paragraphs of `convertProfile`. -/
inductive Section where
  | client | secret | route | routeIpv6 | routeNopull | tlsAuth | keyDirection
  | tlsCrypt | tlsCryptV2 | redirectGateway | redirectPrivate | dev | mssfix | tunMtu | mode
  | dhcpOption | ifconfig | remoteRandomHostname | float | compLzo | ciphers | tlsCertProfile
  | provider | compatMode | auth | ca | peerFingerprint | cert | key | pkcs12 | cryptoapicert
  | tlsRemote | verifyX509Name | x509UsernameField | verb | nobind | persistTun | pushPeerInfo
  | connectRetry | connectRetryMax | remoteCertTls | authUserPass | authRetry | crlVerify
  | connections | remoteRandom | protoForce | accessServer | checkIgnoreAndInvalidOptions | fixup
deriving DecidableEq, Repr

def Section.run (env : JavaEnv) : Section → Import.Code Unit
  | client => ConfigParser.client
  | secret => ConfigParser.secret
  | route => ConfigParser.route
  | routeIpv6 => ConfigParser.routeIpv6
  | routeNopull => flag "route-nopull" 0 fun np => { np with mRoutenopull := true }
  | tlsAuth => ConfigParser.tlsAuth
  | keyDirection => argument "key-direction" fun arg np => { np with mTLSAuthDirection := arg }
  | tlsCrypt => ConfigParser.tlsCrypt "tls-crypt"
  | tlsCryptV2 => ConfigParser.tlsCrypt "tls-crypt-v2"
  | redirectGateway => ConfigParser.redirectGateway
  | redirectPrivate => ConfigParser.redirectPrivate
  | dev => ConfigParser.dev
  | mssfix => ConfigParser.mssfix
  | tunMtu => ConfigParser.tunMtu
  | mode => ConfigParser.mode
  | dhcpOption => ConfigParser.dhcpOption
  | ifconfig => ConfigParser.ifconfig env
  | remoteRandomHostname =>
      flag "remote-random-hostname" 0 fun np => { np with mUseRandomHostname := true }
  | float => flag "float" 0 fun np => { np with mUseFloat := true }
  | compLzo => flag "comp-lzo" 1 fun np => { np with mUseLzo := true }
  | ciphers => ConfigParser.ciphers
  | tlsCertProfile => ConfigParser.tlsCertProfile
  | provider => ConfigParser.provider
  | compatMode => ConfigParser.compatMode env
  | auth => argument "auth" fun arg np => { np with mAuth := arg }
  | ca => argument "ca" fun arg np => { np with mCaFilename := some arg }
  | peerFingerprint => ConfigParser.peerFingerprint
  | cert =>
      authType "cert" fun file np =>
        { np with mClientCertFilename := some file, mAuthenticationType := .certificates }
  | key => argument "key" fun arg np => { np with mClientKeyFilename := some arg }
  | pkcs12 =>
      authType "pkcs12" fun file np =>
        { np with mPKCS12Filename := some file, mAuthenticationType := .keystore }
  | cryptoapicert => authType "cryptoapicert" fun _ np => { np with mAuthenticationType := .keystore }
  | tlsRemote => ConfigParser.tlsRemote
  | verifyX509Name => ConfigParser.verifyX509Name
  | x509UsernameField =>
      argument "x509-username-field" fun arg np => { np with mx509UsernameField := some arg }
  | verb => argument "verb" fun arg np => { np with mVerb := arg }
  | nobind => flag "nobind" 0 fun np => { np with mNobind := true }
  | persistTun => flag "persist-tun" 0 fun np => { np with mPersistTun := true }
  | pushPeerInfo => flag "push-peer-info" 0 fun np => { np with mPushPeerInfo := true }
  | connectRetry => ConfigParser.connectRetry
  | connectRetryMax =>
      argument "connect-retry-max" fun arg np => { np with mConnectRetryMax := some arg }
  | remoteCertTls => ConfigParser.remoteCertTls
  | authUserPass => ConfigParser.authUserPass
  | authRetry => ConfigParser.authRetry
  | crlVerify => ConfigParser.crlVerify
  | connections => ConfigParser.connections env
  | remoteRandom => flag "remote-random" 0 fun np => { np with mRemoteRandom := true }
  | protoForce => ConfigParser.protoForce
  | accessServer => ConfigParser.accessServer
  | checkIgnoreAndInvalidOptions => ConfigParser.checkIgnoreAndInvalidOptions env
  | fixup => ConfigParser.fixup

/-- The paragraphs in the order of the source. -/
def paragraphs : List Section :=
  [.client, .secret, .route, .routeIpv6, .routeNopull, .tlsAuth, .keyDirection, .tlsCrypt,
    .tlsCryptV2, .redirectGateway, .redirectPrivate, .dev, .mssfix, .tunMtu, .mode, .dhcpOption,
    .ifconfig, .remoteRandomHostname, .float, .compLzo, .ciphers, .tlsCertProfile, .provider,
    .compatMode, .auth, .ca, .peerFingerprint, .cert, .key, .pkcs12, .cryptoapicert, .tlsRemote,
    .verifyX509Name, .x509UsernameField, .verb, .nobind, .persistTun, .pushPeerInfo, .connectRetry,
    .connectRetryMax, .remoteCertTls, .authUserPass, .authRetry, .crlVerify, .connections,
    .remoteRandom, .protoForce, .accessServer, .checkIgnoreAndInvalidOptions, .fixup]

/-- The paragraphs one after the other. -/
def runSections (env : JavaEnv) : List Section → Import → Java Import
  | [], s => .ok s
  | sec :: secs, s =>
      match sec.run env s with
      | .error e => .error e
      | .ok (_, s) => runSections env secs s

def Import.start (p : ConfigParser) : Import := ⟨p.options, p.metadata, clearDefaults, true, none⟩

def convertProfile (env : JavaEnv) (p : ConfigParser) : Java VpnProfile :=
  (runSections env paragraphs (Import.start p)).map Import.np

/-- `parseConfig` and then `convertProfile`, of a fresh parser. -/
def importProfile (env : JavaEnv) (text : Text) : Java VpnProfile := do
  convertProfile env (← parseConfig text)

end ConfigParser

end OpenVpnAndroid
