/-
  OpenVpnAndroid/ConnectionOptions.lean
  =====================================
  **Looking options up, and the options of a connection**:
  `getAllOption`, `getOption`, `getOptionStrings` and `parseConnectionOptions`.

  A look-up counts the arguments of every line of the option and takes the
  option out of the map; what nobody looks up stays there.
-/
import OpenVpnAndroid.Commands
import OpenVpnAndroid.ConfigParser

namespace OpenVpnAndroid

open Commands

/-- What the import takes from the device and from the Java library. -/
structure JavaEnv where
  hashOrder : HashOrder
  /-- the `int` that `Scanner.nextInt` makes of a token, in the default locale -/
  nextInt : Text → Option Int
  nextInt_nil : nextInt [] = none
  /-- `getLocalizedMessage` of the `NumberFormatException` for a text -/
  numberFormatMessage : Text → Text

/-- Maps that are iterated in the order of their keys. -/
def HashOrder.sorted : HashOrder where
  order keys := keys.insertionSort (· ≤ ·)
  order_perm keys := List.perm_insertionSort _ keys
  order_congr := by
    intro keys keys' h
    have hperm := ((List.perm_insertionSort (· ≤ ·) keys).trans h).trans
      (List.perm_insertionSort (· ≤ ·) keys').symm
    exact hperm.eq_of_pairwise' (List.pairwise_insertionSort _ _) (List.pairwise_insertionSort _ _)

def JavaEnv.sorted : JavaEnv where
  hashOrder := .sorted
  nextInt := parseInt
  nextInt_nil := rfl
  numberFormatMessage s := ("For input string: \"" : Text) ++ s ++ ("\"" : Text)

/-- A piece of code that works on the field `options`. -/
abbrev Options.Code := StateT OptionMap Java

namespace ConfigParser

open VpnProfile (INLINE_TAG)

def configParseError (msg : Text) : Java α := throwJava (.configParseError msg)

/-! ### Looking options up -/

/-- Numbers as a locale with ASCII digits writes them. -/
def wrongCount (option : Text) (minarg maxarg : Nat) (optionline : List Text) : Text :=
  ("Option " : Text) ++ option ++ (" has " : Text) ++ decimal (optionline.length - 1)
    ++ (" parameters, expected between " : Text) ++ decimal minarg ++ (" and " : Text)
    ++ decimal maxarg

def badCount (minarg maxarg : Nat) (optionline : List Text) : Bool :=
  optionline.length < minarg + 1 || optionline.length > maxarg + 1

def getAllOption (option : Text) (minarg maxarg : Nat) :
    Options.Code (Option (List (List Text))) := fun options =>
  match OptionMap.get options option with
  | none => .ok (none, options)
  | some args =>
      match args.find? (badCount minarg maxarg) with
      | some optionline => configParseError (wrongCount option minarg maxarg optionline)
      | none => .ok (some args, OptionMap.remove options option)

def getOption (option : Text) (minarg maxarg : Nat) : Options.Code (Option (List Text)) := do
  match ← getAllOption option minarg maxarg with
  | none => return none
  | some alloptions => return some (← lastElement alloptions)

/-- A line with a number of arguments that the look-up lets through. -/
def Counted (minarg maxarg : Nat) (line : List Text) : Prop :=
  minarg + 1 ≤ line.length ∧ line.length ≤ maxarg + 1

/-- The look-up of the option returns these lines. -/
def Found (options : OptionMap) (option : Text) (minarg maxarg : Nat) (lines : List (List Text)) :
    Prop :=
  OptionMap.get options option = some lines ∧ ∀ l ∈ lines, Counted minarg maxarg l

section Lookup

variable {options : OptionMap} {option : Text} {minarg maxarg : Nat}

theorem badCount_eq_false {line : List Text} :
    badCount minarg maxarg line = false ↔ Counted minarg maxarg line := by
  simp only [badCount, Counted, Bool.or_eq_false_iff, decide_eq_false_iff_not]
  omega

theorem getAllOption_of_none (h : OptionMap.get options option = none) :
    getAllOption option minarg maxarg options = .ok (none, options) := by
  simp only [getAllOption, h]

theorem getAllOption_of_found {lines : List (List Text)}
    (h : Found options option minarg maxarg lines) :
    getAllOption option minarg maxarg options
      = .ok (some lines, OptionMap.remove options option) := by
  have hnone : lines.find? (badCount minarg maxarg) = none := by
    rw [List.find?_eq_none]
    intro l hl
    simp only [badCount_eq_false.mpr (h.2 l hl), Bool.false_eq_true, not_false_eq_true]
  simp only [getAllOption, h.1, hnone]

theorem Found.unique {lines lines' : List (List Text)}
    (h : Found options option minarg maxarg lines)
    (h' : Found options option minarg maxarg lines') : lines = lines' :=
  Option.some.inj (h.1.symm.trans h'.1)

/-- The option is not there, it is found, or a line has a wrong number of arguments. -/
theorem found_cases (options : OptionMap) (option : Text) (minarg maxarg : Nat) :
    OptionMap.get options option = none ∨ (∃ lines, Found options option minarg maxarg lines) ∨
      ((∀ lines, ¬Found options option minarg maxarg lines) ∧
        ∃ line, getAllOption option minarg maxarg options
          = configParseError (wrongCount option minarg maxarg line)) := by
  cases hget : OptionMap.get options option with
  | none => exact .inl rfl
  | some lines =>
      right
      cases hbad : lines.find? (badCount minarg maxarg) with
      | none =>
          left
          refine ⟨lines, hget, fun l hl => badCount_eq_false.mp ?_⟩
          simpa using List.find?_eq_none.mp hbad l hl
      | some line =>
          right
          refine ⟨fun lines' hlines' => ?_, line, by simp only [getAllOption, hget, hbad]⟩
          have hline := hlines'.2 line
          rw [Option.some.inj (hlines'.1.symm.trans hget)] at hline
          have hcount := badCount_eq_false.mpr (hline (List.mem_of_find?_eq_some hbad))
          rw [List.find?_some hbad] at hcount
          cases hcount

theorem getOption_of_none (h : OptionMap.get options option = none) :
    getOption option minarg maxarg options = .ok (none, options) := by
  rw [getOption, bind_ok (getAllOption_of_none h)]
  rfl

theorem getOption_of_found {lines : List (List Text)} {line : List Text}
    (h : Found options option minarg maxarg lines) (hline : lines.getLast? = some line) :
    getOption option minarg maxarg options = .ok (some line, OptionMap.remove options option) := by
  have hlast : lastElement lines = .ok line := by simp only [lastElement, hline]
  rw [getOption, bind_ok (getAllOption_of_found h)]
  exact bind_ok (lift_ok hlast)

end Lookup

/-! ### Custom options -/

def ignoreOptionsWithArg : List (List Text) :=
  [["setenv", "IV_GUI_VER"], ["setenv", "IV_SSO"], ["setenv", "IV_PLAT_VER"],
    ["setenv", "IV_OPENVPN_GUI_VERSION"], ["engine", "dynamic"], ["setenv", "CLIENT_CERT"],
    ["resolv-retry", "60"]]

/-- The line starts with the words of an entry of the table. -/
def ignoreThisOption (option : List Text) : Bool :=
  ignoreOptionsWithArg.any fun ignoreOption => ignoreOption.isPrefixOf option

/-- One line of custom options. -/
def getOptionString (optionsline : List Text) : Text :=
  match optionsline with
  | [name, file] =>
      if name = ("extra-certs" : Text) then VpnProfile.insertFileData name (some file)
      else optionLine optionsline ++ ("\n" : Text)
  | _ => optionLine optionsline ++ ("\n" : Text)

def getOptionStrings (option : List (List Text)) : Text :=
  option.flatMap fun optionsline =>
    if ignoreThisOption optionsline then [] else getOptionString optionsline

/-! ### The options of a connection -/

def connectionOptions : List Text :=
  ["local", "remote", "float", "port", "connect-retry", "connect-timeout", "connect-retry-max",
    "link-mtu", "tun-mtu", "tun-mtu-extra", "fragment", "mtu-disc", "local-port", "remote-port",
    "bind", "nobind", "proto", "http-proxy", "http-proxy-retry", "http-proxy-timeout",
    "http-proxy-option", "socks-proxy", "socks-proxy-retry", "http-proxy-user-pass",
    "explicit-exit-notify"]

def isUdpProto (proto : Text) : Java Bool :=
  if proto = ("udp" : Text) ∨ proto = ("udp4" : Text) ∨ proto = ("udp6" : Text) then return true
  else if proto = ("tcp-client" : Text) ∨ proto = ("tcp" : Text) ∨ proto = ("tcp4" : Text)
      ∨ ("tcp4-client" : Text).isSuffixOf proto ∨ proto = ("tcp6" : Text)
      ∨ ("tcp6-client" : Text).isSuffixOf proto then return false
  else configParseError (("Unsupported option to --proto " : Text) ++ proto)

/-- `useEmbbedHttpAuth` -/
def useEmbbedHttpAuth (c : Connection) (inlinedata : Text) : Connection :=
  match split (· == '\n') (VpnProfile.getEmbeddedContent inlinedata) with
  | user :: password :: _ =>
      { c with mProxyAuthUser := some user, mProxyAuthPassword := some password, mUseProxyAuth := true }
  | _ => c

/-- `Integer.parseInt` and the error of `connect-timeout`. -/
def parseConnectTimeout (env : JavaEnv) (timeout : Text) : Java Int :=
  match parseInt timeout with
  | some n => return n
  | none =>
      configParseError (("Argument to connect-timeout (" : Text) ++ timeout
        ++ (") must to be an integer: " : Text) ++ env.numberFormatMessage timeout)

/-- The line of a SOCKS proxy, or else of an HTTP proxy. -/
def getProxy : Options.Code (Option (List Text)) := do
  match ← getOption "socks-proxy" 1 2 with
  | some proxy => return some proxy
  | none => getOption "http-proxy" 2 2

/-- The type of the proxy, and the default port of a SOCKS proxy; HTTP always sets
    the port. -/
def setProxyType (conn : Connection) (option : Text) : Connection :=
  if option = ("socks-proxy" : Text) then { conn with mProxyType := .socks5, mProxyPort := "1080" }
  else { conn with mProxyType := .http }

/-- The fields that a `socks-proxy` or `http-proxy` line sets. -/
def setProxy (conn : Connection) (proxy : List Text) : Java Connection := do
  let conn := setProxyType conn (← vectorGet proxy 0)
  let conn := { conn with mProxyName := ← vectorGet proxy 1 }
  if proxy.length ≥ 3 then return { conn with mProxyPort := ← vectorGet proxy 2 } else return conn

/-- `c` after `if (line != null)`. -/
def ifLine (line : Option (List Text)) (set : List Text → Connection → Java Connection)
    (c : Connection) : Java Connection :=
  match line with
  | none => return c
  | some line => set line c

/-- The `switch` over the size of a `remote` line, whose cases fall through. -/
def setRemote (conn : Connection) (remote : List Text) : Java Connection := do
  let conn ← (if remote.length = 4 then
      return { conn with mUseUdp := ← isUdpProto (← vectorGet remote 3) }
    else return conn : Java Connection)
  let conn ← (if remote.length = 3 ∨ remote.length = 4 then
      return { conn with mServerPort := ← vectorGet remote 2 }
    else return conn : Java Connection)
  if remote.length = 2 ∨ remote.length = 3 ∨ remote.length = 4 then
    return { conn with mServerName := ← vectorGet remote 1 }
  else return conn

/-- The options that go to the custom configuration of the connection: with default
    values all that are left, else those of the table. -/
def isConnectionOption (withDefault : Bool) (name : Text) : Bool :=
  withDefault || connectionOptions.contains name

/-- The loops over `options` that collect the custom configuration and take it out. -/
def takeCustomConfiguration (env : JavaEnv) (withDefault : Bool) (conn : Connection) :
    Options.Code Connection := fun options =>
  let taken := (env.hashOrder.entries options).filter fun e => isConnectionOption withDefault e.1
  let custom := conn.mCustomConfiguration ++ taken.flatMap fun e => getOptionStrings e.2
  .ok ({ conn with
          mCustomConfiguration := custom
          mUseCustomConfig := conn.mUseCustomConfig || !(trim custom).isEmpty },
    options.filter fun e => !isConnectionOption withDefault e.1)

/-- The default connection of the options and one connection for each remote. -/
def parseConnectionOptions (env : JavaEnv) (connDefault : Option Connection) :
    Options.Code (Connection × List Connection) := do
  let conn := connDefault.getD {}
  let conn ← ifLine (← getOption "port" 1 1) (fun port c =>
    return { c with mServerPort := ← vectorGet port 1 }) conn
  let conn ← ifLine (← getOption "rport" 1 1) (fun rport c =>
    return { c with mServerPort := ← vectorGet rport 1 }) conn
  let conn ← ifLine (← getOption "proto" 1 1) (fun proto c =>
    return { c with mUseUdp := ← isUdpProto (← vectorGet proto 1) }) conn
  let conn ← ifLine (← getOption "connect-timeout" 1 1) (fun connectTimeout c =>
    return { c with mConnectTimeout := ← parseConnectTimeout env (← vectorGet connectTimeout 1) }) conn
  let proxy ← getProxy
  let conn ← ifLine proxy (fun proxy c => setProxy c proxy) conn
  let conn ← ifLine (← getOption "http-proxy-user-pass" 1 1) (fun httpproxyauthhttp c =>
    return useEmbbedHttpAuth c (← vectorGet httpproxyauthhttp 1)) conn
  let remotes ← getAllOption "remote" 1 3
  let conn ← takeCustomConfiguration env connDefault.isSome conn
  let connections ← ((remotes.getD []).mapM (setRemote conn) : Java (List Connection))
  return (conn, connections)

/-- `connection.substring(INLINE_TAG.length())` -/
def substringTag (connection : Text) : Java Text :=
  if connection.length < INLINE_TAG.length then throwJava .stringIndexOutOfBounds
  else return connection.drop INLINE_TAG.length

/-- A connection block as a configuration file of its own. -/
def parseConnection (env : JavaEnv) (connection : Text) (defaultValues : Connection) :
    Java (List Connection) := do
  let connectionParser ← parseConfig (← substringTag connection)
  let ((_, connections), _) ← parseConnectionOptions env (some defaultValues) connectionParser.options
  return connections

end ConfigParser

end OpenVpnAndroid
