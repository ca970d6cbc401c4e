/-
  OpenVpnAndroid/ManagementThread.lean
  ====================================
  **What `OpenVpnManagementThread` answers**: the questions for passwords, for a
  confirmation and for a signature.

  For a confirmation the text behind `MSG:` is taken apart and handed to the service
  first (`needAction`).  The passwords come from the cache or the profile and are
  written through `openVpnEscape`.
-/
import OpenVpnAndroid.ManagementReader
import OpenVpnAndroid.PasswordCache
import OpenVpnAndroid.TunReopen

namespace OpenVpnAndroid

/-- What the answers depend on outside the thread. -/
structure ThreadEnvironment where
  openEnvironment : OpenEnvironment
  /-- `InetAddress.getAllByName(host)[0]`, if that is an IPv6 address -/
  getAllByName : Text → Option (BitVec 128)
  /-- `ProxyInfo.buildDirectProxy` does not throw -/
  buildDirectProxy : Text → Int → Bool
  /-- `mProfile.getSignedData(...)` for the arguments behind the data, and the data -/
  getSignedData : Text → List Text → Option Text

/-- The fields that `processCommand` uses, and what it has written to the socket. -/
structure ManagementThread where
  profile : ProfilePasswords
  mUsername : Option Text
  /-- `mProxyAuthUser` and `mProxyAuthPassword` of `mCurrentProxyConnection` -/
  proxyAuth : Option (Option Text × Option Text)
  passwordCache : Option PasswordCache
  service : TunService
  mFDList : List Nat
  /-- the descriptors that were to be protected; `none` if there was none in the list -/
  protectedFds : List (Option Nat)
  written : List Text

namespace ManagementThread

variable (env : ThreadEnvironment) (t : ManagementThread)

def managmentCommand (cmd : Text) : ManagementThread := { t with written := t.written ++ [cmd] }

/-- `argument.substring(p1 + 1, p2)` for the positions of the first two apostrophes; without them
    there is an exception. -/
def quotedPart (argument : Text) : Option Text :=
  match argument.dropWhile (· ≠ APOSTROPHE) with
  | [] => none
  | _ :: rest =>
      if APOSTROPHE ∈ rest then some (rest.takeWhile (· ≠ APOSTROPHE)) else none

/-! ### Passwords -/

/-- `String.format("username '%s' %s\n", needed, openVpnEscape(username))`, and so for the
    password. -/
def credentialCommand (command needed value : Text) : Text :=
  command ++ (" '" : Text) ++ needed ++ ("' " : Text) ++ VpnProfile.openVpnEscape value ++ ['\n']

/-- The user name and the password, and the cache behind the question. -/
def credentials (needed : Text) : Option Text × Option Text × Option PasswordCache :=
  if needed = ("Private Key" : Text) then
    (none, VpnProfile.getPasswordPrivateKey t.profile t.passwordCache)
  else if needed = ("Auth" : Text) then
    (t.mUsername, VpnProfile.getPasswordAuth t.profile t.passwordCache)
  else if needed = ("HTTP Proxy" : Text) then
    ((t.proxyAuth.bind (·.1)), (t.proxyAuth.bind (·.2)), t.passwordCache)
  else (none, none, t.passwordCache)

/-- There is no user name for a private key. -/
theorem credentials_privateKey : (t.credentials ("Private Key" : Text)).1 = none := by
  simp only [credentials, if_true]

/-- `processPWCommand`; what it asks the user and what it logs is left out. -/
def processPWCommand (argument : Text) : ManagementThread :=
  if ("Auth-Token:" : Text) <+: argument then t
  else
    match quotedPart argument with
    | none => t
    | some needed =>
        if ("Verification Failed" : Text) <+: argument then t
        else
          let (username, pw, passwordCache) := t.credentials needed
          let t := { t with passwordCache := passwordCache }
          match pw with
          | none => t
          | some pw =>
              let t := match username with
                | none => t
                | some username =>
                    t.managmentCommand (credentialCommand "username" needed username)
              t.managmentCommand (credentialCommand "password" needed pw)

/-! ### Confirmations -/

/-- What is done before a confirmation. -/
inductive NeedAction where
  | protectfd
  | calls (calls : List ConfigCall)
  | persistTunAction
  | opentun
  /-- without an answer -/
  | unknown

/-- The `switch` of `processNeedCommand`. -/
def needAction (needed extra : Text) : Java NeedAction :=
  let parts := split (· == ' ') extra
  if needed = ("PROTECTFD" : Text) then return .protectfd
  else if needed = ("DNSSERVER" : Text) ∨ needed = ("DNS6SERVER" : Text) then
    return .calls [.addDNS extra]
  else if needed = ("DNSDOMAIN" : Text) then return .calls [.setDomain (some extra)]
  else if needed = ("ROUTE" : Text) then
    match parts with
    | [dest, mask, gateway, _, device] => return .calls [.addRoute dest mask gateway (some device)]
    | dest :: mask :: gateway :: _ => return .calls [.addRoute dest mask gateway none]
    -- only logged
    | _ => return .calls []
  else if needed = ("ROUTE6" : Text) then do
    let network ← vectorGet parts 0
    let device ← vectorGet parts 1
    let host ← vectorGet (split (· == '/') network) 0
    return .calls [.addRoutev6 network (some device) (env.getAllByName host)]
  else if needed = ("IFCONFIG" : Text) then do
    let mtu ← CIDRIP.part parseInt parts 2
    let localIP ← vectorGet parts 0
    let netmask ← vectorGet parts 1
    let mode ← vectorGet parts 3
    return .calls [.setLocalIP localIP netmask mtu mode]
  else if needed = ("IFCONFIG6" : Text) then do
    let mtu ← CIDRIP.part parseInt parts 1
    let ipv6addr ← vectorGet parts 0
    return .calls [.setMtu mtu, .setLocalIPv6 (some ipv6addr)]
  else if needed = ("PERSIST_TUN_ACTION" : Text) then return .persistTunAction
  else if needed = ("OPENTUN" : Text) then return .opentun
  else if needed = ("HTTPPROXY" : Text) then
    match parts with
    | [proxy, _] => do
        let port ← CIDRIP.part parseInt parts 1
        return .calls [.addHttpProxy proxy port (env.buildDirectProxy proxy port)]
    | _ => return .calls []
  else return .unknown

/-- A method of the service; it may throw. -/
def serviceCall (code : Collecting.Code Unit) : Java Unit × ManagementThread :=
  let r := code.run.run t.service.toCollecting
  (r.1, { t with service := { t.service with toCollecting := r.2 } })

/-- The calls up to the first that throws. -/
def serviceCalls : List ConfigCall → ManagementThread → Java Unit × ManagementThread
  | [], t => (.ok (), t)
  | c :: calls, t =>
      match t.serviceCall c.code with
      | (.ok (), t) => serviceCalls calls t
      | (.error stop, t) => (.error stop, t)

/-- `String.format("needok '%s' %s\n", needed, status)` -/
def needokCommand (needed status : Text) : Text :=
  ("needok '" : Text) ++ needed ++ ("' " : Text) ++ status ++ ['\n']

/-- `sendTunFD`: the status, if there is no exception. -/
def sendTunFD (extra : Text) : Java Text × ManagementThread :=
  if extra = ("tun" : Text) then
    let opened := (Collecting.openTun env.openEnvironment).run.run t.service.toCollecting
    let t := { t with service := t.service.openTun env.openEnvironment }
    (opened.1.map fun descriptor => if descriptor then "ok" else "cancel", t)
  else (.ok "cancel", t)

def perform (needed extra : Text) : NeedAction → Java Unit × ManagementThread
  | .protectfd =>
      let t := { t with
        mFDList := t.mFDList.tail, protectedFds := t.protectedFds ++ [t.mFDList.head?] }
      (.ok (), t.managmentCommand (needokCommand needed "ok"))
  | .calls calls =>
      match serviceCalls calls t with
      | (.ok (), t) => (.ok (), t.managmentCommand (needokCommand needed "ok"))
      | (.error stop, t) => (.error stop, t)
  | .persistTunAction =>
      (.ok (), t.managmentCommand (needokCommand needed t.service.getTunReopenStatus))
  | .opentun =>
      match t.sendTunFD env extra with
      | (.ok status, t) => (.ok (), t.managmentCommand (needokCommand needed status))
      | (.error stop, t) => (.error stop, t)
  | .unknown => (.ok (), t)

/-- `processNeedCommand` -/
def processNeedCommand (argument : Text) : Java Unit × ManagementThread :=
  match quotedPart argument, (split2 (· == ':') argument).2 with
  | none, _ => (throwJava .stringIndexOutOfBounds, t)
  | _, none => (throwJava .arrayIndexOutOfBounds, t)
  | some needed, some extra =>
      match needAction env needed extra with
      | .error stop => (.error stop, t)
      | .ok action => t.perform env needed extra action

/-! ### Signatures -/

/-- `processSignCommand`; `stopOpenVPN` without a signature is left out. -/
def processSignCommand (argument : Text) : Java Unit × ManagementThread :=
  match split (· == ',') argument with
  | [] => (throwJava .arrayIndexOutOfBounds, t)
  | data :: arguments =>
      let t := t.managmentCommand "pk-sig\n"
      match env.getSignedData data arguments with
      | none => (.ok (), t.managmentCommand "\nEND\n")
      | some signed_string =>
          (.ok (), (t.managmentCommand signed_string).managmentCommand "\nEND\n")

/-! ### Lines from OpenVPN -/

/-- `processCommand`, for the questions; nothing else is answered on the socket. -/
def processCommand (command : Text) : Java Unit × ManagementThread :=
  match (">" : Text).isPrefixOf command, split2 (· == ':') command with
  | true, (cmd, some argument) =>
      if cmd.tail = ("PASSWORD" : Text) then (.ok (), t.processPWCommand argument)
      else if cmd.tail = ("NEED-OK" : Text) then t.processNeedCommand env argument
      else if cmd.tail = ("PK_SIGN" : Text) then t.processSignCommand env argument
      else (.ok (), t)
  | _, _ => (.ok (), t)

/-- The lines one after another; an exception ends the thread. -/
def processCommands : List Text → ManagementThread → Java Unit × ManagementThread
  | [], t => (.ok (), t)
  | command :: commands, t =>
      match t.processCommand env command with
      | (.ok (), t) => processCommands commands t
      | (.error stop, t) => (.error stop, t)

end ManagementThread

end OpenVpnAndroid
