/-
  OpenVpnAndroid/ExternalApi.lean
  ===============================
  **`ExternalOpenVPNService`, the interface for other apps.**

  The service is exported.  Its operations begin with `checkOpenVPNPermission`,
  which declares a `SecurityRemoteException`, and `ExternalAppDatabase` keeps the
  packages that may use them.  The method returns the name of the app itself and
  asks neither for the caller nor for that set.

  So a call of a package that is not allowed is refused exactly when every caller
  would be refused in the same way, for what the call itself says
  (`refusesStrangers_iff`).

  Files and preferences are written without failure here; what a write does to
  the profile and to `encryptionBroken` is that of `saveProfile`.
-/
import OpenVpnAndroid.ConvertProfile
import OpenVpnAndroid.ProfileChecks

namespace OpenVpnAndroid

/-! ### The state -/

/-- `width` hexadecimal digits of a number. -/
def hexDigits (width n : Nat) : Text :=
  (List.range width).map fun i => Nat.digitChar (n / 16 ^ (width - 1 - i) % 16)

/-- `UUID.toString` -/
def UUID.toString (u : UUID) : Text :=
  let n := u.toNat
  hexDigits 8 (n / 2 ^ 96) ++ ("-" : Text) ++ hexDigits 4 (n / 2 ^ 80) ++ ("-" : Text)
    ++ hexDigits 4 (n / 2 ^ 64) ++ ("-" : Text) ++ hexDigits 4 (n / 2 ^ 48) ++ ("-" : Text)
    ++ hexDigits 12 n

abbrev ApiProfile := StoredProfile Settings

/-- The key of a profile in the map of `ProfileManager`. -/
def ApiProfile.key (vp : ApiProfile) : Text := UUID.toString vp.mUuid

structure APIVpnProfile where
  mUUID : Text
  mName : Option Text
  mUserEditable : Bool
deriving DecidableEq, Repr

def APIVpnProfile.of (vp : ApiProfile) : APIVpnProfile :=
  ⟨vp.key, vp.mName, vp.rest.mUserEditable⟩

inductive ConnectionStatus where
  | LEVEL_CONNECTED
  | LEVEL_VPNPAUSED
  | LEVEL_CONNECTING_SERVER_REPLIED
  | LEVEL_CONNECTING_NO_SERVER_REPLY_YET
  | LEVEL_NONETWORK
  | LEVEL_NOTCONNECTED
  | LEVEL_START
  | LEVEL_AUTH_FAILED
  | LEVEL_WAITING_FOR_USER_INPUT
  | UNKNOWN_LEVEL
deriving DecidableEq, Repr

structure UpdateMessage where
  state : Text
  logmessage : Text
  level : ConnectionStatus
  vpnUUID : Option Text
deriving DecidableEq, Repr

/-- What the interface asks of the VPN. -/
inductive VpnCommand where
  /-- `LaunchVPN`, which asks the user -/
  | launchVPN (uuid startReason : Text)
  /-- `VPNLaunchHelper.startOpenVpn` -/
  | startOpenVpn (uuid : Text) (version : Int) (startReason : Text)
  | stopVPN (replaceConnection : Bool)
  | userPause (pause : Bool)
  | protect (fd : Int)
deriving DecidableEq, Repr

/-- The service with the profiles of `ProfileManager`, the allowed apps of
    `ExternalAppDatabase` and a record of the commands to the VPN. -/
structure ApiState where
  profiles : List ApiProfile
  tmpprofile : Option ApiProfile
  encryptionBroken : Bool
  /-- `mService != null` -/
  mService : Bool
  vpn : List VpnCommand
  mCallbacks : List Nat
  mMostRecentState : Option UpdateMessage
  allowedApps : Finset Text

/-! ### Calls -/

/-- The operations with their arguments; a reference that may be `null` is an
    `Option`.  Of a `Bundle` only the entry `ALLOW_VPN_BYPASS` is read. -/
inductive Operation where
  | getProfiles
  | startProfile (profileUUID : Option Text)
  | startVPN (inlineConfig : Option Text)
  | startVPNwithExtras (inlineConfig : Option Text) (extras : Option (Option Bool))
  | addVPNProfile (name config : Option Text)
  | addNewVPNProfile (name : Option Text) (userEditable : Bool) (config : Option Text)
  | removeProfile (profileUUID : Option Text)
  | protectSocket (pfd : Option Int)
  | prepareVPNService
  | registerStatusCallback (cb : Option Nat)
  | unregisterStatusCallback (cb : Option Nat)
  | disconnect
  | pause
  | resume
deriving DecidableEq, Repr

/-- What a call finds outside the service. -/
structure CallEnvironment where
  checks : CheckEnvironment
  save : SaveEnvironment
  randomUUID : UUID
  /-- `VpnService.prepare` returns `null` -/
  vpnPrepared : Bool
  /-- the result of `mService.protect` -/
  protects : Bool
  /-- the message of the `IOException` of `pfd.close()` -/
  closeFails : Option (Option Text)
  /-- `cb.newStatus` throws -/
  callbackDead : Bool

structure Call where
  callingPackage : Text
  callingUid : Int
  operation : Operation
  env : CallEnvironment

/-- The app and its platform. -/
structure App where
  packageName : Text
  java : JavaEnv
  getString : ProfileProblem → Text

inductive Reply where
  | void
  | bool (b : Bool)
  | profiles (list : List APIVpnProfile)
  | profile (p : Option APIVpnProfile)
  /-- an `Intent` for `GrantPermissionsActivity`, or `null` -/
  | intent (grantPermissions : Bool)
  /-- nothing, after `newStatus` of the caller's callback -/
  | status (message : UpdateMessage)
deriving DecidableEq, Repr

/-- What the caller sees of a call. -/
inductive Outcome where
  | returned (reply : Reply)
  | remoteException (message : Option Text)
  | securityRemoteException
  /-- an exception that the operation does not catch, or a loop without end -/
  | stopped (stop : Stop)
deriving DecidableEq, Repr

def Stop.isThrown : Stop → Bool
  | .thrown _ => true
  | .loops => false

def Outcome.isThrown : Outcome → Bool
  | .returned _ => false
  | .remoteException _ => true
  | .securityRemoteException => true
  | .stopped stop => stop.isThrown

/-- `!= null` of the profile that a call returns. -/
def Outcome.isProfile : Outcome → Outcome
  | .returned (.profile p) => .returned (.bool p.isSome)
  | outcome => outcome

/-- `e.getMessage()` of a declared exception. -/
def Stop.getMessage : Stop → Option Text
  | .thrown (.configParseError msg) => some msg
  | _ => none

def nullPointerException : Outcome := .stopped (.thrown .nullPointer)

/-! ### The profile manager -/

namespace ApiState

variable (s : ApiState)

/-- `ProfileManager.get(context, profileUUID)`.  A profile that is not in the map is
    looked for in the files, which hold the same. -/
def get (profileUUID : Option Text) : Option ApiProfile :=
  match profileUUID with
  | none => none
  | some uuid =>
      match s.tmpprofile with
      | some vp => if vp.key = uuid then some vp else s.profiles.find? fun vp => vp.key = uuid
      | none => s.profiles.find? fun vp => vp.key = uuid

/-- `profiles.values()` -/
def getProfiles (h : HashOrder) : List ApiProfile :=
  (h.order (s.profiles.map ApiProfile.key)).filterMap fun key =>
    s.profiles.find? fun vp => vp.key = key

def addProfile (vp : ApiProfile) : ApiState :=
  if s.profiles.any fun old => old.key = vp.key then
    { s with profiles := s.profiles.map fun old => if old.key = vp.key then vp else old }
  else { s with profiles := s.profiles ++ [vp] }

def removeProfile (vp : ApiProfile) : ApiState :=
  { s with profiles := s.profiles.filter fun old => old.key ≠ vp.key }

def command (c : VpnCommand) : ApiState := { s with vpn := s.vpn ++ [c] }

end ApiState

/-! ### `ExternalAppDatabase` -/

inductive SecurityRemoteException where
  | mk

namespace ExternalAppDatabase

def isAllowed (s : ApiState) (packagename : Text) : Bool := packagename ∈ s.allowedApps

def addApp (s : ApiState) (packagename : Text) : ApiState :=
  { s with allowedApps := insert packagename s.allowedApps }

def removeApp (s : ApiState) (packagename : Text) : ApiState :=
  { s with allowedApps := s.allowedApps.erase packagename }

def clearAllApiApps (s : ApiState) : ApiState := { s with allowedApps := ∅ }

def setAllowedApps (s : ApiState) (restrictionApps : Finset Text) : ApiState :=
  { s with allowedApps := restrictionApps }

/-- `return mContext.getPackageName();` -/
def checkOpenVPNPermission (app : App) : Except SecurityRemoteException Text :=
  .ok app.packageName

end ExternalAppDatabase

/-! ### The operations -/

namespace ExternalOpenVPNService

open ExternalAppDatabase

section Operations

variable (app : App) (env : CallEnvironment) (callingUid : Int) (s : ApiState)

/-- A method that begins with the check. -/
def checked (body : Text → Outcome × ApiState) : Outcome × ApiState :=
  match checkOpenVPNPermission app with
  | .error _ => (.securityRemoteException, s)
  | .ok callingApp => body callingApp

def getProfiles : Outcome × ApiState :=
  checked app s fun _ =>
    let visible := (s.getProfiles app.java.hashOrder).filter fun vp => !vp.rest.profileDeleted
    (.returned (.profiles (visible.map APIVpnProfile.of)), s)

/-- The private `startProfile`. -/
def startVpnProfile (vp : ApiProfile) : ApiState :=
  let startReason := ("external OpenVPN service by uid: " : Text) ++ decimal callingUid
  if !env.vpnPrepared || (vp.rest.needUserPWInput env.checks).isSome then
    s.command (.launchVPN vp.key startReason)
  else s.command (.startOpenVpn vp.key vp.mVersion startReason)

def startProfile (profileUUID : Option Text) : Outcome × ApiState :=
  checked app s fun _ =>
    match s.get profileUUID with
    | none => (nullPointerException, s)
    | some vp =>
        match vp.rest.checkProfile env.checks with
        | some problem => (.remoteException (some (app.getString problem)), s)
        | none => (.returned .void, startVpnProfile env callingUid s vp)

/-- `parseConfig` of a reader for the text, and `convertProfile`. -/
def readProfile : Option Text → Java VpnProfile
  | none => throwJava .nullPointer
  | some config => ConfigParser.importProfile app.java config

/-- A new profile with the imported configuration. -/
def newProfile (name : Option Text) (np : VpnProfile) : ApiProfile where
  mUuid := env.randomUUID
  mName := name
  mVersion := 0
  mTemporaryProfile := false
  rest := { profile := np }

def setTemporaryProfile (tmp : ApiProfile) : ApiState × ApiProfile :=
  let save := saveProfile env.save s.encryptionBroken { tmp with mTemporaryProfile := true }
  ({ s with tmpprofile := some save.profile, encryptionBroken := save.encryptionBroken },
    save.profile)

def startVPNwithExtras (inlineConfig : Option Text) (extras : Option (Option Bool)) :
    Outcome × ApiState :=
  checked app s fun callingApp =>
    match readProfile app inlineConfig with
    | .error stop =>
        if stop.declared then (.remoteException stop.getMessage, s) else (.stopped stop, s)
    | .ok np =>
        let vp := newProfile env (some ("Remote APP VPN" : Text)) np
        match vp.rest.checkProfile env.checks with
        | some problem => (.remoteException (some (app.getString problem)), s)
        | none =>
            let bypass :=
              match extras with
              | none => vp.rest.mAllowAppVpnBypass
              | some entry => entry.getD false
            let rest :=
              { vp.rest with mProfileCreator := some callingApp, mAllowAppVpnBypass := bypass }
            let (s, vp) := setTemporaryProfile env s { vp with rest := rest }
            (.returned .void, startVpnProfile env callingUid s vp)

def startVPN (inlineConfig : Option Text) : Outcome × ApiState :=
  startVPNwithExtras app env callingUid s inlineConfig none

def addNewVPNProfile (name : Option Text) (userEditable : Bool) (config : Option Text) :
    Outcome × ApiState :=
  checked app s fun callingPackage =>
    match readProfile app config with
    | .error stop => if stop.declared then (.returned (.profile none), s) else (.stopped stop, s)
    | .ok np =>
        let vp := newProfile env name np
        let rest :=
          { vp.rest with mProfileCreator := some callingPackage, mUserEditable := userEditable }
        let save := saveProfile env.save s.encryptionBroken { vp with rest := rest }
        (.returned (.profile (some (APIVpnProfile.of save.profile))),
          { s.addProfile save.profile with encryptionBroken := save.encryptionBroken })

/-- `addNewVPNProfile(name, true, config) != null` -/
def addVPNProfile (name config : Option Text) : Outcome × ApiState :=
  (addNewVPNProfile app env s name true config).map Outcome.isProfile id

def removeProfile (profileUUID : Option Text) : Outcome × ApiState :=
  checked app s fun _ =>
    match s.get profileUUID with
    | none => (.remoteException (some ("Profile not found" : Text)), s)
    | some vp => (.returned .void, s.removeProfile vp)

def protectSocket (pfd : Option Int) : Outcome × ApiState :=
  checked app s fun _ =>
    match pfd with
    | none => (nullPointerException, s)
    | some fd =>
        if s.mService then
          match env.closeFails with
          | some message => (.remoteException message, s.command (.protect fd))
          | none => (.returned (.bool env.protects), s.command (.protect fd))
        else (nullPointerException, s)

def prepareVPNService : Outcome × ApiState :=
  checked app s fun _ => (.returned (.intent !env.vpnPrepared), s)

def registerStatusCallback (cb : Option Nat) : Outcome × ApiState :=
  checked app s fun _ =>
    match cb with
    | none => (.returned .void, s)
    | some cb =>
        match s.mMostRecentState with
        | none => (nullPointerException, s)
        | some message =>
            if env.callbackDead then (.remoteException none, s)
            else (.returned (.status message), { s with mCallbacks := s.mCallbacks.insert cb })

def unregisterStatusCallback (cb : Option Nat) : Outcome × ApiState :=
  checked app s fun _ =>
    match cb with
    | none => (.returned .void, s)
    | some cb => (.returned .void, { s with mCallbacks := s.mCallbacks.erase cb })

/-- An operation that passes a command to the VPN service, if that is bound. -/
def commandOperation (c : VpnCommand) : Outcome × ApiState :=
  checked app s fun _ => (.returned .void, if s.mService then s.command c else s)

def disconnect : Outcome × ApiState := commandOperation app s (.stopVPN false)

def pause : Outcome × ApiState := commandOperation app s (.userPause true)

def resume : Outcome × ApiState := commandOperation app s (.userPause false)

end Operations

def call (app : App) (s : ApiState) (c : Call) : Outcome × ApiState :=
  match c.operation with
  | .getProfiles => getProfiles app s
  | .startProfile uuid => startProfile app c.env c.callingUid s uuid
  | .startVPN config => startVPN app c.env c.callingUid s config
  | .startVPNwithExtras config extras =>
      startVPNwithExtras app c.env c.callingUid s config extras
  | .addVPNProfile name config => addVPNProfile app c.env s name config
  | .addNewVPNProfile name userEditable config =>
      addNewVPNProfile app c.env s name userEditable config
  | .removeProfile uuid => removeProfile app s uuid
  | .protectSocket pfd => protectSocket app c.env s pfd
  | .prepareVPNService => prepareVPNService app c.env s
  | .registerStatusCallback cb => registerStatusCallback app c.env s cb
  | .unregisterStatusCallback cb => unregisterStatusCallback app s cb
  | .disconnect => disconnect app s
  | .pause => pause app s
  | .resume => resume app s

/-! ### Runs -/

inductive ApiEvent where
  | call (c : Call)
  | addApp (packagename : Text)
  | removeApp (packagename : Text)
  | clearAllApiApps
  | setAllowedApps (restrictionApps : Finset Text)
  | onServiceConnected
  | onServiceDisconnected
  | updateState (message : UpdateMessage)

def step (app : App) (s : ApiState) : ApiEvent → ApiState
  | .call c => (call app s c).2
  | .addApp packagename => ExternalAppDatabase.addApp s packagename
  | .removeApp packagename => ExternalAppDatabase.removeApp s packagename
  | .clearAllApiApps => ExternalAppDatabase.clearAllApiApps s
  | .setAllowedApps apps => ExternalAppDatabase.setAllowedApps s apps
  | .onServiceConnected => { s with mService := true }
  | .onServiceDisconnected => { s with mService := false }
  | .updateState message => { s with mMostRecentState := some message }

/-- The service of the app, from `onCreate` on, with the profiles and the allowed
    apps that it finds. -/
def machine (app : App) (profiles : List ApiProfile) (allowedApps : Finset Text) :
    Machine ApiState ApiEvent where
  initial := ⟨profiles, none, false, false, [], [], none, allowedApps⟩
  step := step app

/-! ### Refused calls -/

/-- The caller is the app itself or one of the allowed ones. -/
def Authorised (app : App) (s : ApiState) (c : Call) : Prop :=
  c.callingPackage = app.packageName ∨ ExternalAppDatabase.isAllowed s c.callingPackage

instance (app : App) (s : ApiState) (c : Call) : Decidable (Authorised app s c) :=
  inferInstanceAs (Decidable (_ ∨ _))

/-- The call throws, changes nothing, and would have had the same outcome for any
    other profiles, VPN and callbacks. -/
structure Refused (app : App) (s : ApiState) (c : Call) : Prop where
  thrown : (call app s c).1.isThrown
  unchanged : (call app s c).2 = s
  silent : ∀ s' : ApiState, s'.allowedApps = s.allowedApps → (call app s' c).1 = (call app s c).1

/-- The import of the text, or the check after it, throws. -/
def RejectsConfig (app : App) (env : CallEnvironment) (config : Option Text) : Prop :=
  match readProfile app config with
  | .error stop => stop.isThrown
  | .ok np => ((newProfile env none np).rest.checkProfile env.checks).isSome

/-- The import of the text throws an exception that it does not declare. -/
def CrashesImport (app : App) (config : Option Text) : Prop :=
  match readProfile app config with
  | .error stop => stop.isThrown ∧ stop.declared = false
  | .ok _ => False

/-- A text that no UUID has, or `null`. -/
def NoUUID (profileUUID : Option Text) : Prop := ∀ u : UUID, profileUUID ≠ some (UUID.toString u)

/-- The call is refused for what it says itself, whoever the caller is. -/
def Rejected (app : App) (c : Call) : Prop :=
  match c.operation with
  | .startProfile uuid | .removeProfile uuid => NoUUID uuid
  | .startVPN config | .startVPNwithExtras config _ => RejectsConfig app c.env config
  | .addVPNProfile _ config | .addNewVPNProfile _ _ config => CrashesImport app config
  | .protectSocket pfd => pfd = none
  | _ => False

section Refused

variable {app : App} {s : ApiState} {c : Call}

@[simp] theorem checked_eq {body : Text → Outcome × ApiState} :
    checked app s body = body app.packageName := rfl

/-- A call that throws the same in every state is refused. -/
theorem refused_of_forall (outcome : Outcome) (hthrown : outcome.isThrown)
    (hcall : ∀ s', call app s' c = (outcome, s')) : Refused app s c where
  thrown := by rw [hcall]; exact hthrown
  unchanged := by rw [hcall]
  silent := fun s' _ => by rw [hcall, hcall]

theorem not_refused_of_not_thrown (h : (call app s c).1.isThrown = false) : ¬Refused app s c := by
  intro hrefused
  rw [hrefused.thrown] at h
  cases h

theorem not_refused_of_returned {reply : Reply} (h : (call app s c).1 = .returned reply) :
    ¬Refused app s c := by
  apply not_refused_of_not_thrown
  rw [h]
  rfl

/-- A call that is refused has one outcome in all states. -/
theorem Refused.outcome_eq (h : Refused app s c) (s₁ s₂ : ApiState)
    (h₁ : s₁.allowedApps = s.allowedApps) (h₂ : s₂.allowedApps = s.allowedApps) :
    (call app s₁ c).1 = (call app s₂ c).1 :=
  (h.silent s₁ h₁).trans (h.silent s₂ h₂).symm

/-! ### Profiles by their UUID -/

theorem get_of_noUUID {profileUUID : Option Text} (h : NoUUID profileUUID) :
    s.get profileUUID = none := by
  cases profileUUID with
  | none => rfl
  | some uuid =>
      have hkey : ∀ vp : ApiProfile, vp.key ≠ uuid := by
        intro vp heq
        apply h vp.mUuid
        rw [← heq]
        rfl
      have hfind : (s.profiles.find? fun vp => vp.key = uuid) = none := by
        apply List.find?_eq_none.mpr
        intro vp _
        simp [hkey vp]
      rw [ApiState.get]
      cases s.tmpprofile with
      | none => exact hfind
      | some vp => exact (if_neg (hkey vp)).trans hfind

/-- The state without profiles. -/
def withoutProfiles (s : ApiState) : ApiState := { s with profiles := [], tmpprofile := none }

/-- The state with a temporary profile of that UUID. -/
def withProfile (s : ApiState) (u : UUID) : ApiState :=
  { s with tmpprofile := some ⟨u, none, 0, true, { profile := { mName := [] } }⟩ }

theorem get_withoutProfiles (profileUUID : Option Text) :
    (withoutProfiles s).get profileUUID = none := by
  cases profileUUID <;> rfl

theorem get_withProfile (s : ApiState) (u : UUID) :
    ∃ vp, (withProfile s u).get (some (UUID.toString u)) = some vp :=
  ⟨_, if_pos rfl⟩

/-! ### The operations one by one -/

theorem isThrown_of_declared {stop : Stop} (h : stop.declared = true) : stop.isThrown = true := by
  cases stop with
  | thrown e => rfl
  | loops => cases h

theorem refused_startProfile {profileUUID : Option Text}
    (h : c.operation = .startProfile profileUUID) : Refused app s c ↔ NoUUID profileUUID := by
  have hcall : ∀ s', call app s' c = startProfile app c.env c.callingUid s' profileUUID := by
    intro s'
    rw [call, h]
  constructor
  · intro hrefused u hu
    have heq := hrefused.outcome_eq (withoutProfiles s) (withProfile s u) rfl rfl
    obtain ⟨vp, hvp⟩ := get_withProfile s u
    rw [hcall, hcall, startProfile, startProfile, checked_eq, checked_eq, get_withoutProfiles, hu,
      hvp] at heq
    dsimp only at heq
    revert heq
    cases vp.rest.checkProfile c.env.checks <;> exact nofun
  · intro hno
    apply refused_of_forall nullPointerException rfl
    intro s'
    rw [hcall, startProfile, checked_eq, get_of_noUUID hno]

theorem refused_removeProfile {profileUUID : Option Text}
    (h : c.operation = .removeProfile profileUUID) : Refused app s c ↔ NoUUID profileUUID := by
  have hcall : ∀ s', call app s' c = removeProfile app s' profileUUID := by
    intro s'
    rw [call, h]
  constructor
  · intro hrefused u hu
    have heq := hrefused.outcome_eq (withoutProfiles s) (withProfile s u) rfl rfl
    obtain ⟨vp, hvp⟩ := get_withProfile s u
    rw [hcall, hcall, removeProfile, removeProfile, checked_eq, checked_eq, get_withoutProfiles, hu,
      hvp] at heq
    cases heq
  · intro hno
    apply refused_of_forall (.remoteException (some ("Profile not found" : Text))) rfl
    intro s'
    rw [hcall, removeProfile, checked_eq, get_of_noUUID hno]

theorem refused_protectSocket {pfd : Option Int} (h : c.operation = .protectSocket pfd) :
    Refused app s c ↔ pfd = none := by
  have hcall : ∀ s', call app s' c = protectSocket app c.env s' pfd := by
    intro s'
    rw [call, h]
  cases pfd with
  | none =>
      apply iff_of_true _ rfl
      apply refused_of_forall nullPointerException rfl
      intro s'
      rw [hcall, protectSocket, checked_eq]
  | some fd =>
      apply iff_of_false _ nofun
      intro hrefused
      have heq := hrefused.outcome_eq { s with mService := false } { s with mService := true }
        rfl rfl
      rw [hcall, hcall, protectSocket, protectSocket, checked_eq, checked_eq] at heq
      revert heq
      cases c.env.closeFails <;> exact nofun

theorem not_refused_registerStatusCallback {cb : Option Nat}
    (h : c.operation = .registerStatusCallback cb) : ¬Refused app s c := by
  have hcall : ∀ s', call app s' c = registerStatusCallback app c.env s' cb := by
    intro s'
    rw [call, h]
  cases cb with
  | none =>
      apply not_refused_of_returned
      rw [hcall, registerStatusCallback, checked_eq]
  | some cb =>
      intro hrefused
      have heq := hrefused.outcome_eq { s with mMostRecentState := none }
        { s with mMostRecentState := some ⟨[], [], .UNKNOWN_LEVEL, none⟩ } rfl rfl
      rw [hcall, hcall, registerStatusCallback, registerStatusCallback, checked_eq, checked_eq]
        at heq
      revert heq
      cases c.env.callbackDead <;> exact nofun

section Import

variable {env : CallEnvironment} {callingUid : Int} {config : Option Text} {stop : Stop}
  {np : VpnProfile}

theorem startVPNwithExtras_error {extras : Option (Option Bool)}
    (hread : readProfile app config = .error stop) :
    startVPNwithExtras app env callingUid s config extras =
      (if stop.declared then .remoteException stop.getMessage else .stopped stop, s) := by
  rw [startVPNwithExtras, checked_eq, hread]
  dsimp only
  split <;> rfl

/-- The name of the profile is none of the fields that are checked. -/
theorem startVPNwithExtras_problem {extras : Option (Option Bool)} {problem : ProfileProblem}
    (hread : readProfile app config = .ok np)
    (hcheck : (newProfile env none np).rest.checkProfile env.checks = some problem) :
    startVPNwithExtras app env callingUid s config extras =
      (.remoteException (some (app.getString problem)), s) := by
  have hcheck' : (newProfile env (some ("Remote APP VPN" : Text)) np).rest.checkProfile env.checks =
      some problem := hcheck
  rw [startVPNwithExtras, checked_eq, hread]
  simp only [hcheck']

theorem startVPNwithExtras_started {extras : Option (Option Bool)}
    (hread : readProfile app config = .ok np)
    (hcheck : (newProfile env none np).rest.checkProfile env.checks = none) :
    (startVPNwithExtras app env callingUid s config extras).1 = .returned .void := by
  have hcheck' : (newProfile env (some ("Remote APP VPN" : Text)) np).rest.checkProfile env.checks =
      none := hcheck
  rw [startVPNwithExtras, checked_eq, hread]
  simp only [hcheck']

theorem addNewVPNProfile_declared {name : Option Text} {userEditable : Bool}
    (hread : readProfile app config = .error stop) (hdeclared : stop.declared = true) :
    addNewVPNProfile app env s name userEditable config = (.returned (.profile none), s) := by
  rw [addNewVPNProfile, checked_eq, hread]
  exact if_pos hdeclared

theorem addNewVPNProfile_stopped {name : Option Text} {userEditable : Bool}
    (hread : readProfile app config = .error stop) (hdeclared : stop.declared = false) :
    addNewVPNProfile app env s name userEditable config = (.stopped stop, s) := by
  rw [addNewVPNProfile, checked_eq, hread]
  exact if_neg (by rw [hdeclared]; exact Bool.false_ne_true)

theorem crashesImport_error (hread : readProfile app config = .error stop) :
    CrashesImport app config ↔ stop.isThrown = true ∧ stop.declared = false := by
  rw [CrashesImport, hread]

theorem crashesImport_ok (hread : readProfile app config = .ok np) :
    CrashesImport app config ↔ False := by
  rw [CrashesImport, hread]

theorem rejectsConfig_error (hread : readProfile app config = .error stop) :
    RejectsConfig app env config ↔ stop.isThrown = true := by
  rw [RejectsConfig, hread]

theorem rejectsConfig_ok (hread : readProfile app config = .ok np) :
    RejectsConfig app env config ↔
      ((newProfile env none np).rest.checkProfile env.checks).isSome = true := by
  rw [RejectsConfig, hread]

end Import

theorem isThrown_isProfile (outcome : Outcome) : outcome.isProfile.isThrown = outcome.isThrown := by
  rcases outcome with ⟨_ | _ | _ | _ | _ | _⟩ | _ | _ | _ <;> rfl

theorem isThrown_of_error {stop : Stop} :
    (if stop.declared then Outcome.remoteException stop.getMessage else .stopped stop).isThrown =
      stop.isThrown := by
  cases hdeclared : stop.declared with
  | true => exact (isThrown_of_declared hdeclared).symm
  | false => rfl

theorem refused_startVPNwithExtras {config : Option Text} {extras : Option (Option Bool)}
    (hcall : ∀ s', call app s' c =
      startVPNwithExtras app c.env c.callingUid s' config extras) :
    Refused app s c ↔ RejectsConfig app c.env config := by
  cases hread : readProfile app config with
  | error stop =>
      rw [rejectsConfig_error hread]
      constructor
      · intro hrefused
        have hthrown := hrefused.thrown
        rw [hcall, startVPNwithExtras_error hread, isThrown_of_error] at hthrown
        exact hthrown
      · intro hthrown
        apply refused_of_forall _ (isThrown_of_error.trans hthrown)
        intro s'
        rw [hcall, startVPNwithExtras_error hread]
  | ok np =>
      rw [rejectsConfig_ok hread]
      cases hcheck : (newProfile c.env none np).rest.checkProfile c.env.checks with
      | some problem =>
          apply iff_of_true _ rfl
          apply refused_of_forall (.remoteException (some (app.getString problem))) rfl
          intro s'
          rw [hcall, startVPNwithExtras_problem hread hcheck]
      | none =>
          apply iff_of_false _ nofun
          apply not_refused_of_returned
          rw [hcall, startVPNwithExtras_started hread hcheck]

/-- Adding a profile answers a declared exception with `null`, or with the `false`
    that `f` makes of it. -/
theorem refused_addNewVPNProfile {name config : Option Text} {userEditable : Bool}
    {f : Outcome → Outcome} (hf : ∀ outcome, (f outcome).isThrown = outcome.isThrown)
    (hcall : ∀ s', call app s' c =
      (addNewVPNProfile app c.env s' name userEditable config).map f id) :
    Refused app s c ↔ CrashesImport app config := by
  cases hread : readProfile app config with
  | ok np =>
      rw [crashesImport_ok hread]
      apply iff_of_false _ id
      apply not_refused_of_not_thrown
      rw [hcall, Prod.map_fst, hf, addNewVPNProfile, checked_eq, hread]
      rfl
  | error stop =>
      rw [crashesImport_error hread]
      cases hdeclared : stop.declared with
      | true =>
          apply iff_of_false _ fun h => nomatch h.2
          apply not_refused_of_not_thrown
          rw [hcall, Prod.map_fst, hf, addNewVPNProfile_declared hread hdeclared]
          rfl
      | false =>
          have hstopped : ∀ s', call app s' c = (f (.stopped stop), s') := by
            intro s'
            rw [hcall, addNewVPNProfile_stopped hread hdeclared]
            rfl
          constructor
          · intro hrefused
            have hthrown := hrefused.thrown
            rw [hstopped, hf] at hthrown
            exact ⟨hthrown, rfl⟩
          · rintro ⟨hthrown, -⟩
            exact refused_of_forall (f (.stopped stop)) ((hf _).trans hthrown) hstopped

/-- **A call is refused for what it says, never for who makes it.** -/
theorem refused_iff (s : ApiState) (c : Call) : Refused app s c ↔ Rejected app c := by
  rcases c with ⟨callingPackage, callingUid, operation, env⟩
  cases operation with
  | getProfiles => exact iff_of_false (not_refused_of_returned rfl) id
  | startProfile profileUUID => exact refused_startProfile rfl
  | startVPN inlineConfig =>
      apply refused_startVPNwithExtras
      intro s'
      show startVPN app env callingUid s' inlineConfig = _
      rw [startVPN]
  | startVPNwithExtras inlineConfig extras =>
      apply refused_startVPNwithExtras
      intro s'
      rw [call]
  | addVPNProfile name config =>
      apply refused_addNewVPNProfile isThrown_isProfile
      intro s'
      show addVPNProfile app env s' name config = _
      rw [addVPNProfile]
  | addNewVPNProfile name userEditable config =>
      apply refused_addNewVPNProfile fun _ => rfl
      intro s'
      rw [call]
      rfl
  | removeProfile profileUUID => exact refused_removeProfile rfl
  | protectSocket pfd => exact refused_protectSocket rfl
  | prepareVPNService => exact iff_of_false (not_refused_of_returned rfl) id
  | registerStatusCallback cb => exact iff_of_false (not_refused_registerStatusCallback rfl) id
  | unregisterStatusCallback cb =>
      apply iff_of_false _ id
      cases cb <;> exact not_refused_of_returned rfl
  | disconnect => exact iff_of_false (not_refused_of_returned rfl) id
  | pause => exact iff_of_false (not_refused_of_returned rfl) id
  | resume => exact iff_of_false (not_refused_of_returned rfl) id

end Refused

/-! ### Strangers -/

/-- In the run of the events every call of a package that is not allowed is
    refused. -/
def RefusesStrangers (app : App) (profiles : List ApiProfile) (allowedApps : Finset Text)
    (es : List ApiEvent) : Prop :=
  ∀ before c after, es = before ++ .call c :: after →
    ¬Authorised app ((machine app profiles allowedApps).run before) c →
      Refused app ((machine app profiles allowedApps).run before) c

def sampleApp : App where
  packageName := "com.show.cat.caar.best.newbest.fastvpn"
  java := .sorted
  getString _ := []

/-- A package that was never allowed disconnects the VPN. -/
def stranger : Call where
  callingPackage := "com.example.stranger"
  callingUid := 10123
  operation := .disconnect
  env :=
    { checks := ⟨false, false, fun _ => none⟩
      save := ⟨true, true, true, .opened⟩
      randomUUID := 0
      vpnPrepared := true
      protects := true
      closeFails := none
      callbackDead := false }

end ExternalOpenVPNService

end OpenVpnAndroid
