/-
  OpenVpnAndroid/AppRestrictions.lean
  ===================================
  **`AppRestrictions`, the profiles that a device owner provisions.**

  `parseRestrictionsBundle` imports the profiles of a list, removes the ones it has
  imported before and that are no longer in the list, and sets some preferences.  A
  profile whose hash is that of its configuration is not imported again.

  An exception that the import does not catch, or a loop without end, leaves the app
  as the entries before it have left it.
-/
import OpenVpnAndroid.ConfigHash
import OpenVpnAndroid.ProfileManager

namespace OpenVpnAndroid

namespace AppRestrictions

open ConfigParser (toLowerCase)

def CONFIG_VERSION : Int := 1

/-! ### The bundle -/

/-- The strings in the bundle of a profile. -/
structure ProfileBundle where
  uuid : Option Text
  ovpn : Option Text
  name : Option Text
  certificate_alias : Option Text
deriving DecidableEq, Repr

/-- An element of the list, which should be a bundle. -/
inductive Parcelable where
  | bundle (p : ProfileBundle)
  | other
deriving DecidableEq, Repr

/-- The bundle with the restrictions.  A key that it does not contain is `none`. -/
structure Restrictions where
  version : Option Text
  vpn_configuration_list : Option (List Parcelable)
  defaultprofile : Option Text
  allowed_remote_access : Option Text
  screenoffpausevpn : Option Bool
  restartvpnonboot : Option Bool
deriving DecidableEq, Repr

/-- A profile of the list that has the keys it needs.  The `uuid` is in lower case. -/
structure Entry where
  uuid : Text
  ovpn : Text
  name : Text
  certAlias : Option Text
deriving DecidableEq, Repr

def Parcelable.entry : Parcelable → Option Entry
  | .other => none
  | .bundle p =>
      if isEmptyText p.uuid || isEmptyText p.ovpn || isEmptyText p.name then none
      else
        some ⟨toLowerCase (p.uuid.getD []), p.ovpn.getD [], p.name.getD [], p.certificate_alias⟩

/-- The elements of the list that are not skipped. -/
def entries (profileList : List Parcelable) : List Entry := profileList.filterMap Parcelable.entry

/-! ### `addCertificateAlias` -/

/-- The method with the keystore if there is an alias, and the one without it if there is
    none. -/
def certificateType (certAlias : Text) (mPKCS12Filename : Option Text) :
    AuthenticationType → AuthenticationType
  | .pkcs12 => if certAlias.isEmpty then .pkcs12 else .keystore
  | .certificates => if certAlias.isEmpty then .certificates else .keystore
  | .userpassCertificates =>
      if certAlias.isEmpty then .userpassCertificates else .userpassKeystore
  | .userpassPkcs12 => if certAlias.isEmpty then .userpassPkcs12 else .userpassKeystore
  | .userpassKeystore =>
      if !certAlias.isEmpty then .userpassKeystore
      else if isEmptyText mPKCS12Filename then .userpassCertificates
      else .userpassPkcs12
  | .keystore =>
      if !certAlias.isEmpty then .keystore
      else if isEmptyText mPKCS12Filename then .certificates
      else .pkcs12
  | type => type

/-- The profile with the alias and the type that goes with it. -/
def withAlias (certAlias : Option Text) (vp : ManagedProfile) : ManagedProfile :=
  let certAlias := certAlias.getD []
  let type := certificateType certAlias vp.rest.profile.mPKCS12Filename
    vp.rest.profile.mAuthenticationType
  { vp with
    rest := { vp.rest with
      mAlias := some certAlias
      profile := { vp.rest.profile with mAuthenticationType := type } } }

/-- The alias and the type are those that `addCertificateAlias` sets. -/
def HasAlias (certAlias : Option Text) (vp : ManagedProfile) : Prop :=
  (withAlias certAlias vp).rest.mAlias = vp.rest.mAlias ∧
    (withAlias certAlias vp).rest.profile.mAuthenticationType =
      vp.rest.profile.mAuthenticationType

instance (certAlias : Option Text) (vp : ManagedProfile) : Decidable (HasAlias certAlias vp) :=
  inferInstanceAs (Decidable (_ ∧ _))

/-- The profile is saved if one of the two changes. -/
def addCertificateAlias (device : Device) (s : ProfileManager) (holder : Holder)
    (vpnProfile : ManagedProfile) (certAlias : Option Text) : ProfileManager :=
  if HasAlias certAlias vpnProfile then s
  else
    let (s, saved) := s.saveProfile device (withAlias certAlias vpnProfile)
    s.hold holder saved

/-! ### `addProfile` -/

/-- The exceptions that `addProfile` catches.  A `NumberFormatException` is an
    `IllegalArgumentException`. -/
def caught : Stop → Bool
  | .thrown (.configParseError _) => true
  | .thrown .ioException => true
  | .thrown (.numberFormat _) => true
  | _ => false

/-- The profile before it is saved. -/
def provision (config : Text) (uuid : UUID) (name : Text) (vpnProfile : Option ManagedProfile)
    (np : VpnProfile) : ManagedProfile where
  mUuid := uuid
  mName := some name
  mVersion :=
    match vpnProfile with
    | some old => int (old.mVersion + 1)
    | none => 0
  mTemporaryProfile := false
  rest :=
    { mAlias := vpnProfile.bind fun old => old.rest.mAlias
      mUserEditable := false
      mProfileCreator := some PROFILE_CREATOR
      importedProfileHash := some (hashConfig config)
      profile := np }

/-- The profile that was added, or `null` after an exception that was caught. -/
def addProfile (device : Device) (s : ProfileManager) (config uuid name : Text)
    (vpnProfile : Option ManagedProfile) : Except Stop (Option ManagedProfile) × ProfileManager :=
  let config := prepare config
  match ConfigParser.importProfile device.java config with
  | .error stop => if caught stop then (.ok none, s) else (.error stop, s)
  | .ok np =>
      match UUID.fromString uuid with
      | none => (.ok none, s)
      | some uuid =>
          -- the table holds the object whose version the save changes
          let (s, vp) := s.saveProfile device (provision config uuid name vpnProfile np)
          (.ok (some vp), (s.addProfile vp).saveProfileList)

/-! ### `importVPNProfiles` -/

section Import

variable (device : Device)

/-- A profile that is new or that was modified. -/
def addEntry (s : ProfileManager) (e : Entry) (vpnProfile : Option ManagedProfile) :
    Option Stop × ProfileManager :=
  match addProfile device s e.ovpn e.uuid e.name vpnProfile with
  | (.error stop, s) => (some stop, s)
  | (.ok none, s) => (none, s)
  | (.ok (some vp), s) => (none, addCertificateAlias device s .profiles vp e.certAlias)

/-- An iteration of the loop. -/
def importEntry (s : ProfileManager) (e : Entry) : Option Stop × ProfileManager :=
  match s.find e.uuid with
  | (none, s) => addEntry device s e none
  | (some (holder, vpnProfile), s) =>
      if vpnProfile.rest.importedProfileHash = some (hashConfig e.ovpn) then
        (none, addCertificateAlias device s holder vpnProfile e.certAlias)
      else addEntry device s e (some vpnProfile)

def importEntries : List Entry → ProfileManager → Option Stop × ProfileManager
  | [], s => (none, s)
  | e :: es, s =>
      match importEntry device s e with
      | (some stop, s) => (some stop, s)
      | (none, s) => importEntries es s

end Import

def profilesToRemove (s : ProfileManager) (provisionedUuids : List Text) : List ManagedProfile :=
  s.getProfiles.filter fun vp =>
    vp.rest.mProfileCreator == some PROFILE_CREATOR &&
      !provisionedUuids.contains (UUID.toString vp.mUuid)

def removeProfiles (s : ProfileManager) (provisionedUuids : List Text) : ProfileManager :=
  (profilesToRemove s provisionedUuids).foldl ProfileManager.removeProfile s

/-- The shared preferences.  `counter` makes Android write a set that has changed. -/
structure Preferences where
  allowed_apps : Finset Text
  allowed_apps_managed : Bool
  counter : Int
  alwaysOnVpn : Option Text
  screenoff : Option Bool
  restartvpnonboot : Option Bool
deriving DecidableEq

structure App where
  manager : ProfileManager
  prefs : Preferences

/-- The default profile, if it is one of the list. -/
def setDefaultProfile (prefs : Preferences) (defaultprofile : Option Text)
    (provisionedUuids : List Text) : Preferences :=
  match defaultprofile.map toLowerCase with
  | none => prefs
  | some uuid =>
      if !uuid.isEmpty && provisionedUuids.contains uuid && prefs.alwaysOnVpn != some uuid then
        { prefs with alwaysOnVpn := some uuid }
      else prefs

def importVPNProfiles (device : Device) (app : App) (restrictions : Restrictions)
    (profileList : List Parcelable) : Option Stop × App :=
  let provisionedUuids := (entries profileList).map Entry.uuid
  match importEntries device (entries profileList) app.manager with
  | (some stop, manager) => (some stop, { app with manager := manager })
  | (none, manager) =>
      (none,
        { manager := removeProfiles manager provisionedUuids
          prefs := setDefaultProfile app.prefs restrictions.defaultprofile provisionedUuids })

/-! ### `parseRestrictionsBundle` -/

namespace Preferences

def increaseWorkaroundCounter (prefs : Preferences) : Preferences :=
  { prefs with counter := int (prefs.counter + 1) }

def setFlagManagedConfiguration (prefs : Preferences) (managed : Bool) : Preferences :=
  increaseWorkaroundCounter { prefs with allowed_apps_managed := managed }

def saveExtAppList (prefs : Preferences) (allowedapps : Finset Text) : Preferences :=
  increaseWorkaroundCounter { prefs with allowed_apps := allowedapps }

end Preferences

/-- `allowedApps.split("[, \n\r]")` without the empty parts. -/
def packageNames (allowedApps : Text) : Finset Text :=
  ((split (fun c => c == ',' || c == ' ' || c == '\n' || c == '\r') allowedApps).filter
    fun packageName => !packageName.isEmpty).toFinset

def setAllowedRemoteControl (prefs : Preferences) (restrictions : Restrictions) : Preferences :=
  match restrictions.allowed_remote_access with
  | none => prefs.setFlagManagedConfiguration false
  | some allowedApps =>
      let restrictionApps := packageNames allowedApps
      let prefs := (prefs.setFlagManagedConfiguration true).saveExtAppList ∅
      if prefs.allowed_apps ≠ restrictionApps then prefs.saveExtAppList restrictionApps else prefs

def setMiscSettings (prefs : Preferences) (restrictions : Restrictions) : Preferences :=
  { prefs with
    screenoff := restrictions.screenoffpausevpn.orElse fun _ => prefs.screenoff
    restartvpnonboot := restrictions.restartvpnonboot.orElse fun _ => prefs.restartvpnonboot }

/-- The bundle has the version that the app expects. -/
def Expected (restrictions : Restrictions) : Prop :=
  parseInt (restrictions.version.getD "(not set)") = some CONFIG_VERSION

instance (restrictions : Restrictions) : Decidable (Expected restrictions) :=
  inferInstanceAs (Decidable (_ = _))

def parseRestrictionsBundle (device : Device) (app : App) (restrictions : Option Restrictions) :
    Option Stop × App :=
  match restrictions with
  | none => (none, app)
  | some restrictions =>
      if Expected restrictions then
        let profileList := restrictions.vpn_configuration_list.getD []
        match importVPNProfiles device app restrictions profileList with
        | (some stop, app) => (some stop, app)
        | (none, app) =>
            let prefs := setAllowedRemoteControl app.prefs restrictions
            (none, { app with prefs := setMiscSettings prefs restrictions })
      else (none, app)

end AppRestrictions

end OpenVpnAndroid
