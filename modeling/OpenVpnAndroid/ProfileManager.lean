/-
  OpenVpnAndroid/ProfileManager.lean
  ==================================
  **`ProfileManager`, the profiles in memory and their files.**

  The table in memory is written through: who adds a profile saves it and then the
  list of the keys.  A lookup that finds nothing loads the table again from the
  files, up to ten times, so what was added and not saved is gone after such a
  lookup (`lookup_loadVPNList`).

  `Consistent` says how the table and the files belong together.  The files are
  those of one process, and what a file holds is taken as it is after
  `upgradeProfile`.
-/
import OpenVpnAndroid.UuidText

namespace OpenVpnAndroid

def AppRestrictions.PROFILE_CREATOR : Text := "de.blinkt.openvpn.api.AppRestrictions"

/-! ### The state -/

structure ManagedSettings extends Settings where
  importedProfileHash : Option Text := none
deriving DecidableEq, Repr

abbrev ManagedProfile := StoredProfile ManagedSettings

/-- The `HashMap` of the profiles.  The text of the UUID is the key. -/
abbrev ProfileTable := Finmap fun _ : UUID => ManagedProfile

/-- The table with what the function has for the keys. -/
def ProfileTable.ofKeys (keys : Finset UUID) (f : UUID → Option ManagedProfile) : ProfileTable :=
  Finmap.keysLookupEquiv.symm
    ⟨(keys.filter fun u => (f u).isSome, fun u => if u ∈ keys then f u else none), by
      intro u
      by_cases hu : u ∈ keys <;> simp [hu]⟩

@[simp] theorem ProfileTable.lookup_ofKeys (keys : Finset UUID) (f : UUID → Option ManagedProfile)
    (u : UUID) : (ofKeys keys f).lookup u = if u ∈ keys then f u else none := by
  simp [ofKeys]

/-- What the app has from the device.  `save` says what the n-th save finds. -/
structure Device where
  java : JavaEnv
  save : Nat → SaveEnvironment

structure ProfileManager where
  profiles : ProfileTable
  tmpprofile : Option ManagedProfile
  encryptionBroken : Bool
  /-- the preference `vpnlist` -/
  vpnlist : Finset UUID
  /-- the preference `counter` -/
  counter : Int
  files : Files ManagedSettings
  /-- how often `saveProfile` was called -/
  saves : Nat

/-- The variable that a profile was found in. -/
inductive Holder where
  | tmpprofile
  | profiles
deriving DecidableEq, Repr

namespace ProfileManager

variable (s : ProfileManager)

/-! ### The operations -/

/-- `loadVpnEntry` -/
def load (vpnentry : VpnEntry) : Option ManagedProfile := loadVpnEntry id (s.files vpnentry)

def loadVPNList : ProfileManager :=
  { s with
    profiles := .ofKeys s.vpnlist fun u => s.load (.uuid u)
    tmpprofile := (s.load .temporary).orElse fun _ => s.tmpprofile }

/-- `get(key)`, with the variable that holds the profile. -/
def get (key : Text) : Option (Holder × ManagedProfile) :=
  let inProfiles := ((UUID.ofKey key).bind s.profiles.lookup).map fun vp => (.profiles, vp)
  match s.tmpprofile with
  | some tmp => if UUID.toString tmp.mUuid = key then some (.tmpprofile, tmp) else inProfiles
  | none => inProfiles

/-- `profile != null && profile.mVersion >= version` -/
def isCurrent (version : Int) (found : Option (Holder × ManagedProfile)) : Bool :=
  found.any fun f => decide (version ≤ f.2.mVersion)

/-- `get(context, profileUUID, version, tries)` -/
def getVersion (profileUUID : Text) (version : Int) :
    Nat → ProfileManager → Option (Holder × ManagedProfile) × ProfileManager
  | 0, s => (s.get profileUUID, s)
  | tries + 1, s =>
      if isCurrent version (s.get profileUUID) then (s.get profileUUID, s)
      else getVersion profileUUID version tries s.loadVPNList

/-- `get(context, profileUUID)` -/
def find (profileUUID : Text) : Option (Holder × ManagedProfile) × ProfileManager :=
  getVersion profileUUID 0 10 s

/-- `saveProfile`.  The object has a new version afterwards. -/
def saveProfile (device : Device) (profile : ManagedProfile) : ProfileManager × ManagedProfile :=
  let save := OpenVpnAndroid.saveProfile (device.save s.saves) s.encryptionBroken profile
  let entry := profile.filename
  ({ s with
      encryptionBroken := save.encryptionBroken
      files :=
        Function.update s.files entry (FileOperation.execute save.operations (s.files entry))
      saves := s.saves + 1 },
    save.profile)

def saveProfileList : ProfileManager :=
  { s with vpnlist := s.profiles.keys, counter := int (s.counter + 1) }

def addProfile (profile : ManagedProfile) : ProfileManager :=
  { s with profiles := s.profiles.insert profile.mUuid profile }

/-- The object in the variable has changed. -/
def hold (holder : Holder) (profile : ManagedProfile) : ProfileManager :=
  match holder with
  | .tmpprofile => { s with tmpprofile := some profile }
  | .profiles => s.addProfile profile

/-- Of the files of the profile only `.vp` is deleted. -/
def removeProfile (profile : ManagedProfile) : ProfileManager :=
  let s := saveProfileList { s with profiles := s.profiles.erase profile.mUuid }
  let entry := VpnEntry.uuid profile.mUuid
  { s with
    files := Function.update s.files entry ((FileOperation.delete .vp).apply (s.files entry)) }

/-- `profiles.values()`, in one of its orders. -/
def getProfiles : List ManagedProfile :=
  (s.profiles.keys.sort fun u v => u ≤ v).filterMap s.profiles.lookup

/-- The variables of a new process, after `checkInstance`. -/
def newProcess : ProfileManager :=
  loadVPNList { s with profiles := ∅, tmpprofile := none, encryptionBroken := false }

/-! ### The table and the files -/

/-- A profile that a managed configuration has neither made nor marked. -/
def Unmanaged (vp : ManagedProfile) : Prop :=
  vp.rest.mProfileCreator ≠ some AppRestrictions.PROFILE_CREATOR ∧
    vp.rest.importedProfileHash = none

/-- Profiles are where they belong, what the list and the files have is in the table,
    and a profile of the table is in the list and in its file, or it was added and not
    saved. -/
structure Consistent (s : ProfileManager) : Prop where
  ofTable : ∀ u vp, s.profiles.lookup u = some vp → vp.mUuid = u ∧ vp.mTemporaryProfile = false
  ofFile : ∀ u vp, s.load (.uuid u) = some vp → vp.mUuid = u ∧ vp.mTemporaryProfile = false
  listed : ∀ u ∈ s.vpnlist, ∀ vp, s.load (.uuid u) = some vp → s.profiles.lookup u = some vp
  saved : ∀ u vp, s.profiles.lookup u = some vp →
    (u ∈ s.vpnlist ∧ s.load (.uuid u) = some vp) ∨ (s.load (.uuid u) = none ∧ Unmanaged vp)
  temporary : ∀ tmp, s.load .temporary = some tmp → s.tmpprofile = some tmp
  ofTemporary : ∀ tmp, s.tmpprofile = some tmp → tmp.mTemporaryProfile = true

/-- A file has the profile with that UUID. -/
def Saved (u : UUID) : Prop := (s.load (.uuid u)).isSome

instance (u : UUID) : Decidable (s.Saved u) := inferInstanceAs (Decidable (_ = true))

variable {s}

theorem saved_of_load {u : UUID} {vp : ManagedProfile} (h : s.load (.uuid u) = some vp) :
    s.Saved u := by
  rw [Saved, h]
  rfl

theorem Consistent.load_of_saved (h : s.Consistent) {u : UUID} {vp : ManagedProfile}
    (hlookup : s.profiles.lookup u = some vp) (hsaved : s.Saved u) :
    u ∈ s.vpnlist ∧ s.load (.uuid u) = some vp := by
  obtain hfile | ⟨hnone, _⟩ := h.saved u vp hlookup
  · exact hfile
  · rw [Saved, hnone] at hsaved
    exact absurd hsaved Bool.false_ne_true

theorem Consistent.saved_of_managed (h : s.Consistent) {u : UUID} {vp : ManagedProfile}
    (hlookup : s.profiles.lookup u = some vp) (hmanaged : ¬Unmanaged vp) : s.Saved u := by
  obtain ⟨_, hload⟩ | ⟨_, hunmanaged⟩ := h.saved u vp hlookup
  · exact saved_of_load hload
  · exact absurd hunmanaged hmanaged

/-! ### Loading the table -/

@[simp] theorem load_loadVPNList (entry : VpnEntry) : s.loadVPNList.load entry = s.load entry := rfl

/-- Loading keeps the profiles that were saved. -/
theorem lookup_loadVPNList (h : s.Consistent) (u : UUID) :
    s.loadVPNList.profiles.lookup u = if s.Saved u then s.profiles.lookup u else none := by
  rw [loadVPNList, ProfileTable.lookup_ofKeys]
  cases hload : s.load (.uuid u) with
  | none => simp [Saved, hload]
  | some vp =>
      rw [if_pos (saved_of_load hload)]
      split
      · rename_i hlist
        exact (h.listed u hlist vp hload).symm
      · rename_i hlist
        cases hlookup : s.profiles.lookup u with
        | none => rfl
        | some vp' => exact absurd (h.load_of_saved hlookup (saved_of_load hload)).1 hlist

theorem tmpprofile_loadVPNList (h : s.Consistent) : s.loadVPNList.tmpprofile = s.tmpprofile := by
  rw [loadVPNList]
  cases htmp : s.load .temporary with
  | none => rfl
  | some tmp => exact (h.temporary tmp htmp).symm

theorem Consistent.loadVPNList (h : s.Consistent) : s.loadVPNList.Consistent where
  ofTable u vp hlookup := by
    rw [lookup_loadVPNList h] at hlookup
    split at hlookup
    · exact h.ofTable u vp hlookup
    · cases hlookup
  ofFile := h.ofFile
  listed u hu vp hload := by
    rw [load_loadVPNList] at hload
    rw [lookup_loadVPNList h, if_pos (saved_of_load hload)]
    exact h.listed u hu vp hload
  saved u vp hlookup := by
    rw [lookup_loadVPNList h] at hlookup
    split at hlookup
    · rename_i hsaved
      exact .inl (h.load_of_saved hlookup hsaved)
    · cases hlookup
  temporary tmp hload := by
    rw [tmpprofile_loadVPNList h]
    exact h.temporary tmp hload
  ofTemporary tmp htmp := by
    rw [tmpprofile_loadVPNList h] at htmp
    exact h.ofTemporary tmp htmp

/-- The files do not change, so a second time changes nothing. -/
theorem loadVPNList_loadVPNList (s : ProfileManager) :
    s.loadVPNList.loadVPNList = s.loadVPNList := by
  rw [loadVPNList, loadVPNList]
  congr 1
  simp only [load]
  cases loadVpnEntry id (s.files .temporary) <;> rfl

/-! ### Looking up -/

/-- The profile with that UUID in the variable. -/
def heldBy (s : ProfileManager) (holder : Holder) (u : UUID) : Option ManagedProfile :=
  match holder with
  | .tmpprofile => s.tmpprofile.filter fun tmp => tmp.mUuid = u
  | .profiles => s.profiles.lookup u

theorem heldBy_tmpprofile_eq_some {u : UUID} {tmp : ManagedProfile} :
    s.heldBy .tmpprofile u = some tmp ↔ s.tmpprofile = some tmp ∧ tmp.mUuid = u := by
  simp [heldBy, Option.filter_eq_some_iff]

/-- The temporary profile comes first. -/
theorem get_toString (u : UUID) :
    s.get (UUID.toString u) =
      match s.heldBy .tmpprofile u with
      | some tmp => some (.tmpprofile, tmp)
      | none => (s.heldBy .profiles u).map fun vp => (.profiles, vp) := by
  rw [get, UUID.ofKey_toString, heldBy]
  cases s.tmpprofile with
  | none => rfl
  | some tmp =>
      simp only [Option.filter_some, UUID.toString_injective.eq_iff, decide_eq_true_eq]
      split <;> rfl

theorem get_toString_eq_some {u : UUID} {holder : Holder} {vp : ManagedProfile}
    (h : s.get (UUID.toString u) = some (holder, vp)) : s.heldBy holder u = some vp := by
  rw [get_toString] at h
  split at h
  · rename_i tmp htmp
    cases h
    exact htmp
  · obtain ⟨vp', hvp', heq⟩ := Option.map_eq_some_iff.mp h
    cases heq
    exact hvp'

/-- A text that is no key finds nothing. -/
theorem get_of_ofKey {key : Text} (hkey : UUID.ofKey key = none) : s.get key = none := by
  have hne : ∀ u, UUID.toString u ≠ key := by
    intro u hu
    rw [UUID.ofKey_eq_some.mpr hu] at hkey
    cases hkey
  rw [get, hkey]
  cases s.tmpprofile with
  | none => rfl
  | some tmp => simp [hne]

/-- The manager in which the lookup ends. -/
def searched (s : ProfileManager) (profileUUID : Text) : ProfileManager :=
  if isCurrent 0 (s.get profileUUID) then s else s.loadVPNList

theorem getVersion_loaded {s : ProfileManager} (hloaded : s.loadVPNList = s) (profileUUID : Text)
    (version : Int) (tries : Nat) :
    getVersion profileUUID version tries s = (s.get profileUUID, s) := by
  induction tries with
  | zero => rfl
  | succ tries ih =>
      rw [getVersion, hloaded, ih]
      exact ite_self _

/-- One load is enough. -/
theorem find_eq (s : ProfileManager) (profileUUID : Text) :
    s.find profileUUID =
      ((s.searched profileUUID).get profileUUID, s.searched profileUUID) := by
  rw [find, getVersion, getVersion_loaded (loadVPNList_loadVPNList s), searched]
  split <;> rfl

/-! ### Saving -/

theorem load_saveProfile (device : Device) (profile : ManagedProfile) (entry : VpnEntry) :
    (s.saveProfile device profile).1.load entry =
      if entry = profile.filename then (s.saveProfile device profile).2.accept id
      else s.load entry := by
  split
  · rename_i h
    subst h
    have hholds := holds_saveProfile (device.save s.saves) s.encryptionBroken profile
      (s.files profile.filename)
    simp only [saveProfile, load, Function.update_self, loadVpnEntry,
      readVpnEntry_of_holds hholds, Option.bind_some]
  · rename_i h
    simp only [saveProfile, load, Function.update_of_ne h]

/-- The object that was saved, with its new version. -/
theorem exists_version (device : Device) (profile : ManagedProfile) :
    ∃ version, (s.saveProfile device profile).2 = { profile with mVersion := version } :=
  saveProfile_profile _ _ _

theorem accept_of_name {vp : ManagedProfile} (h : vp.mName ≠ none) : vp.accept id = some vp := by
  rw [StoredProfile.accept]
  cases hname : vp.mName with
  | none => exact absurd hname h
  | some name => rfl

theorem name_of_load {entry : VpnEntry} {vp : ManagedProfile} (h : s.load entry = some vp) :
    vp.mName ≠ none := by
  rw [load, loadVpnEntry, Option.bind_eq_some_iff] at h
  obtain ⟨vp', _, haccept⟩ := h
  rw [StoredProfile.accept] at haccept
  intro hname
  split at haccept
  · cases haccept
  · rename_i hname'
    obtain rfl := Option.some.inj haccept
    rw [show vp'.mName = none from hname] at hname'
    cases hname'

/-! ### What keeps the store consistent -/

/-- A profile comes into the table, in the place of one with its UUID, and it is in the
    list and its file then, or neither was made by a managed configuration. -/
theorem Consistent.insert (h : s.Consistent) {s' : ProfileManager} (vp : ManagedProfile)
    (hflag : vp.mTemporaryProfile = false)
    (hprofiles : s'.profiles = s.profiles.insert vp.mUuid vp)
    (hself : (vp.mUuid ∈ s'.vpnlist ∧ s'.load (.uuid vp.mUuid) = some vp) ∨
      (s'.load (.uuid vp.mUuid) = none ∧ Unmanaged vp))
    (hload : ∀ entry, entry ≠ .uuid vp.mUuid → s'.load entry = s.load entry)
    (htmp : s'.tmpprofile = s.tmpprofile)
    (hlist : s'.vpnlist = s.vpnlist ∨ s'.vpnlist = s'.profiles.keys) : s'.Consistent := by
  have hother : ∀ u, u ≠ vp.mUuid → s'.load (.uuid u) = s.load (.uuid u) :=
    fun u hu => hload _ fun heq => hu (VpnEntry.uuid.inj heq)
  have hlookup : ∀ u, u ≠ vp.mUuid → s'.profiles.lookup u = s.profiles.lookup u := by
    intro u hu
    rw [hprofiles, Finmap.lookup_insert_of_ne _ hu]
  have hlookup_self : s'.profiles.lookup vp.mUuid = some vp := by
    rw [hprofiles, Finmap.lookup_insert]
  have hself_load : ∀ vp', s'.load (.uuid vp.mUuid) = some vp' → vp' = vp := by
    intro vp' hvp'
    obtain ⟨_, hself⟩ | ⟨hself, _⟩ := hself
    · exact Option.some.inj (hvp'.symm.trans hself)
    · rw [hself] at hvp'
      cases hvp'
  constructor
  case ofTable =>
    intro u vp' hvp'
    by_cases hu : u = vp.mUuid
    · subst hu
      obtain rfl := Option.some.inj (hvp'.symm.trans hlookup_self)
      exact ⟨rfl, hflag⟩
    · exact h.ofTable u vp' (hlookup u hu ▸ hvp')
  case ofFile =>
    intro u vp' hvp'
    by_cases hu : u = vp.mUuid
    · subst hu
      obtain rfl := hself_load vp' hvp'
      exact ⟨rfl, hflag⟩
    · exact h.ofFile u vp' (hother u hu ▸ hvp')
  case listed =>
    intro u hmem vp' hvp'
    by_cases hu : u = vp.mUuid
    · subst hu
      rw [hself_load vp' hvp', hlookup_self]
    · rw [hlookup u hu]
      rw [hother u hu] at hvp'
      obtain hsame | hkeys := hlist
      · exact h.listed u (hsame ▸ hmem) vp' hvp'
      · rw [hkeys, Finmap.mem_keys, ← Finmap.lookup_isSome, hlookup u hu,
          Option.isSome_iff_exists] at hmem
        obtain ⟨vp'', hvp''⟩ := hmem
        have hfile := (h.load_of_saved hvp'' (saved_of_load hvp')).2
        rw [hvp'', ← hfile, hvp']
  case saved =>
    intro u vp' hvp'
    by_cases hu : u = vp.mUuid
    · subst hu
      obtain rfl := Option.some.inj (hvp'.symm.trans hlookup_self)
      exact hself
    · rw [hother u hu]
      refine (h.saved u vp' (hlookup u hu ▸ hvp')).imp_left fun ⟨hmem, hfile⟩ => ⟨?_, hfile⟩
      obtain hsame | hkeys := hlist
      · rwa [hsame]
      · rw [hkeys, Finmap.mem_keys]
        exact Finmap.mem_of_lookup_eq_some hvp'
  case temporary =>
    intro tmp htemporary
    rw [hload _ VpnEntry.noConfusion] at htemporary
    rw [htmp]
    exact h.temporary tmp htemporary
  case ofTemporary =>
    intro tmp htemporary
    exact h.ofTemporary tmp (htmp ▸ htemporary)

theorem Consistent.saveTemporary (h : s.Consistent) (device : Device) (vp : ManagedProfile)
    (hflag : vp.mTemporaryProfile = true) :
    ((s.saveProfile device vp).1.hold .tmpprofile (s.saveProfile device vp).2).Consistent := by
  obtain ⟨version, hversion⟩ := exists_version (s := s) device vp
  have hfilename : vp.filename = .temporary := by rw [StoredProfile.filename, if_pos hflag]
  have hload : ∀ u, (s.saveProfile device vp).1.load (.uuid u) = s.load (.uuid u) := by
    intro u
    rw [load_saveProfile, hfilename, if_neg VpnEntry.noConfusion]
  constructor
  case ofTable => exact h.ofTable
  case ofFile => exact fun u vp' hvp' => h.ofFile u vp' (hload u ▸ hvp')
  case listed => exact fun u hmem vp' hvp' => h.listed u hmem vp' (hload u ▸ hvp')
  case saved =>
    intro u vp' hvp'
    have hsaved := h.saved u vp' hvp'
    rwa [← hload u] at hsaved
  case temporary =>
    intro tmp htmp
    change (s.saveProfile device vp).1.load .temporary = some tmp at htmp
    rw [load_saveProfile, hfilename, if_pos rfl, StoredProfile.accept] at htmp
    split at htmp
    · cases htmp
    · exact htmp
  case ofTemporary =>
    intro tmp htmp
    obtain rfl := Option.some.inj htmp
    rw [hversion]
    exact hflag

section Save

variable (device : Device) (vp : ManagedProfile) (hflag : vp.mTemporaryProfile = false)

include hflag

theorem load_saveProfile_uuid (entry : VpnEntry) :
    (s.saveProfile device vp).1.load entry =
      if entry = .uuid vp.mUuid then (s.saveProfile device vp).2.accept id else s.load entry := by
  have hfilename : vp.filename = .uuid vp.mUuid := by simp [StoredProfile.filename, hflag]
  rw [load_saveProfile, hfilename]

/-- The profile is saved that the table has under its UUID. -/
theorem Consistent.save (h : s.Consistent) (hname : vp.mName ≠ none) (hmem : vp.mUuid ∈ s.vpnlist) :
    ((s.saveProfile device vp).1.addProfile (s.saveProfile device vp).2).Consistent := by
  obtain ⟨version, hversion⟩ := exists_version (s := s) device vp
  refine h.insert (s.saveProfile device vp).2 ?_ rfl (.inl ⟨?_, ?_⟩) ?_ rfl (.inl rfl)
  · rw [hversion]
    exact hflag
  · rw [hversion]
    exact hmem
  · change (s.saveProfile device vp).1.load _ = _
    rw [load_saveProfile_uuid device vp hflag, hversion, if_pos rfl]
    exact accept_of_name hname
  · intro entry hentry
    change (s.saveProfile device vp).1.load _ = _
    rw [hversion] at hentry
    rw [load_saveProfile_uuid device vp hflag, if_neg hentry]

/-- A profile is added and saved, and then the list. -/
theorem Consistent.saveListed (h : s.Consistent) (hname : vp.mName ≠ none ∨ Unmanaged vp) :
    ((s.saveProfile device vp).1.addProfile
      (s.saveProfile device vp).2).saveProfileList.Consistent := by
  obtain ⟨version, hversion⟩ := exists_version (s := s) device vp
  refine h.insert (s.saveProfile device vp).2 ?_ rfl ?_ ?_ rfl (.inr rfl)
  · rw [hversion]
    exact hflag
  · have hload : (s.saveProfile device vp).1.load (.uuid (s.saveProfile device vp).2.mUuid) =
        (s.saveProfile device vp).2.accept id := by
      rw [load_saveProfile_uuid device vp hflag, hversion, if_pos rfl]
    have hmem : (s.saveProfile device vp).2.mUuid ∈
        ((s.saveProfile device vp).1.addProfile (s.saveProfile device vp).2).profiles.keys := by
      rw [Finmap.mem_keys, addProfile, Finmap.mem_insert]
      exact .inl rfl
    by_cases hnone : vp.mName = none
    · refine .inr ⟨?_, ?_⟩
      · refine Eq.trans hload ?_
        rw [hversion, StoredProfile.accept]
        simp only [hnone]
      · obtain hname | hunmanaged := hname
        · exact absurd hnone hname
        · rw [hversion]
          exact hunmanaged
    · refine .inl ⟨hmem, Eq.trans hload ?_⟩
      rw [hversion]
      exact accept_of_name hnone
  · intro entry hentry
    change (s.saveProfile device vp).1.load _ = _
    rw [hversion] at hentry
    rw [load_saveProfile_uuid device vp hflag, if_neg hentry]

end Save

/-- A new process finds what was saved. -/
theorem Consistent.newProcess (h : s.Consistent) : s.newProcess.Consistent := by
  have hlookup : ∀ u, s.newProcess.profiles.lookup u =
      if u ∈ s.vpnlist then s.load (.uuid u) else none := ProfileTable.lookup_ofKeys _ _
  have htmp : s.newProcess.tmpprofile = s.load .temporary := by
    change (s.load .temporary).orElse (fun _ => none) = _
    cases s.load .temporary <;> rfl
  constructor
  case ofTable =>
    intro u vp hvp
    rw [hlookup] at hvp
    split at hvp
    · exact h.ofFile u vp hvp
    · cases hvp
  case ofFile => exact h.ofFile
  case listed =>
    intro u hmem vp hvp
    rw [hlookup, if_pos (show u ∈ s.vpnlist from hmem)]
    exact hvp
  case saved =>
    intro u vp hvp
    rw [hlookup] at hvp
    split at hvp
    · rename_i hmem
      exact .inl ⟨hmem, hvp⟩
    · cases hvp
  case temporary =>
    intro tmp hload
    rw [htmp]
    exact hload
  case ofTemporary =>
    intro tmp hload
    rw [htmp] at hload
    exact h.ofTemporary tmp (h.temporary tmp hload)

theorem lookup_removeProfile (vp : ManagedProfile) (u : UUID) :
    (s.removeProfile vp).profiles.lookup u =
      if u = vp.mUuid then none else s.profiles.lookup u := by
  change (s.profiles.erase vp.mUuid).lookup u = _
  split
  · rename_i hu
    rw [hu, Finmap.lookup_erase]
  · rename_i hu
    exact Finmap.lookup_erase_ne hu

theorem load_removeProfile (vp : ManagedProfile) {entry : VpnEntry}
    (hentry : entry ≠ .uuid vp.mUuid) : (s.removeProfile vp).load entry = s.load entry := by
  simp only [removeProfile, saveProfileList, load, Function.update_of_ne hentry]

/-- What the file of a removed profile still holds is what it has held. -/
theorem load_of_load_removeProfile {vp vp' : ManagedProfile} {entry : VpnEntry}
    (h : (s.removeProfile vp).load entry = some vp') : s.load entry = some vp' := by
  by_cases hentry : entry = .uuid vp.mUuid
  · subst hentry
    simp only [removeProfile, saveProfileList, load, Function.update_self, loadVpnEntry,
      FileOperation.apply, readVpnEntry, Option.bind_eq_some_iff] at h ⊢
    obtain ⟨vp'', hread, haccept⟩ := h
    refine ⟨vp'', ?_, haccept⟩
    simp only [Function.update_of_ne (show Extension.cp ≠ .vp by decide),
      Function.update_of_ne (show Extension.cpold ≠ .vp by decide)] at hread
    split at hread
    · exact hread
    · split at hread
      · exact hread
      · simp at hread
  · rwa [load_removeProfile vp hentry] at h

theorem Consistent.removeProfile (h : s.Consistent) (vp : ManagedProfile) :
    (s.removeProfile vp).Consistent := by
  constructor
  case ofTable =>
    intro u vp' hvp'
    rw [lookup_removeProfile] at hvp'
    split at hvp'
    · cases hvp'
    · exact h.ofTable u vp' hvp'
  case ofFile => exact fun u vp' hvp' => h.ofFile u vp' (load_of_load_removeProfile hvp')
  case listed =>
    intro u hmem vp' hvp'
    have hfile := load_of_load_removeProfile hvp'
    change u ∈ (s.removeProfile vp).profiles.keys at hmem
    rw [Finmap.mem_keys, ← Finmap.lookup_isSome, Option.isSome_iff_exists] at hmem
    obtain ⟨vp'', hvp''⟩ := hmem
    have hlookup := hvp''
    rw [lookup_removeProfile] at hlookup
    split at hlookup
    · cases hlookup
    · have hsaved := (h.load_of_saved hlookup (saved_of_load hfile)).2
      rw [hvp'', ← hsaved, hfile]
  case saved =>
    intro u vp' hvp'
    have hmem : u ∈ (s.removeProfile vp).profiles.keys := by
      rw [Finmap.mem_keys]
      exact Finmap.mem_of_lookup_eq_some hvp'
    rw [lookup_removeProfile] at hvp'
    split at hvp'
    · cases hvp'
    · rename_i hu
      rw [load_removeProfile vp fun heq => hu (VpnEntry.uuid.inj heq)]
      exact (h.saved u vp' hvp').imp_left fun ⟨_, hfile⟩ => ⟨hmem, hfile⟩
  case temporary =>
    intro tmp htmp
    exact h.temporary tmp (load_of_load_removeProfile htmp)
  case ofTemporary => exact h.ofTemporary

end ProfileManager

end OpenVpnAndroid
