/-
  OpenVpnAndroid/EntryImport.lean
  ===============================
  **What one entry of the list does to the store.**

  An entry changes nothing but the profiles with its own UUID (`Touches`), so the
  entries of a list whose UUIDs are distinct do not meet.  What an entry does there
  has four cases (`Imported`): its profile was not modified, or the import ends with
  an exception, caught or not, or the profile is added.
-/
import OpenVpnAndroid.AppRestrictions

namespace OpenVpnAndroid

namespace ProfileManager

/-! ### The frame of a UUID -/

/-- Nothing changes but the profiles with the UUID `u`.  A profile that comes into the
    table was made or marked by a managed configuration. -/
structure Touches (u : UUID) (s s' : ProfileManager) : Prop where
  held : ∀ holder w, w ≠ u → s'.heldBy holder w = s.heldBy holder w
  load : ∀ w, w ≠ u → s'.load (.uuid w) = s.load (.uuid w)
  saves : s.saves ≤ s'.saves
  inTable : ∀ vp, s'.profiles.lookup u = some vp → ¬Unmanaged vp ∨
    (s.profiles.lookup u = some vp ∧ s'.load (.uuid u) = s.load (.uuid u))

variable {u : UUID} {s s' s'' : ProfileManager}

theorem Touches.refl (u : UUID) (s : ProfileManager) : Touches u s s :=
  ⟨fun _ _ _ => rfl, fun _ _ => rfl, Nat.le_refl _, fun _ hvp => .inr ⟨hvp, rfl⟩⟩

theorem Touches.trans (h : Touches u s s') (h' : Touches u s' s'') : Touches u s s'' where
  held holder w hw := (h'.held holder w hw).trans (h.held holder w hw)
  load w hw := (h'.load w hw).trans (h.load w hw)
  saves := Nat.le_trans h.saves h'.saves
  inTable vp hvp := by
    obtain hmanaged | ⟨hsame, hload⟩ := h'.inTable vp hvp
    · exact .inl hmanaged
    · obtain hmanaged | ⟨hsame', hload'⟩ := h.inTable vp hsame
      · exact .inl hmanaged
      · exact .inr ⟨hsame', hload.trans hload'⟩

theorem Touches.lookup (h : Touches u s s') {w : UUID} (hw : w ≠ u) :
    s'.profiles.lookup w = s.profiles.lookup w := h.held .profiles w hw

theorem Touches.get (h : Touches u s s') {w : UUID} (hw : w ≠ u) :
    s'.get (UUID.toString w) = s.get (UUID.toString w) := by
  rw [get_toString, get_toString, h.held .tmpprofile w hw, h.held .profiles w hw]

/-- The temporary profile is another one after a step that has changed it. -/
theorem heldBy_tmpprofile_of_ne {tmp : ManagedProfile} (h : s.tmpprofile = some tmp) {w : UUID}
    (hw : w ≠ tmp.mUuid) : s.heldBy .tmpprofile w = none := by
  simp [heldBy, h, hw.symm]

theorem heldBy_hold_self (holder : Holder) (vp : ManagedProfile) :
    (s.hold holder vp).heldBy holder vp.mUuid = some vp := by
  cases holder with
  | tmpprofile => simp [hold, heldBy]
  | profiles => exact Finmap.lookup_insert _

theorem heldBy_hold_of_ne {holder holder' : Holder} (h : holder' ≠ holder) (vp : ManagedProfile)
    (w : UUID) : (s.hold holder vp).heldBy holder' w = s.heldBy holder' w := by
  cases holder <;> cases holder' <;> first | rfl | exact absurd rfl h

/-- The profile takes the place of one with its UUID. -/
theorem heldBy_hold_other {holder : Holder} {vp vp' : ManagedProfile}
    (hheld : s.heldBy holder vp.mUuid = some vp') (holder' : Holder) {w : UUID}
    (hw : w ≠ vp.mUuid) : (s.hold holder vp).heldBy holder' w = s.heldBy holder' w := by
  by_cases hholder : holder' = holder
  · subst hholder
    cases holder' with
    | tmpprofile =>
        obtain ⟨htmp, huuid⟩ := heldBy_tmpprofile_eq_some.mp hheld
        rw [heldBy_tmpprofile_of_ne htmp (huuid ▸ hw)]
        exact heldBy_tmpprofile_of_ne (s := s.hold .tmpprofile vp) rfl hw
    | profiles => exact Finmap.lookup_insert_of_ne _ hw
  · exact heldBy_hold_of_ne hholder vp w

/-! ### A save -/

section Save

variable (device : Device) (vp : ManagedProfile)

@[simp] theorem heldBy_saveProfile (holder : Holder) (w : UUID) :
    (s.saveProfile device vp).1.heldBy holder w = s.heldBy holder w := by
  cases holder <;> rfl

@[simp] theorem mUuid_saveProfile : (s.saveProfile device vp).2.mUuid = vp.mUuid := by
  obtain ⟨version, hversion⟩ := exists_version (s := s) device vp
  rw [hversion]

@[simp] theorem rest_saveProfile : (s.saveProfile device vp).2.rest = vp.rest := by
  obtain ⟨version, hversion⟩ := exists_version (s := s) device vp
  rw [hversion]

theorem heldBy_save_self (holder : Holder) :
    ((s.saveProfile device vp).1.hold holder (s.saveProfile device vp).2).heldBy holder vp.mUuid =
      some (s.saveProfile device vp).2 := by
  have hself := heldBy_hold_self (s := (s.saveProfile device vp).1) holder
    (s.saveProfile device vp).2
  rwa [mUuid_saveProfile] at hself

theorem heldBy_save_other {holder : Holder} {vp' : ManagedProfile}
    (hheld : s.heldBy holder vp.mUuid = some vp') (holder' : Holder) {w : UUID}
    (hw : w ≠ vp.mUuid) :
    ((s.saveProfile device vp).1.hold holder (s.saveProfile device vp).2).heldBy holder' w =
      s.heldBy holder' w := by
  have hheld' : (s.saveProfile device vp).1.heldBy holder (s.saveProfile device vp).2.mUuid =
      some vp' := by
    rw [mUuid_saveProfile, heldBy_saveProfile, hheld]
  have hw' : w ≠ (s.saveProfile device vp).2.mUuid := by rwa [mUuid_saveProfile]
  rw [heldBy_hold_other hheld' holder' hw', heldBy_saveProfile]

end Save

end ProfileManager

namespace AppRestrictions

open ProfileManager

/-! ### The alias -/

theorem withAlias_eq_self {certAlias : Option Text} {vp : ManagedProfile}
    (h : HasAlias certAlias vp) : withAlias certAlias vp = vp := by
  obtain ⟨halias, htype⟩ := h
  obtain ⟨uuid, name, version, flag, rest⟩ := vp
  simp only [withAlias, StoredProfile.mk.injEq, true_and] at halias htype ⊢
  rw [halias, htype]

/-- Setting the alias a second time changes nothing. -/
theorem hasAlias_withAlias (certAlias : Option Text) (vp : ManagedProfile) (version : Int) :
    HasAlias certAlias { withAlias certAlias vp with mVersion := version } := by
  refine ⟨rfl, ?_⟩
  simp only [withAlias]
  cases htype : vp.rest.profile.mAuthenticationType
  all_goals simp only [certificateType]
  all_goals by_cases hempty : (certAlias.getD []).isEmpty
  all_goals by_cases hpkcs12 : isEmptyText vp.rest.profile.mPKCS12Filename
  all_goals simp [hempty, hpkcs12]

@[simp] theorem mUuid_withAlias (certAlias : Option Text) (vp : ManagedProfile) :
    (withAlias certAlias vp).mUuid = vp.mUuid := rfl

section Alias

variable (device : Device) {s : ProfileManager} {holder : Holder} {u : UUID} {vp : ManagedProfile}
  (certAlias : Option Text)

theorem addCertificateAlias_of_hasAlias (h : HasAlias certAlias vp) :
    addCertificateAlias device s holder vp certAlias = s := if_pos h

theorem addCertificateAlias_of_not (h : ¬HasAlias certAlias vp) :
    addCertificateAlias device s holder vp certAlias =
      (s.saveProfile device (withAlias certAlias vp)).1.hold holder
        (s.saveProfile device (withAlias certAlias vp)).2 := if_neg h

theorem saves_addCertificateAlias (holder : Holder) (h : ¬HasAlias certAlias vp) :
    s.saves < (addCertificateAlias device s holder vp certAlias).saves := by
  rw [addCertificateAlias_of_not device certAlias h]
  cases holder <;> exact Nat.lt_succ_self _

theorem heldBy_addCertificateAlias_of_ne {holder' : Holder} (hne : holder' ≠ holder) (w : UUID) :
    (addCertificateAlias device s holder vp certAlias).heldBy holder' w = s.heldBy holder' w := by
  by_cases halias : HasAlias certAlias vp
  · rw [addCertificateAlias_of_hasAlias device certAlias halias]
  · rw [addCertificateAlias_of_not device certAlias halias, heldBy_hold_of_ne hne,
      heldBy_saveProfile]

variable (hs : s.Consistent) (hheld : s.heldBy holder u = some vp)

include hs hheld

theorem mUuid_of_heldBy : vp.mUuid = u := by
  cases holder with
  | tmpprofile => exact (heldBy_tmpprofile_eq_some.mp hheld).2
  | profiles => exact (hs.ofTable u vp hheld).1

/-- The profile has the alias afterwards, where it was. -/
theorem heldBy_addCertificateAlias :
    ∃ version, (addCertificateAlias device s holder vp certAlias).heldBy holder u =
      some { withAlias certAlias vp with mVersion := version } := by
  obtain rfl := mUuid_of_heldBy hs hheld
  by_cases halias : HasAlias certAlias vp
  · refine ⟨vp.mVersion, ?_⟩
    rw [addCertificateAlias_of_hasAlias device certAlias halias, withAlias_eq_self halias, hheld]
  · obtain ⟨version, hversion⟩ := exists_version (s := s) device (withAlias certAlias vp)
    refine ⟨version, ?_⟩
    rw [addCertificateAlias_of_not device certAlias halias, ← hversion]
    exact heldBy_save_self device (withAlias certAlias vp) holder

variable (hhash : vp.rest.importedProfileHash ≠ none)

include hhash

/-- The profile in the table is the one in its file. -/
theorem inFile (hholder : holder = .profiles) :
    vp.mTemporaryProfile = false ∧ vp.mName ≠ none ∧ u ∈ s.vpnlist := by
  subst hholder
  have hsaved : s.Saved u := hs.saved_of_managed hheld fun hun => hhash hun.2
  obtain ⟨hmem, hload⟩ := hs.load_of_saved hheld hsaved
  exact ⟨(hs.ofTable u vp hheld).2, name_of_load hload, hmem⟩

theorem consistent_addCertificateAlias :
    (addCertificateAlias device s holder vp certAlias).Consistent := by
  obtain rfl := mUuid_of_heldBy hs hheld
  by_cases halias : HasAlias certAlias vp
  · rwa [addCertificateAlias_of_hasAlias device certAlias halias]
  · rw [addCertificateAlias_of_not device certAlias halias]
    cases holder with
    | tmpprofile =>
        obtain ⟨htmp, _⟩ := heldBy_tmpprofile_eq_some.mp hheld
        exact hs.saveTemporary device (withAlias certAlias vp) (hs.ofTemporary vp htmp)
    | profiles =>
        obtain ⟨hflag, hname, hmem⟩ := inFile hs hheld hhash rfl
        exact hs.save device (withAlias certAlias vp) hflag hname hmem

theorem touches_addCertificateAlias :
    Touches u s (addCertificateAlias device s holder vp certAlias) := by
  obtain rfl := mUuid_of_heldBy hs hheld
  by_cases halias : HasAlias certAlias vp
  · rw [addCertificateAlias_of_hasAlias device certAlias halias]
    exact .refl _ s
  · have hsaves := saves_addCertificateAlias device (s := s) certAlias holder halias
    rw [addCertificateAlias_of_not device certAlias halias] at hsaves ⊢
    have hother := fun holder' w (hw : w ≠ vp.mUuid) =>
      heldBy_save_other device (withAlias certAlias vp) hheld holder' hw
    cases holder with
    | tmpprofile =>
        have hload : ∀ w, (s.saveProfile device (withAlias certAlias vp)).1.load (.uuid w) =
            s.load (.uuid w) := by
          intro w
          obtain ⟨htmp, _⟩ := heldBy_tmpprofile_eq_some.mp hheld
          have hfilename : (withAlias certAlias vp).filename = .temporary :=
            if_pos (hs.ofTemporary vp htmp)
          rw [ProfileManager.load_saveProfile, hfilename, if_neg VpnEntry.noConfusion]
        exact ⟨hother, fun w _ => hload w, hsaves.le, fun vp' hvp' => .inr ⟨hvp', hload _⟩⟩
    | profiles =>
        obtain ⟨hflag, _, _⟩ := inFile hs hheld hhash rfl
        refine ⟨hother, fun w hw => ?_, hsaves.le, fun vp' hvp' => .inl ?_⟩
        · change (s.saveProfile device (withAlias certAlias vp)).1.load _ = _
          rw [load_saveProfile_uuid device (withAlias certAlias vp) hflag, mUuid_withAlias,
            if_neg fun heq => hw (VpnEntry.uuid.inj heq)]
        · have hself := heldBy_save_self (s := s) device (withAlias certAlias vp) .profiles
          obtain rfl := Option.some.inj (hself.symm.trans hvp')
          intro hun
          rw [Unmanaged, rest_saveProfile] at hun
          exact hhash hun.2

end Alias

/-! ### The import -/

section Import

variable (device : Device) (s : ProfileManager) (e : Entry)

/-- The import of the configuration. -/
def importOf : Java VpnProfile := ConfigParser.importProfile device.java (prepare e.ovpn)

/-- The import ends with an exception that is not caught, or does not end. -/
def crashes : Bool :=
  match importOf device e with
  | .error stop => !caught stop
  | .ok _ => false

/-- The profile that is found has the hash of the configuration. -/
def unmodified : Bool :=
  (s.get e.uuid).any fun found =>
    found.2.rest.importedProfileHash == some (hashConfig e.ovpn)

/-- The profile that is added, saved. -/
def newProfile (uuid : UUID) (np : VpnProfile) : ProfileManager × ManagedProfile :=
  s.saveProfile device (provision (prepare e.ovpn) uuid e.name ((s.get e.uuid).map Prod.snd) np)

/-- The manager with that profile. -/
def added (uuid : UUID) (np : VpnProfile) : ProfileManager :=
  ((newProfile device s e uuid np).1.addProfile (newProfile device s e uuid np).2).saveProfileList

/-- What an entry does to the manager in which its lookup ends. -/
inductive Imported : Option Stop × ProfileManager → Prop where
  | unmodified {holder : Holder} {vp : ManagedProfile} (hget : s.get e.uuid = some (holder, vp))
      (hhash : vp.rest.importedProfileHash = some (hashConfig e.ovpn)) :
      Imported (none, addCertificateAlias device s holder vp e.certAlias)
  | rejected (hmodified : unmodified s e = false) (hcrash : crashes device e = false)
      (hfails : (importOf device e).toOption = none ∨ UUID.fromString e.uuid = none) :
      Imported (none, s)
  | stopped {stop : Stop} (hmodified : unmodified s e = false) (hcrash : crashes device e = true) :
      Imported (some stop, s)
  | added {np : VpnProfile} {uuid : UUID} (hmodified : unmodified s e = false)
      (himport : importOf device e = .ok np) (huuid : UUID.fromString e.uuid = some uuid) :
      Imported (none, addCertificateAlias device (added device s e uuid np) .profiles
        (newProfile device s e uuid np).2 e.certAlias)

variable {device s e}

theorem imported_addEntry (device : Device) (hmodified : unmodified s e = false) :
    Imported device s e (addEntry device s e ((s.get e.uuid).map Prod.snd)) := by
  rw [addEntry, addProfile, ← importOf]
  cases himport : importOf device e with
  | error stop =>
      dsimp only
      cases hcaught : caught stop with
      | true =>
          rw [if_pos rfl]
          refine .rejected hmodified ?_ (.inl ?_)
          · simp [crashes, himport, hcaught]
          · rw [himport]
            rfl
      | false =>
          rw [if_neg Bool.false_ne_true]
          refine .stopped hmodified ?_
          simp [crashes, himport, hcaught]
  | ok np =>
      cases huuid : UUID.fromString e.uuid with
      | none =>
          refine .rejected hmodified ?_ (.inr huuid)
          simp [crashes, himport]
      | some uuid => exact .added hmodified himport huuid

/-- The four cases of an entry. -/
theorem imported_importEntry (device : Device) (s : ProfileManager) (e : Entry) :
    Imported device (s.searched e.uuid) e (importEntry device s e) := by
  rw [importEntry, find_eq]
  cases hget : (s.searched e.uuid).get e.uuid with
  | none =>
      have hmodified : unmodified (s.searched e.uuid) e = false := by
        rw [unmodified, hget]
        rfl
      have hadd := imported_addEntry device hmodified
      rwa [hget] at hadd
  | some found =>
      obtain ⟨holder, vp⟩ := found
      dsimp only
      split
      · rename_i hhash
        exact .unmodified hget hhash
      · rename_i hhash
        have hmodified : unmodified (s.searched e.uuid) e = false := by
          rw [unmodified, hget, Option.any_some, beq_eq_false_iff_ne]
          exact hhash
        have hadd := imported_addEntry device hmodified
        rwa [hget] at hadd

/-! ### A profile that is added -/

variable (device s e) (uuid : UUID) (np : VpnProfile)

@[simp] theorem mUuid_newProfile : (newProfile device s e uuid np).2.mUuid = uuid :=
  mUuid_saveProfile device _

theorem rest_newProfile : (newProfile device s e uuid np).2.rest =
    (provision (prepare e.ovpn) uuid e.name ((s.get e.uuid).map Prod.snd) np).rest :=
  rest_saveProfile device _

theorem managed_newProfile :
    (newProfile device s e uuid np).2.rest.mProfileCreator = some PROFILE_CREATOR := by
  rw [rest_newProfile]
  rfl

theorem hash_newProfile : (newProfile device s e uuid np).2.rest.importedProfileHash =
    some (hashConfig (prepare e.ovpn)) := by
  rw [rest_newProfile]
  rfl

theorem heldBy_added_self : (added device s e uuid np).heldBy .profiles uuid =
    some (newProfile device s e uuid np).2 := by
  have hself := heldBy_hold_self (s := (newProfile device s e uuid np).1) .profiles
    (newProfile device s e uuid np).2
  rwa [mUuid_newProfile] at hself

theorem saves_added : s.saves < (added device s e uuid np).saves := Nat.lt_succ_self _

variable {s}

theorem consistent_added (hs : s.Consistent) : (added device s e uuid np).Consistent := by
  have hname : (provision (prepare e.ovpn) uuid e.name ((s.get e.uuid).map Prod.snd) np).mName ≠
      none := Option.some_ne_none _
  exact hs.saveListed device _ rfl (.inl hname)

theorem touches_added : Touches uuid s (added device s e uuid np) := by
  refine ⟨fun holder w hw => ?_, fun w hw => ?_, (saves_added device s e uuid np).le,
    fun vp hvp => .inl ?_⟩
  · cases holder with
    | tmpprofile => rfl
    | profiles =>
        have hw' : w ≠ (newProfile device s e uuid np).2.mUuid := by rwa [mUuid_newProfile]
        exact Finmap.lookup_insert_of_ne _ hw'
  · change (newProfile device s e uuid np).1.load _ = _
    rw [newProfile, load_saveProfile_uuid device _ rfl]
    exact if_neg fun heq => hw (VpnEntry.uuid.inj heq)
  · have hself := heldBy_added_self device s e uuid np
    obtain rfl := Option.some.inj (hself.symm.trans hvp)
    intro hun
    exact hun.1 (managed_newProfile device s e uuid np)

end Import

/-! ### The lookup -/

section Lookup

variable {s s' : ProfileManager} {u : UUID}

theorem heldBy_tmpprofile_loadVPNList (hs : s.Consistent) (u : UUID) :
    s.loadVPNList.heldBy .tmpprofile u = s.heldBy .tmpprofile u := by
  rw [heldBy, heldBy, tmpprofile_loadVPNList hs]

/-- The profile that was found has the hash of the configuration. -/
def hasHash (e : Entry) (found : Option (Holder × ManagedProfile)) : Bool :=
  found.any fun f => f.2.rest.importedProfileHash == some (hashConfig e.ovpn)

theorem unmodified_eq (s : ProfileManager) (e : Entry) :
    unmodified s e = hasHash e (s.get e.uuid) := rfl

theorem hasHash_some {e : Entry} (holder : Holder) (vp : ManagedProfile) :
    hasHash e (some (holder, vp)) = true ↔
      vp.rest.importedProfileHash = some (hashConfig e.ovpn) := by
  rw [hasHash, Option.any_some, beq_iff_eq]

/-- The profiles with the UUID `u` are the same, except for one in the table that a
    managed configuration has neither made nor marked. -/
structure Keeps (u : UUID) (s s' : ProfileManager) : Prop where
  hidden : s'.heldBy .tmpprofile u = s.heldBy .tmpprofile u
  inTable : ∀ vp, ¬Unmanaged vp → (s'.profiles.lookup u = some vp ↔ s.profiles.lookup u = some vp)

theorem Keeps.refl (u : UUID) (s : ProfileManager) : Keeps u s s := ⟨rfl, fun _ _ => Iff.rfl⟩

theorem Keeps.symm (h : Keeps u s s') : Keeps u s' s :=
  ⟨h.hidden.symm, fun vp hvp => (h.inTable vp hvp).symm⟩

theorem Keeps.trans {s'' : ProfileManager} (h : Keeps u s s') (h' : Keeps u s' s'') :
    Keeps u s s'' :=
  ⟨h'.hidden.trans h.hidden, fun vp hvp => (h'.inTable vp hvp).trans (h.inTable vp hvp)⟩

theorem keeps_of_touches (h : Touches u s s') {w : UUID} (hw : w ≠ u) : Keeps w s s' :=
  ⟨h.held .tmpprofile w hw, fun vp _ => by rw [h.lookup hw]⟩

/-- What a managed configuration has made or marked was saved. -/
theorem keeps_loadVPNList (hs : s.Consistent) (u : UUID) : Keeps u s s.loadVPNList := by
  refine ⟨heldBy_tmpprofile_loadVPNList hs u, fun vp hvp => ?_⟩
  rw [lookup_loadVPNList hs]
  split
  · exact Iff.rfl
  · rename_i hsaved
    refine iff_of_false (fun h => nomatch h) fun hlookup => ?_
    exact hsaved (hs.saved_of_managed hlookup hvp)

theorem keeps_searched (hs : s.Consistent) (key : Text) (u : UUID) :
    Keeps u s (s.searched key) := by
  rw [searched]
  split
  · exact .refl u s
  · exact keeps_loadVPNList hs u

/-- A profile with the hash is found again. -/
theorem Keeps.get (h : Keeps u s s') {e : Entry} (hu : UUID.toString u = e.uuid)
    (hhash : hasHash e (s.get e.uuid) = true) : s'.get e.uuid = s.get e.uuid := by
  rw [← hu, get_toString] at hhash
  rw [← hu, get_toString, get_toString, h.hidden]
  cases hhidden : s.heldBy .tmpprofile u with
  | some tmp => rfl
  | none =>
      rw [hhidden] at hhash
      cases hlookup : s.heldBy .profiles u with
      | none =>
          rw [hlookup] at hhash
          cases hhash
      | some vp =>
          rw [hlookup] at hhash
          have hvp : ¬Unmanaged vp := by
            intro hun
            have hsome := (hasHash_some .profiles vp).mp hhash
            rw [hun.2] at hsome
            cases hsome
          rw [show s'.heldBy .profiles u = some vp from (h.inTable vp hvp).mpr hlookup]

theorem Keeps.hasHash (h : Keeps u s s') {e : Entry} (hu : UUID.toString u = e.uuid) :
    hasHash e (s'.get e.uuid) = hasHash e (s.get e.uuid) := by
  rw [Bool.eq_iff_iff]
  constructor
  · intro hhash
    rwa [← h.symm.get hu hhash] at hhash
  · intro hhash
    rwa [h.get hu hhash]

theorem consistent_searched (hs : s.Consistent) (key : Text) : (s.searched key).Consistent := by
  rw [searched]
  split
  · exact hs
  · exact hs.loadVPNList

theorem unmodified_searched (hs : s.Consistent) (key : Text) (e : Entry) :
    unmodified (s.searched key) e = unmodified s e := by
  rw [unmodified_eq, unmodified_eq]
  cases hkey : UUID.ofKey e.uuid with
  | none => rw [get_of_ofKey hkey, get_of_ofKey hkey]
  | some u => exact (keeps_searched hs key u).hasHash (UUID.ofKey_eq_some.mp hkey)

theorem load_searched (key : Text) (entry : VpnEntry) :
    (s.searched key).load entry = s.load entry := by
  rw [searched]
  split <;> rfl

/-- The entries of other UUIDs find what they would have found. -/
theorem get_of_touches (h : Touches u s s') {key : Text} (hkey : UUID.fromString key ≠ some u) :
    s'.get key = s.get key := by
  cases hofKey : UUID.ofKey key with
  | none => rw [get_of_ofKey hofKey, get_of_ofKey hofKey]
  | some w =>
      obtain rfl := UUID.ofKey_eq_some.mp hofKey
      refine h.get fun hw => hkey ?_
      rw [UUID.fromString_toString, hw]

theorem held_of_get {e : Entry} {holder : Holder} {vp : ManagedProfile}
    (hget : s.get e.uuid = some (holder, vp)) :
    ∃ u, UUID.toString u = e.uuid ∧ s.heldBy holder u = some vp := by
  cases hkey : UUID.ofKey e.uuid with
  | none =>
      rw [get_of_ofKey hkey] at hget
      cases hget
  | some u =>
      have htext := UUID.ofKey_eq_some.mp hkey
      rw [← htext] at hget
      exact ⟨u, htext, get_toString_eq_some hget⟩

end Lookup

/-! ### An entry -/

section Entry

variable (device : Device) {s : ProfileManager} (e : Entry)

theorem importEntry_spec (hs : s.Consistent) :
    (importEntry device s e).2.Consistent ∧ ∀ u, UUID.fromString e.uuid = some u →
      Touches u (s.searched e.uuid) (importEntry device s e).2 := by
  have ht := consistent_searched hs e.uuid
  have himported := imported_importEntry device s e
  generalize importEntry device s e = r at himported ⊢
  cases himported with
  | @unmodified holder vp hget hhash =>
      obtain ⟨w, htext, hheld⟩ := held_of_get hget
      have hsome : vp.rest.importedProfileHash ≠ none := by
        rw [hhash]
        exact Option.some_ne_none _
      refine ⟨consistent_addCertificateAlias device _ ht hheld hsome, fun u hu => ?_⟩
      rw [← htext, UUID.fromString_toString] at hu
      exact Option.some.inj hu ▸ touches_addCertificateAlias device _ ht hheld hsome
  | rejected _ _ _ => exact ⟨ht, fun u _ => .refl u _⟩
  | stopped _ _ => exact ⟨ht, fun u _ => .refl u _⟩
  | @added np uuid _ _ huuid =>
      have hadded := consistent_added device e uuid np ht
      have hheld := heldBy_added_self device (s.searched e.uuid) e uuid np
      have hhash : (newProfile device (s.searched e.uuid) e uuid np).2.rest.importedProfileHash ≠
          none := by
        rw [hash_newProfile]
        exact Option.some_ne_none _
      refine ⟨consistent_addCertificateAlias device _ hadded hheld hhash, fun u hu => ?_⟩
      obtain rfl := Option.some.inj (huuid.symm.trans hu)
      exact (touches_added device e uuid np).trans
        (touches_addCertificateAlias device _ hadded hheld hhash)

end Entry

end AppRestrictions

end OpenVpnAndroid
