/-
  OpenVpnAndroid/Reconciliation.lean
  ==================================
  **The managed profiles after a bundle are those of its list.**

  The import knows a profile by the UUID value of its entry, the removal after it by
  the text.  A spelling that is not the text of its UUID is not found by a lookup and
  is not recognised by the removal, so its profile is imported and removed again.  A
  profile that is taken for unmodified stays with whoever has created it.  And a
  lookup that finds nothing loads the table again, without the profiles that were
  added and not saved.  In all other cases the managed profiles are those of the list
  and no other profile changes (`reconciled_iff`).
-/
import OpenVpnAndroid.EntryImport
import OpenVpnAndroid.Machine

namespace OpenVpnAndroid

namespace AppRestrictions

open ConfigParser (toLowerCase)
open ProfileManager

/-- A profile with that UUID is stored that a managed configuration has made. -/
def Managed (s : ProfileManager) (u : UUID) : Prop :=
  ∃ vp, s.profiles.lookup u = some vp ∧ vp.rest.mProfileCreator = some PROFILE_CREATOR

/-- The lookup of the entry loads the table again. -/
def missing (s : ProfileManager) (e : Entry) : Bool := !isCurrent 0 (s.get e.uuid)

section Lookup

variable {s s' : ProfileManager} {u w : UUID} {e : Entry}

theorem Managed.saved (h : Managed s u) (hs : s.Consistent) : s.Saved u := by
  obtain ⟨vp, hlookup, hcreator⟩ := h
  exact hs.saved_of_managed hlookup fun hun => hun.1 hcreator

theorem managed_congr (h : s'.profiles.lookup u = s.profiles.lookup u) :
    Managed s' u ↔ Managed s u := by
  rw [Managed, Managed, h]

/-- What is managed is saved and survives a load. -/
theorem managed_of_kept {lost : Prop} [Decidable lost] (hs : s.Consistent)
    (h : s'.profiles.lookup u = if lost ∧ ¬s.Saved u then none else s.profiles.lookup u) :
    Managed s' u ↔ Managed s u := by
  split at h
  · rename_i hlost
    constructor
    · rintro ⟨vp, hlookup, _⟩
      rw [h] at hlookup
      cases hlookup
    · exact fun hmanaged => absurd (hmanaged.saved hs) hlost.2
  · exact managed_congr h

theorem lookup_searched (hs : s.Consistent) (e : Entry) (u : UUID) :
    (s.searched e.uuid).profiles.lookup u =
      if missing s e = true ∧ ¬s.Saved u then none else s.profiles.lookup u := by
  rw [searched, missing]
  cases isCurrent 0 (s.get e.uuid) with
  | true => simp
  | false =>
      rw [if_neg Bool.false_ne_true, lookup_loadVPNList hs]
      by_cases hsaved : s.Saved u <;> simp [hsaved]

end Lookup

/-! ### One entry -/

section Entry

variable {device : Device} {s : ProfileManager} {e : Entry} {u : UUID} {np : VpnProfile}

/-- An entry that the importer accepts.  It changes nothing but its own profile, and
    that one is managed then, if it was imported or was managed before. -/
theorem importEntry_accepted (hs : s.Consistent) (himport : importOf device e = .ok np)
    (hu : UUID.fromString e.uuid = some u) :
    (importEntry device s e).1 = none ∧
      (Managed (importEntry device s e).2 u ↔ (unmodified s e = true → Managed s u)) := by
  have ht := consistent_searched hs e.uuid
  have hmodified := unmodified_searched hs e.uuid e
  have himported := imported_importEntry device s e
  generalize importEntry device s e = r at himported ⊢
  cases himported with
  | @unmodified holder vp hget hhash =>
      obtain ⟨w, htext, hheld⟩ := held_of_get hget
      rw [← htext, UUID.fromString_toString] at hu
      obtain rfl := Option.some.inj hu
      have hunmodified : unmodified s e = true := by
        rw [← hmodified, unmodified, hget, Option.any_some, hhash]
        exact beq_self_eq_true _
      have hsearched : Managed (s.searched e.uuid) w ↔ Managed s w :=
        managed_of_kept hs (lookup_searched hs e w)
      refine ⟨rfl, ?_⟩
      rw [hunmodified, ← hsearched]
      simp only [true_imp_iff]
      cases holder with
      | tmpprofile =>
          have hne : Holder.profiles ≠ .tmpprofile := Holder.noConfusion
          exact managed_congr (heldBy_addCertificateAlias_of_ne device e.certAlias hne w)
      | profiles =>
          obtain ⟨version, hversion⟩ := heldBy_addCertificateAlias device e.certAlias ht hheld
          constructor
          · rintro ⟨vp', hvp', hcreator⟩
            obtain rfl := Option.some.inj (hversion.symm.trans hvp')
            exact ⟨vp, hheld, hcreator⟩
          · rintro ⟨vp', hvp', hcreator⟩
            obtain rfl := Option.some.inj (hheld.symm.trans hvp')
            exact ⟨_, hversion, hcreator⟩
  | rejected _ _ hfails =>
      obtain hfails | hfails := hfails
      · rw [himport] at hfails
        cases hfails
      · rw [hu] at hfails
        cases hfails
  | stopped _ hcrash =>
      rw [crashes, himport] at hcrash
      cases hcrash
  | @added np' uuid hmod himport' huuid =>
      obtain rfl := Option.some.inj (hu.symm.trans huuid)
      obtain ⟨version, hversion⟩ := heldBy_addCertificateAlias device e.certAlias
        (consistent_added device e u np' ht)
        (heldBy_added_self device (s.searched e.uuid) e u np')
      refine ⟨rfl, fun _ hunmodified => ?_, fun _ => ⟨_, hversion, ?_⟩⟩
      · rw [← hmodified, hmod] at hunmodified
        cases hunmodified
      · exact managed_newProfile device (s.searched e.uuid) e u np'

end Entry

/-! ### The list -/

/-- The UUID that the entry is imported under. -/
def Entry.uuidValue (e : Entry) : Option UUID := UUID.fromString e.uuid

/-- The importer accepts the entry. -/
def Accepted (device : Device) (e : Entry) : Prop :=
  (∃ np, importOf device e = .ok np) ∧ ∃ u, e.uuidValue = some u

/-- The manager `s'` after the import of the entries. -/
structure ImportedAll (device : Device) (es : List Entry) (s s' : ProfileManager) : Prop where
  consistent : s'.Consistent
  load : ∀ w, some w ∉ es.map Entry.uuidValue → s'.load (.uuid w) = s.load (.uuid w)
  others : ∀ w, some w ∉ es.map Entry.uuidValue → s'.profiles.lookup w =
    if es.any (missing s) = true ∧ ¬s.Saved w then none else s.profiles.lookup w
  managed : ∀ e ∈ es, ∀ u, e.uuidValue = some u →
    (Managed s' u ↔ (unmodified s e = true → Managed s u))

/-- By induction on the list, with the manager after the first entry. -/
theorem importEntries_accepted {device : Device} {es : List Entry} {s : ProfileManager}
    (hs : s.Consistent) (haccepted : ∀ e ∈ es, Accepted device e)
    (hdistinct : (es.map Entry.uuidValue).Nodup) :
    (importEntries device es s).1 = none ∧
      ImportedAll device es s (importEntries device es s).2 := by
  induction es generalizing s with
  | nil =>
      exact ⟨rfl, hs, fun _ _ => rfl, fun w _ => by simp [importEntries], fun e he => nomatch he⟩
  | cons e es ih =>
      rw [List.map_cons, List.nodup_cons] at hdistinct
      obtain ⟨hnotin, hdistinct⟩ := hdistinct
      obtain ⟨⟨np, himport⟩, u, hu⟩ := haccepted e List.mem_cons_self
      obtain ⟨hended, hmanaged⟩ := importEntry_accepted hs himport hu
      obtain ⟨hconsistent, htouches⟩ := importEntry_spec device e hs
      have htouches := htouches u hu
      rw [importEntries]
      generalize importEntry device s e = r at hended hconsistent htouches hmanaged
      obtain ⟨stop, s₁⟩ := r
      dsimp only at hended hconsistent htouches hmanaged
      subst hended
      obtain ⟨hended, hall⟩ := ih hconsistent
        (fun e' he' => haccepted e' (List.mem_cons_of_mem e he')) hdistinct
      refine ⟨hended, hall.consistent, ?_, ?_, ?_⟩
      -- the first entry leaves the files and the other profiles alone
      · intro w hw
        rw [List.map_cons, List.mem_cons, not_or] at hw
        have hne : w ≠ u := fun heq => hw.1 (by rw [heq, hu])
        rw [hall.load w hw.2, htouches.load w hne, load_searched]
      · intro w hw
        rw [List.map_cons, List.mem_cons, not_or] at hw
        have hne : w ≠ u := fun heq => hw.1 (by rw [heq, hu])
        have hload : s₁.Saved w ↔ s.Saved w := by
          rw [Saved, Saved, htouches.load w hne, load_searched]
        have hfirst := (htouches.lookup hne).trans (lookup_searched hs e w)
        rw [hall.others w hw.2, hfirst, List.any_cons]
        simp only [hload]
        cases hmissing : missing s e with
        | true => by_cases hsaved : s.Saved w <;> simp [hsaved]
        | false =>
            have hsame : ∀ e' ∈ es, missing s₁ e' = missing s e' := by
              intro e' he'
              have hkey : UUID.fromString e'.uuid ≠ some u := by
                intro heq
                exact hnotin (hu ▸ heq ▸ List.mem_map_of_mem he')
              rw [missing, Bool.not_eq_false'] at hmissing
              rw [missing, missing, get_of_touches htouches hkey, searched, if_pos hmissing]
            have hrest : es.any (missing s₁) = es.any (missing s) := by
              rw [Bool.eq_iff_iff, List.any_eq_true, List.any_eq_true]
              exact exists_congr fun e' => and_congr_right fun he' => by rw [hsame e' he']
            simp [hrest]
      · intro e' he' w hw
        rw [List.mem_cons] at he'
        obtain rfl | he' := he'
        · obtain rfl := Option.some.inj (hu.symm.trans hw)
          rw [← hmanaged]
          exact managed_of_kept hconsistent (hall.others u (hu ▸ hnotin))
        · have hne : w ≠ u := by
            rintro rfl
            exact hnotin (hu ▸ hw ▸ List.mem_map_of_mem he')
          have hkey : UUID.fromString e'.uuid ≠ some u := by
            intro heq
            exact hne (Option.some.inj (hw.symm.trans heq))
          have hunmodified : unmodified s₁ e' = unmodified s e' := by
            rw [← unmodified_searched hs e.uuid e', unmodified, unmodified,
              get_of_touches htouches hkey]
          have hbefore : Managed s₁ w ↔ Managed s w :=
            managed_of_kept hs ((htouches.lookup hne).trans (lookup_searched hs e w))
          rw [hall.managed e' he' w hw, hunmodified, hbefore]

/-! ### The removal -/

section Removal

variable {s : ProfileManager}

theorem mem_getProfiles (vp : ManagedProfile) :
    vp ∈ s.getProfiles ↔ ∃ u, s.profiles.lookup u = some vp := by
  simp only [getProfiles, List.mem_filterMap, Finset.mem_sort, Finmap.mem_keys]
  constructor
  · rintro ⟨u, _, hlookup⟩
    exact ⟨u, hlookup⟩
  · rintro ⟨u, hlookup⟩
    exact ⟨u, Finmap.mem_of_lookup_eq_some hlookup, hlookup⟩

theorem foldl_removeProfile (hs : s.Consistent) (vps : List ManagedProfile) :
    (vps.foldl removeProfile s).Consistent ∧ ∀ u, (vps.foldl removeProfile s).profiles.lookup u =
      if u ∈ vps.map StoredProfile.mUuid then none else s.profiles.lookup u := by
  induction vps generalizing s with
  | nil => exact ⟨hs, fun u => by simp⟩
  | cons vp vps ih =>
      obtain ⟨hconsistent, hlookup⟩ := ih (hs.removeProfile vp)
      refine ⟨hconsistent, fun u => ?_⟩
      rw [List.foldl_cons, hlookup, lookup_removeProfile]
      by_cases hu : u = vp.mUuid
      · simp [hu]
      · simp [hu]

theorem mem_profilesToRemove (hs : s.Consistent) (provisionedUuids : List Text) (u : UUID) :
    u ∈ (profilesToRemove s provisionedUuids).map StoredProfile.mUuid ↔
      Managed s u ∧ UUID.toString u ∉ provisionedUuids := by
  simp only [profilesToRemove, List.mem_map, List.mem_filter, mem_getProfiles, Bool.and_eq_true,
    beq_iff_eq, Bool.not_eq_true', List.contains_eq_mem, decide_eq_false_iff_not]
  constructor
  · rintro ⟨vp, ⟨⟨w, hlookup⟩, hcreator, hnotin⟩, rfl⟩
    obtain rfl := (hs.ofTable w vp hlookup).1
    exact ⟨⟨vp, hlookup, hcreator⟩, hnotin⟩
  · rintro ⟨⟨vp, hlookup, hcreator⟩, hnotin⟩
    obtain rfl := (hs.ofTable u vp hlookup).1
    exact ⟨vp, ⟨⟨_, hlookup⟩, hcreator, hnotin⟩, rfl⟩

open Classical in
theorem lookup_removeProfiles (hs : s.Consistent) (provisionedUuids : List Text) (u : UUID) :
    (removeProfiles s provisionedUuids).profiles.lookup u =
      if Managed s u ∧ UUID.toString u ∉ provisionedUuids then none
      else s.profiles.lookup u := by
  rw [removeProfiles, (foldl_removeProfile hs _).2]
  simp only [mem_profilesToRemove hs]

theorem managed_removeProfiles (hs : s.Consistent) (provisionedUuids : List Text) (u : UUID) :
    Managed (removeProfiles s provisionedUuids) u ↔
      Managed s u ∧ UUID.toString u ∈ provisionedUuids := by
  rw [Managed, lookup_removeProfiles hs]
  split
  · rename_i hremoved
    simp [hremoved.2]
  · rename_i hkept
    constructor
    · intro hmanaged
      exact ⟨hmanaged, by_contra fun hnotin => hkept ⟨hmanaged, hnotin⟩⟩
    · exact And.left

end Removal

/-! ### The store over a run -/

section Run

variable {device : Device}

theorem consistent_importEntries (device : Device) {s : ProfileManager} (hs : s.Consistent)
    (es : List Entry) :
    (importEntries device es s).2.Consistent := by
  induction es generalizing s with
  | nil => exact hs
  | cons e es ih =>
      have hconsistent := (importEntry_spec device e hs).1
      rw [importEntries]
      generalize importEntry device s e = r at hconsistent ⊢
      obtain ⟨_ | stop, s₁⟩ := r
      · exact ih hconsistent
      · exact hconsistent

theorem consistent_parseRestrictionsBundle {app : App} (hs : app.manager.Consistent)
    (restrictions : Option Restrictions) :
    (parseRestrictionsBundle device app restrictions).2.manager.Consistent := by
  cases restrictions with
  | none => exact hs
  | some restrictions =>
      have hentries := consistent_importEntries device hs
        (entries (restrictions.vpn_configuration_list.getD []))
      rw [parseRestrictionsBundle]
      split
      · dsimp only
        rw [importVPNProfiles]
        generalize importEntries device (entries (restrictions.vpn_configuration_list.getD []))
          app.manager = r at hentries ⊢
        obtain ⟨_ | stop, manager⟩ := r
        · exact (foldl_removeProfile hentries _).1
        · exact hentries
      · exact hs

/-- What happens to the store.  A profile of the user or of another app is not managed. -/
inductive AppEvent where
  | newProcess
  | addProfile (vp : ManagedProfile) (unmanaged : Unmanaged vp)
  | setTemporaryProfile (tmp : ManagedProfile)
  | removeProfile (vp : ManagedProfile)
  | parseRestrictionsBundle (restrictions : Option Restrictions)

def step (device : Device) (app : App) : AppEvent → App
  | .newProcess => { app with manager := app.manager.newProcess }
  | .addProfile vp _ =>
      let (s, vp) := app.manager.saveProfile device { vp with mTemporaryProfile := false }
      { app with manager := (s.addProfile vp).saveProfileList }
  | .setTemporaryProfile tmp =>
      let (s, tmp) := app.manager.saveProfile device { tmp with mTemporaryProfile := true }
      { app with manager := s.hold .tmpprofile tmp }
  | .removeProfile vp => { app with manager := app.manager.removeProfile vp }
  | .parseRestrictionsBundle restrictions =>
      (AppRestrictions.parseRestrictionsBundle device app restrictions).2

/-- An app without profiles. -/
def freshApp : App where
  manager :=
    { profiles := ∅
      tmpprofile := none
      encryptionBroken := false
      vpnlist := ∅
      counter := 0
      files := fun _ _ => none
      saves := 0 }
  prefs := ⟨∅, false, 0, none, none, none⟩

def machine (device : Device) : Machine App AppEvent := ⟨freshApp, step device⟩

theorem consistent_freshApp : freshApp.manager.Consistent where
  ofTable _ _ h := nomatch h
  ofFile _ _ h := nomatch h
  listed _ _ _ h := nomatch h
  saved _ _ h := nomatch h
  temporary _ h := nomatch h
  ofTemporary _ h := nomatch h

/-- The store of a run is consistent. -/
theorem consistent_run (device : Device) (es : List AppEvent) :
    ((machine device).run es).manager.Consistent := by
  refine (machine device).invariant (I := fun app => app.manager.Consistent) consistent_freshApp
    (fun app e hs => ?_) es
  cases e with
  | newProcess => exact hs.newProcess
  | addProfile vp unmanaged =>
      exact hs.saveListed device { vp with mTemporaryProfile := false } rfl (.inr unmanaged)
  | setTemporaryProfile tmp =>
      exact hs.saveTemporary device { tmp with mTemporaryProfile := true } rfl
  | removeProfile vp => exact hs.removeProfile vp
  | parseRestrictionsBundle restrictions =>
      exact consistent_parseRestrictionsBundle hs restrictions

end Run

/-! ### The bundle -/

/-- The managed profiles are those of the UUIDs, and the others are as before. -/
def Reconciled (before after : ProfileManager) (uuids : List UUID) : Prop :=
  (∀ u, Managed after u ↔ u ∈ uuids) ∧
    ∀ u ∉ uuids, ∀ vp, before.profiles.lookup u = some vp →
      vp.rest.mProfileCreator ≠ some PROFILE_CREATOR → after.profiles.lookup u = some vp

/-- What the store and the entries must be for that: the texts are those of their
    UUIDs, a profile that is taken for unmodified is a managed one, and if a lookup loads
    the table then the other profiles were saved. -/
structure Reconcilable (s : ProfileManager) (es : List Entry) : Prop where
  canonical : ∀ e ∈ es, (UUID.ofKey e.uuid).isSome
  recognised : ∀ e ∈ es, unmodified s e = true → ∀ u, e.uuidValue = some u → Managed s u
  saved : es.any (missing s) = true → ∀ u, some u ∉ es.map Entry.uuidValue →
    ∀ vp, s.profiles.lookup u = some vp → vp.rest.mProfileCreator ≠ some PROFILE_CREATOR →
      s.Saved u

theorem reconciled_removeProfiles_iff {device : Device} {es : List Entry} {s : ProfileManager}
    (hs : s.Consistent) (haccepted : ∀ e ∈ es, Accepted device e)
    (hdistinct : (es.map Entry.uuidValue).Nodup) {uuids : List UUID}
    (huuids : es.map Entry.uuidValue = uuids.map some) :
    Reconciled s (removeProfiles (importEntries device es s).2 (es.map Entry.uuid)) uuids ↔
      Reconcilable s es := by
  obtain ⟨_, hall⟩ := importEntries_accepted hs haccepted hdistinct
  generalize (importEntries device es s).2 = s' at hall ⊢
  have hmem : ∀ u, u ∈ uuids ↔ some u ∈ es.map Entry.uuidValue := by
    intro u
    rw [huuids, List.mem_map_of_injective (Option.some_injective _)]
  -- among the texts there is that of `u` only if it is the one of the entry with `u`
  have htext : ∀ e ∈ es, ∀ u, e.uuidValue = some u →
      (UUID.toString u ∈ es.map Entry.uuid ↔ UUID.ofKey e.uuid = some u) := by
    intro e he u hu
    rw [UUID.ofKey_eq_some, List.mem_map]
    constructor
    · rintro ⟨e', he', htext⟩
      have hvalue : e'.uuidValue = e.uuidValue := by
        rw [hu, Entry.uuidValue, htext, UUID.fromString_toString]
      rw [← List.inj_on_of_nodup_map hdistinct he' he hvalue, htext]
    · exact fun htext => ⟨e, he, htext.symm⟩
  constructor
  · rintro ⟨hmanaged, hothers⟩
    have hfinal : ∀ e ∈ es, ∀ u, e.uuidValue = some u →
        Managed s' u ∧ UUID.toString u ∈ es.map Entry.uuid := by
      intro e he u hu
      rw [← managed_removeProfiles hall.consistent, hmanaged, hmem, ← hu]
      exact List.mem_map_of_mem he
    refine ⟨?_, ?_, ?_⟩
    · intro e he
      obtain ⟨_, u, hu⟩ := haccepted e he
      rw [(htext e he u hu).mp (hfinal e he u hu).2]
      rfl
    · intro e he hunmodified u hu
      exact (hall.managed e he u hu).mp (hfinal e he u hu).1 hunmodified
    · intro hmissing u hu vp hlookup hcreator
      have hafter := hothers u (mt (hmem u).mp hu) vp hlookup hcreator
      rw [lookup_removeProfiles hall.consistent, hall.others u hu] at hafter
      by_contra hsaved
      simp [hmissing, hsaved] at hafter
  · rintro ⟨hcanonical, hrecognised, hsaved⟩
    refine ⟨fun u => ?_, fun u hu vp hlookup hcreator => ?_⟩
    · rw [managed_removeProfiles hall.consistent, hmem]
      constructor
      · rintro ⟨_, htextmem⟩
        obtain ⟨e, he, heq⟩ := List.mem_map.mp htextmem
        have hvalue : e.uuidValue = some u := by
          rw [Entry.uuidValue, heq, UUID.fromString_toString]
        exact hvalue ▸ List.mem_map_of_mem he
      · intro hu
        obtain ⟨e, he, hvalue⟩ := List.mem_map.mp hu
        refine ⟨(hall.managed e he u hvalue).mpr fun hun => hrecognised e he hun u hvalue, ?_⟩
        rw [htext e he u hvalue]
        obtain ⟨w, hw⟩ := Option.isSome_iff_exists.mp (hcanonical e he)
        have hsame := UUID.fromString_toString w
        rw [UUID.ofKey_eq_some.mp hw, ← Entry.uuidValue, hvalue] at hsame
        rw [hw, ← Option.some.inj hsame]
    · rw [hmem] at hu
      have hkept : s'.profiles.lookup u = some vp := by
        rw [hall.others u hu, if_neg, hlookup]
        rintro ⟨hmissing, hnot⟩
        exact hnot (hsaved hmissing u hu vp hlookup hcreator)
      rw [lookup_removeProfiles hall.consistent, if_neg, hkept]
      rintro ⟨⟨vp', hvp', hcreator'⟩, _⟩
      obtain rfl := Option.some.inj (hkept.symm.trans hvp')
      exact hcreator hcreator'

/-! ### Well-formed bundles -/

/-- The UUID value of the spelling in the list. -/
def Parcelable.uuidValue : Parcelable → Option UUID
  | .bundle p => p.uuid.bind UUID.fromString
  | .other => none

def profileList (restrictions : Restrictions) : List Parcelable :=
  restrictions.vpn_configuration_list.getD []

/-- The UUIDs of the list. -/
def provisionedUuids (restrictions : Restrictions) : List UUID :=
  (profileList restrictions).filterMap Parcelable.uuidValue

/-- A bundle of the expected version whose entries have the keys they need, spell
    distinct UUIDs and have configurations that the importer accepts. -/
structure WellFormed (device : Device) (restrictions : Restrictions) : Prop where
  expected : Expected restrictions
  keys : ∀ p ∈ profileList restrictions, p.entry.isSome
  spelled : ∀ p ∈ profileList restrictions, p.uuidValue.isSome
  distinct : (provisionedUuids restrictions).Nodup
  accepted : ∀ p ∈ profileList restrictions, ∀ e, p.entry = some e →
    ∃ np, importOf device e = .ok np

/-- The entry spells the same UUID in lower case. -/
theorem uuidValue_entry {p : Parcelable} {e : Entry} (h : p.entry = some e) :
    e.uuidValue = p.uuidValue := by
  cases p with
  | other => cases h
  | bundle p =>
      rw [Parcelable.entry] at h
      split at h
      · cases h
      · rename_i hkeys
        obtain rfl := Option.some.inj h
        rw [Entry.uuidValue, UUID.fromString_toLowerCase, Parcelable.uuidValue]
        cases huuid : p.uuid with
        | none => simp [huuid, isEmptyText] at hkeys
        | some uuid => rfl

theorem map_uuidValue_entries {ps : List Parcelable} (hkeys : ∀ p ∈ ps, p.entry.isSome)
    (hspelled : ∀ p ∈ ps, p.uuidValue.isSome) :
    (entries ps).map Entry.uuidValue = (ps.filterMap Parcelable.uuidValue).map some := by
  induction ps with
  | nil => rfl
  | cons p ps ih =>
      have hrest := ih (fun p' hp' => hkeys p' (List.mem_cons_of_mem p hp'))
        (fun p' hp' => hspelled p' (List.mem_cons_of_mem p hp'))
      obtain ⟨e, he⟩ := Option.isSome_iff_exists.mp (hkeys p List.mem_cons_self)
      obtain ⟨u, hu⟩ := Option.isSome_iff_exists.mp (hspelled p List.mem_cons_self)
      rw [entries] at hrest ⊢
      rw [List.filterMap_cons_some he, List.filterMap_cons_some hu, List.map_cons, List.map_cons,
        hrest, uuidValue_entry he, hu]

theorem accepted_entries {device : Device} {restrictions : Restrictions}
    (h : WellFormed device restrictions) :
    ∀ e ∈ entries (profileList restrictions), Accepted device e := by
  intro e he
  obtain ⟨p, hp, hentry⟩ := List.mem_filterMap.mp he
  obtain ⟨u, hu⟩ := Option.isSome_iff_exists.mp (h.spelled p hp)
  exact ⟨h.accepted p hp e hentry, u, (uuidValue_entry hentry).trans hu⟩

/-- A bundle whose import ends. -/
theorem parseRestrictionsBundle_of_ended {device : Device} {app : App}
    {restrictions : Restrictions} (hexpected : Expected restrictions)
    (hended : (importEntries device (entries (profileList restrictions)) app.manager).1 = none) :
    parseRestrictionsBundle device app (some restrictions) =
      (none,
        { manager := removeProfiles
            (importEntries device (entries (profileList restrictions)) app.manager).2
            ((entries (profileList restrictions)).map Entry.uuid)
          prefs := setMiscSettings (setAllowedRemoteControl (setDefaultProfile app.prefs
            restrictions.defaultprofile ((entries (profileList restrictions)).map Entry.uuid))
            restrictions) restrictions }) := by
  rw [parseRestrictionsBundle, if_pos hexpected]
  dsimp only
  rw [importVPNProfiles, ← profileList]
  generalize importEntries device (entries (profileList restrictions)) app.manager = r at hended ⊢
  obtain ⟨stop, manager⟩ := r
  obtain rfl := hended
  rfl

/-- A bundle whose import is stopped leaves the preferences. -/
theorem parseRestrictionsBundle_of_stopped {device : Device} {app : App}
    {restrictions : Restrictions} (hexpected : Expected restrictions) {stop : Stop}
    (hstopped : (importEntries device (entries (profileList restrictions)) app.manager).1 =
      some stop) :
    parseRestrictionsBundle device app (some restrictions) =
      (some stop, { app with
        manager := (importEntries device (entries (profileList restrictions)) app.manager).2 }) := by
  rw [parseRestrictionsBundle, if_pos hexpected]
  dsimp only
  rw [importVPNProfiles, ← profileList]
  generalize importEntries device (entries (profileList restrictions)) app.manager = r
    at hstopped ⊢
  obtain ⟨stop', manager⟩ := r
  obtain rfl := hstopped
  rfl

theorem reconciled_parseRestrictionsBundle_iff {device : Device} {app : App}
    {restrictions : Restrictions} (hs : app.manager.Consistent)
    (h : WellFormed device restrictions) :
    (parseRestrictionsBundle device app (some restrictions)).1 = none ∧
      (Reconciled app.manager (parseRestrictionsBundle device app (some restrictions)).2.manager
          (provisionedUuids restrictions) ↔
        Reconcilable app.manager (entries (profileList restrictions))) := by
  have haccepted := accepted_entries h
  have huuids := map_uuidValue_entries h.keys h.spelled
  have hdistinct : ((entries (profileList restrictions)).map Entry.uuidValue).Nodup := by
    rw [huuids]
    exact h.distinct.map (Option.some_injective _)
  obtain ⟨hended, _⟩ := importEntries_accepted hs haccepted hdistinct
  rw [parseRestrictionsBundle_of_ended h.expected hended]
  exact ⟨rfl, reconciled_removeProfiles_iff hs haccepted hdistinct huuids⟩

/-! ### Examples of bundles -/

def plainDevice : Device := ⟨.sorted, fun _ => ⟨false, false, false, .opened⟩⟩

/-- A bundle with one profile. -/
def oneProfile (uuid ovpn : Text) : Restrictions where
  version := some "1"
  vpn_configuration_list := some [.bundle ⟨some uuid, some ovpn, some "Unit Test VPN", none⟩]
  defaultprofile := none
  allowed_remote_access := none
  screenoffpausevpn := none
  restartvpnonboot := none

def miniconfig : Text := "client\nremote test.blinkt.de\n"

theorem wellFormed_oneProfile {uuid : Text} (hspelled : (UUID.fromString uuid).isSome) :
    WellFormed plainDevice (oneProfile uuid miniconfig) := by
  have hne : uuid.isEmpty = false := by
    cases uuid with
    | nil => cases hspelled
    | cons c uuid => rfl
  obtain ⟨u, hu⟩ := Option.isSome_iff_exists.mp hspelled
  have huuid :
      (Parcelable.bundle ⟨some uuid, some miniconfig, some "Unit Test VPN", none⟩).uuidValue =
        some u := hu
  have hversion : parseInt ("1" : Text) = some CONFIG_VERSION := by decide
  refine ⟨hversion, ?_, ?_, ?_, ?_⟩
  · intro p hp
    obtain rfl := List.mem_singleton.mp hp
    have hconfig : miniconfig.isEmpty = false := by decide
    simp [Parcelable.entry, isEmptyText, hne, hconfig]
  · intro p hp
    obtain rfl := List.mem_singleton.mp hp
    rw [huuid]
    rfl
  · have hone : provisionedUuids (oneProfile uuid miniconfig) = [u] := by
      change List.filterMap Parcelable.uuidValue [_] = _
      rw [List.filterMap_cons_some huuid]
      rfl
    rw [hone]
    exact List.nodup_singleton u
  · intro p hp e he
    obtain rfl := List.mem_singleton.mp hp
    have hovpn : e.ovpn = miniconfig := by
      rw [Parcelable.entry] at he
      split at he
      · cases he
      · obtain rfl := Option.some.inj he
        rfl
    rw [importOf, hovpn]
    have hok :
        (ConfigParser.importProfile plainDevice.java (prepare miniconfig)).toOption.isSome := by
      decide +kernel
    obtain ⟨np, hnp⟩ := Option.isSome_iff_exists.mp hok
    exact ⟨np, by
      cases himport : ConfigParser.importProfile plainDevice.java (prepare miniconfig) with
      | error stop =>
          rw [himport] at hnp
          cases hnp
      | ok np' =>
          rw [himport] at hnp
          obtain rfl := Option.some.inj hnp
          rfl⟩

/-! ### Reconciliation -/

/-- **The managed profiles are those of the list** and no other profile changes, after
    any well-formed bundle and from any consistent store, exactly if the spellings are
    the texts of their UUIDs, what is taken for unmodified is managed, and a lookup does
    not drop a profile that was not saved. -/
theorem reconciled_iff (device : Device) (app : App) (restrictions : Restrictions)
    (hs : app.manager.Consistent) (h : WellFormed device restrictions) :
    let result := parseRestrictionsBundle device app (some restrictions)
    result.1 = none ∧
      (Reconciled app.manager result.2.manager (provisionedUuids restrictions) ↔
        Reconcilable app.manager (entries (profileList restrictions))) :=
  reconciled_parseRestrictionsBundle_iff hs h

/-- The bundle of the tests, from an app without profiles. -/
theorem reconciled_iff_miniconfig :
    let restrictions := oneProfile "F8AEE125-2D7A-44E9-B9EB-82FB619D51CC" miniconfig
    let result := parseRestrictionsBundle plainDevice freshApp (some restrictions)
    result.1 = none ∧
      (Reconciled freshApp.manager result.2.manager (provisionedUuids restrictions) ↔
        Reconcilable freshApp.manager (entries (profileList restrictions))) :=
  reconciled_iff plainDevice freshApp _ consistent_freshApp
    (wellFormed_oneProfile (by decide +kernel))

/-- A profile whose UUID is spelled with short groups is imported and removed. -/
theorem not_reconciled_short_groups :
    ¬ ∀ (device : Device) (app : App) (restrictions : Restrictions), app.manager.Consistent →
      WellFormed device restrictions →
      Reconciled app.manager
        (parseRestrictionsBundle device app (some restrictions)).2.manager
        (provisionedUuids restrictions) := by
  intro hall
  have hwell : WellFormed plainDevice (oneProfile "1-1-1-1-1" miniconfig) :=
    wellFormed_oneProfile (by decide +kernel)
  have hreconciled := hall plainDevice freshApp _ consistent_freshApp hwell
  have hcanonical := ((reconciled_parseRestrictionsBundle_iff consistent_freshApp hwell).2.mp
    hreconciled).canonical
  have hnot : ∃ e ∈ entries (profileList (oneProfile "1-1-1-1-1" miniconfig)),
      (UUID.ofKey e.uuid).isSome = false := by
    decide +kernel
  obtain ⟨e, he, hnone⟩ := hnot
  rw [hcanonical e he] at hnone
  cases hnone

end AppRestrictions

end OpenVpnAndroid
