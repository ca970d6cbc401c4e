/-
  OpenVpnAndroid/Recognition.lean
  ===============================
  **What an entry leaves for its next lookup.**

  A profile that was imported carries a hash, by which the next application of its
  bundle knows it.  `addProfile` takes the hash of a text that `prepare` has already
  decoded, and `hashConfig` decodes it again; the comparison is with the hash of the
  text of the bundle.  So the profile is recognised if the two hashes agree and no
  temporary profile hides it (`Recognisable`).

  Everything else that an entry may have found is as it was: the alias and its type
  are set once, and a configuration that the importer rejects is rejected again
  (`Processed`).
-/
import OpenVpnAndroid.Reconciliation

namespace OpenVpnAndroid

namespace AppRestrictions

open ProfileManager

/-! ### Tables that are all saved -/

/-- Every profile of the table is in its file. -/
def AllSaved (s : ProfileManager) : Prop := ∀ u vp, s.profiles.lookup u = some vp → s.Saved u

section Saved

variable {s s' : ProfileManager} {u : UUID}

/-- A load changes nothing if it drops nothing. -/
theorem loadVPNList_eq_self_iff (hs : s.Consistent) : s.loadVPNList = s ↔ AllSaved s := by
  constructor
  · intro hloaded u vp hlookup
    have hkept := lookup_loadVPNList hs u
    rw [hloaded, hlookup] at hkept
    by_contra hsaved
    rw [if_neg hsaved] at hkept
    cases hkept
  · intro hsaved
    have hprofiles : s.loadVPNList.profiles = s.profiles := by
      apply Finmap.ext_lookup
      intro u
      rw [lookup_loadVPNList hs]
      split
      · rfl
      · rename_i hnot
        cases hlookup : s.profiles.lookup u with
        | none => rfl
        | some vp => exact absurd (hsaved u vp hlookup) hnot
    have htmp := tmpprofile_loadVPNList hs
    obtain ⟨profiles, tmpprofile, encryptionBroken, vpnlist, counter, files, saves⟩ := s
    rw [loadVPNList] at hprofiles htmp ⊢
    dsimp only at hprofiles htmp
    rw [hprofiles, htmp]

theorem searched_eq_self_iff (hs : s.Consistent) (e : Entry) :
    s.searched e.uuid = s ↔ (missing s e = true → AllSaved s) := by
  rw [searched, missing]
  cases isCurrent 0 (s.get e.uuid) with
  | true => simp
  | false => simp [loadVPNList_eq_self_iff hs]

theorem AllSaved.searched (h : AllSaved s) (hs : s.Consistent) (e : Entry) :
    s.searched e.uuid = s := (searched_eq_self_iff hs e).mpr fun _ => h

theorem AllSaved.of_touches (hs : AllSaved s) (hconsistent : s'.Consistent) (h : Touches u s s') :
    AllSaved s' := by
  intro w vp hlookup
  by_cases hw : w = u
  · subst hw
    obtain hmanaged | ⟨hsame, hload⟩ := h.inTable vp hlookup
    · exact hconsistent.saved_of_managed hlookup hmanaged
    · rw [Saved, hload]
      exact hs w vp hsame
  · rw [Saved, h.load w hw]
    rw [h.lookup hw] at hlookup
    exact hs w vp hlookup

theorem AllSaved.removeProfile (hs : AllSaved s) (vp : ManagedProfile) :
    AllSaved (s.removeProfile vp) := by
  intro u vp' hlookup
  rw [lookup_removeProfile] at hlookup
  split at hlookup
  · cases hlookup
  · rename_i hu
    rw [Saved, load_removeProfile vp fun heq => hu (VpnEntry.uuid.inj heq)]
    exact hs u vp' hlookup

theorem AllSaved.removeProfiles (hs : AllSaved s) (provisionedUuids : List Text) :
    AllSaved (removeProfiles s provisionedUuids) := by
  rw [AppRestrictions.removeProfiles]
  induction profilesToRemove s provisionedUuids generalizing s with
  | nil => exact hs
  | cons vp vps ih => exact ih (hs.removeProfile vp)

end Saved

/-! ### What an entry leaves -/

/-- The importer accepts the configuration. -/
def imports (device : Device) (e : Entry) : Bool := (importOf device e).toOption.isSome

/-- A profile that is imported for the entry is recognised: the second decoding does not
    change the hash, and no temporary profile has its UUID. -/
structure Recognisable (s : ProfileManager) (e : Entry) : Prop where
  hash : hashConfig (prepare e.ovpn) = hashConfig e.ovpn
  visible : ∀ u, UUID.toString u = e.uuid → s.heldBy .tmpprofile u = none

/-- What the lookup of an entry finds that was processed. -/
structure Processed (device : Device) (s : ProfileManager) (e : Entry)
    (found : Option (Holder × ManagedProfile)) : Prop where
  unmodified : unmodified s e = true → hasHash e found = true
  rejected : AppRestrictions.unmodified s e = false → imports device e = false →
    hasHash e found = false
  added : AppRestrictions.unmodified s e = false → imports device e = true →
    (hasHash e found = true ↔ Recognisable s e)
  hasAlias : hasHash e found = true → ∀ f, found = some f → HasAlias e.certAlias f.2

section Step

variable {device : Device} {s s' : ProfileManager} {e : Entry} {u : UUID}

theorem crashes_of_imports (h : imports device e = true) : crashes device e = false := by
  rw [imports] at h
  rw [crashes]
  cases himport : importOf device e with
  | error stop =>
      rw [himport] at h
      cases h
  | ok np => rfl

theorem imports_of_ok {np : VpnProfile} (himport : importOf device e = .ok np) :
    imports device e = true := by
  rw [imports, himport]
  rfl

theorem unmodified_of_get {holder : Holder} {vp : ManagedProfile}
    (hget : s.get e.uuid = some (holder, vp))
    (hhash : vp.rest.importedProfileHash = some (hashConfig e.ovpn)) :
    unmodified s e = true := by
  rw [unmodified_eq, hget, hasHash_some]
  exact hhash

/-- The profile that was found has the alias now. -/
theorem processed_unmodified (hs : s.Consistent) {holder : Holder} {vp : ManagedProfile}
    (hget : s.get (UUID.toString u) = some (holder, vp)) (hu : UUID.toString u = e.uuid)
    (hhash : vp.rest.importedProfileHash = some (hashConfig e.ovpn)) :
    Processed device s e
      ((addCertificateAlias device s holder vp e.certAlias).get (UUID.toString u)) := by
  have hunmodified : unmodified s e = true := by
    rw [unmodified_eq, ← hu, hget, hasHash, Option.any_some, hhash]
    exact beq_self_eq_true _
  have hheld : s.heldBy holder u = some vp := get_toString_eq_some hget
  obtain ⟨version, hversion⟩ := heldBy_addCertificateAlias device e.certAlias hs hheld
  have hafter : (addCertificateAlias device s holder vp e.certAlias).get (UUID.toString u) =
      some (holder, { withAlias e.certAlias vp with mVersion := version }) := by
    rw [get_toString] at hget ⊢
    cases holder with
    | tmpprofile => rw [hversion]
    | profiles =>
        have hne : Holder.tmpprofile ≠ .profiles := Holder.noConfusion
        have htmp : (addCertificateAlias device s .profiles vp e.certAlias).heldBy .tmpprofile u =
            s.heldBy .tmpprofile u := heldBy_addCertificateAlias_of_ne device e.certAlias hne u
        cases hhidden : s.heldBy .tmpprofile u with
        | none =>
            rw [htmp, hhidden, hversion]
            rfl
        | some tmp =>
            rw [hhidden] at hget
            cases hget
  have hkeeps : hasHash e (some (holder, { withAlias e.certAlias vp with mVersion := version })) =
      true := by
    rw [hasHash, Option.any_some, beq_iff_eq]
    exact hhash
  rw [hafter]
  refine ⟨fun _ => hkeeps, fun hmod => ?_, fun hmod => ?_, fun _ f hf => ?_⟩
  · exact absurd hunmodified (Bool.eq_false_iff.mp hmod)
  · exact absurd hunmodified (Bool.eq_false_iff.mp hmod)
  · obtain rfl := Option.some.inj hf
    exact hasAlias_withAlias _ _ _

/-- What was not imported is found as it was. -/
theorem processed_unchanged (hmod : unmodified s e = false) (himports : imports device e = false) :
    Processed device s e (s.get e.uuid) := by
  refine ⟨fun h => h, fun h _ => h, fun _ h => ?_, fun h => ?_⟩
  · exact absurd h (Bool.eq_false_iff.mp himports)
  · exact absurd h (Bool.eq_false_iff.mp hmod)

/-- A profile that was added is found, unless a temporary one is. -/
theorem get_added (device : Device) (hs : s.Consistent) (np : VpnProfile) :
    ∃ version, (addCertificateAlias device (added device s e u np) .profiles
        (newProfile device s e u np).2 e.certAlias).get (UUID.toString u) =
      match s.heldBy .tmpprofile u with
      | some tmp => some (.tmpprofile, tmp)
      | none => some (.profiles,
          { withAlias e.certAlias (newProfile device s e u np).2 with mVersion := version }) := by
  have htmp : (addCertificateAlias device (added device s e u np) .profiles
      (newProfile device s e u np).2 e.certAlias).heldBy .tmpprofile u = s.heldBy .tmpprofile u :=
    heldBy_addCertificateAlias_of_ne device e.certAlias Holder.noConfusion u
  obtain ⟨version, hversion⟩ := heldBy_addCertificateAlias device e.certAlias
    (consistent_added device e u np hs) (heldBy_added_self device s e u np)
  refine ⟨version, ?_⟩
  rw [get_toString, htmp, hversion]
  rfl

theorem processed_added (hs : s.Consistent) (hu : UUID.toString u = e.uuid)
    (hmod : unmodified s e = false) {np : VpnProfile} (himport : importOf device e = .ok np) :
    Processed device s e ((addCertificateAlias device (added device s e u np) .profiles
      (newProfile device s e u np).2 e.certAlias).get (UUID.toString u)) := by
  have himports := imports_of_ok himport
  have hmod' := hmod
  rw [unmodified_eq, ← hu, get_toString] at hmod'
  obtain ⟨version, hget⟩ := get_added device (e := e) (u := u) hs np
  rw [hget]
  cases hhidden : s.heldBy .tmpprofile u with
  | some tmp =>
      rw [hhidden] at hmod'
      refine ⟨fun h => ?_, fun _ _ => hmod', fun _ _ => ?_, fun h => ?_⟩
      · exact absurd h (Bool.eq_false_iff.mp hmod)
      · refine iff_of_false (Bool.eq_false_iff.mp hmod') fun hrec => ?_
        have hnone := hrec.visible u hu
        rw [hhidden] at hnone
        cases hnone
      · exact absurd h (Bool.eq_false_iff.mp hmod')
  | none =>
      refine ⟨fun h => ?_, fun _ h => ?_, fun _ _ => ?_, fun _ f hf => ?_⟩
      · exact absurd h (Bool.eq_false_iff.mp hmod)
      · exact absurd himports (Bool.eq_false_iff.mp h)
      · dsimp only
        rw [hasHash_some]
        have hhash := hash_newProfile device s e u np
        change (newProfile device s e u np).2.rest.importedProfileHash = _ ↔ _
        rw [hhash, Option.some.injEq]
        refine ⟨fun hsame => ⟨hsame, fun w hw => ?_⟩, fun hrec => hrec.hash⟩
        rw [UUID.toString_injective (hw.trans hu.symm), hhidden]
      · obtain rfl := Option.some.inj hf
        exact hasAlias_withAlias _ _ _

theorem imports_of_rejected (hu : UUID.toString u = e.uuid)
    (hfails : (importOf device e).toOption = none ∨ UUID.fromString e.uuid = none) :
    imports device e = false := by
  obtain hfails | hfails := hfails
  · rw [imports, hfails]
    rfl
  · rw [← hu, UUID.fromString_toString] at hfails
    cases hfails

theorem imports_of_crashes (h : crashes device e = true) : imports device e = false := by
  by_contra himports
  rw [Bool.not_eq_false] at himports
  rw [crashes_of_imports himports] at h
  cases h

theorem Recognisable.of_keeps (h : Recognisable s e)
    (hkeeps : ∀ u, UUID.toString u = e.uuid → Keeps u s s') : Recognisable s' e :=
  ⟨h.hash, fun u hu => (hkeeps u hu).hidden.trans (h.visible u hu)⟩

theorem recognisable_congr (hkeeps : ∀ u, UUID.toString u = e.uuid → Keeps u s s') :
    Recognisable s' e ↔ Recognisable s e :=
  ⟨fun h => h.of_keeps fun u hu => (hkeeps u hu).symm, fun h => h.of_keeps hkeeps⟩

/-- What is kept before the entry is processed does not matter. -/
theorem Processed.of_keeps {found : Option (Holder × ManagedProfile)}
    (h : Processed device s' e found) (hu : UUID.toString u = e.uuid) (hkeeps : Keeps u s s') :
    Processed device s e found := by
  have hunmodified : AppRestrictions.unmodified s' e = AppRestrictions.unmodified s e := by
    rw [unmodified_eq, unmodified_eq, hkeeps.hasHash hu]
  have hrecognisable : Recognisable s' e ↔ Recognisable s e := by
    refine recognisable_congr fun w hw => ?_
    obtain rfl := UUID.toString_injective (hw.trans hu.symm)
    exact hkeeps
  obtain ⟨hunm, hrej, hadd, halias⟩ := h
  rw [hunmodified] at hunm hrej hadd
  rw [hrecognisable] at hadd
  exact ⟨hunm, hrej, hadd, halias⟩

/-- Nor does what is kept afterwards. -/
theorem Processed.kept {t t' : ProfileManager} (h : Processed device s e (t.get e.uuid))
    (hu : UUID.toString u = e.uuid) (hkeeps : Keeps u t t') :
    Processed device s e (t'.get e.uuid) := by
  obtain ⟨hunm, hrej, hadd, halias⟩ := h
  rw [← hkeeps.hasHash hu] at hunm hrej hadd
  refine ⟨hunm, hrej, hadd, fun hhash => ?_⟩
  rw [hkeeps.symm.get hu hhash] at halias
  exact halias hhash

theorem processed_importEntry (device : Device) (hs : s.Consistent)
    (hu : UUID.toString u = e.uuid) :
    Processed device s e ((importEntry device s e).2.get e.uuid) := by
  refine Processed.of_keeps ?_ hu (keeps_searched hs e.uuid u)
  have ht := consistent_searched hs e.uuid
  have himported := imported_importEntry device s e
  generalize s.searched e.uuid = t at ht himported ⊢
  generalize importEntry device s e = r at himported ⊢
  cases himported with
  | unmodified hget hhash =>
      rw [← hu] at hget ⊢
      exact processed_unmodified ht hget hu hhash
  | rejected hmod _ hfails => exact processed_unchanged hmod (imports_of_rejected hu hfails)
  | stopped hmod hcrash => exact processed_unchanged hmod (imports_of_crashes hcrash)
  | added hmod himport huuid =>
      rw [← hu, UUID.fromString_toString] at huuid
      obtain rfl := Option.some.inj huuid
      rw [← hu]
      exact processed_added ht hu hmod himport

/-! ### An entry that changes nothing -/

/-- What was added has a hash and was saved. -/
theorem saves_of_added (hs : s.Consistent) (np : VpnProfile) :
    s.saves < (addCertificateAlias device (added device s e u np) .profiles
      (newProfile device s e u np).2 e.certAlias).saves := by
  have hhash : (newProfile device s e u np).2.rest.importedProfileHash ≠ none := by
    rw [hash_newProfile]
    exact Option.some_ne_none _
  have hle := (touches_addCertificateAlias device e.certAlias
    (consistent_added device e u np hs) (heldBy_added_self device s e u np) hhash).saves
  exact Nat.lt_of_lt_of_le (saves_added device s e u np) hle

/-- A step that changes something but by its lookup saves a profile. -/
theorem importEntry_progress (device : Device) (hs : s.Consistent) (e : Entry) :
    (importEntry device s e).2 = s.searched e.uuid ∨
      s.saves < (importEntry device s e).2.saves := by
  have ht := consistent_searched hs e.uuid
  have himported := imported_importEntry device s e
  have hsaves : (s.searched e.uuid).saves = s.saves := by
    rw [searched]
    split <;> rfl
  rw [← hsaves]
  generalize s.searched e.uuid = t at ht himported ⊢
  generalize importEntry device s e = r at himported ⊢
  cases himported with
  | @unmodified holder vp hget hhash =>
      by_cases halias : HasAlias e.certAlias vp
      · exact .inl (addCertificateAlias_of_hasAlias device e.certAlias halias)
      · exact .inr (saves_addCertificateAlias device e.certAlias holder halias)
  | rejected _ _ _ => exact .inl rfl
  | stopped _ _ => exact .inl rfl
  | @added np uuid _ _ _ => exact .inr (saves_of_added ht np)

/-- The lookup changes nothing, and the entry is recognised or it is not imported. -/
theorem importEntry_eq_self_iff (hs : s.Consistent) (hu : UUID.toString u = e.uuid)
    (halias : unmodified s e = true → ∀ f, s.get e.uuid = some f → HasAlias e.certAlias f.2) :
    (importEntry device s e).2 = s ↔
      s.searched e.uuid = s ∧ (unmodified s e = false → imports device e = false) := by
  by_cases hsearched : s.searched e.uuid = s
  · have himported := imported_importEntry device s e
    rw [hsearched] at himported
    simp only [hsearched, true_and]
    generalize importEntry device s e = r at himported ⊢
    cases himported with
    | @unmodified holder vp hget hhash =>
        have hunmodified := unmodified_of_get hget hhash
        refine iff_of_true (addCertificateAlias_of_hasAlias device e.certAlias
          (halias hunmodified _ hget)) fun hmod => ?_
        exact absurd hunmodified (Bool.eq_false_iff.mp hmod)
    | rejected _ _ hfails => exact iff_of_true rfl fun _ => imports_of_rejected hu hfails
    | stopped _ hcrash => exact iff_of_true rfl fun _ => imports_of_crashes hcrash
    | @added np uuid hmod himport _ =>
        refine iff_of_false (fun heq => ?_) fun h => ?_
        · exact absurd (congrArg ProfileManager.saves heq) (saves_of_added hs np).ne'
        · exact absurd (imports_of_ok himport) (Bool.eq_false_iff.mp (h hmod))
  · refine iff_of_false (fun heq => ?_) fun h => hsearched h.1
    obtain hstep | hsaves := importEntry_progress device hs e
    · exact hsearched (hstep.symm.trans heq)
    · exact absurd (congrArg ProfileManager.saves heq) hsaves.ne'

end Step

end AppRestrictions

end OpenVpnAndroid
