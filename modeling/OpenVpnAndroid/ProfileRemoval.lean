/-
  OpenVpnAndroid/ProfileRemoval.lean
  ==================================
  **What `ProfileManager.removeProfile` leaves of a profile.**

  A save writes `.vp` or `.cp`, and one that is interrupted can also leave `.cpold`.
  `removeProfile` deletes `.vp` alone, while the loader looks for the encrypted files
  first.  So a profile that was removed is loaded again exactly when the file that the
  loader picks is a complete encrypted one (`loadVpnEntry_removed_iff`): after a save
  that was completed, when that save wrote the encrypted file (`loads_removed_saved_iff`).
-/
import OpenVpnAndroid.ProfileManager

namespace OpenVpnAndroid

open FileOperation

variable {α : Type*}

/-! ### Saves that can be interrupted -/

inductive InterruptibleEvent (α : Type*) where
  /-- a save of which only the first operations are done -/
  | saveProfile (env : SaveEnvironment) (profile : StoredProfile α) (operations : Nat)
  /-- the flag is gone with its process -/
  | newProcess
deriving DecidableEq, Repr

/-- An exception after the file was opened leaves the flag as the save has set it.  A
    save whose process ends has a `newProcess` after it. -/
def ProfileStore.interruptibleStep (s : ProfileStore α) : InterruptibleEvent α → ProfileStore α
  | .saveProfile env profile operations =>
      let save := OpenVpnAndroid.saveProfile env s.encryptionBroken profile
      let entry := profile.filename
      ⟨Function.update s.files entry
          (execute (save.operations.take operations) (s.files entry)),
        save.encryptionBroken⟩
  | .newProcess => { s with encryptionBroken := false }

def interruptibleStore : Machine (ProfileStore α) (InterruptibleEvent α) :=
  ⟨⟨fun _ _ => none, false⟩, ProfileStore.interruptibleStep⟩

/-- `context.deleteFile(vpnentry + ".vp")` in `removeProfile` -/
def removeProfileFile (files : Files α) (profile : StoredProfile α) : Files α :=
  let entry := VpnEntry.uuid profile.mUuid
  Function.update files entry ((FileOperation.delete .vp).apply (files entry))

theorem files_removeProfile (s : ProfileManager) (profile : ManagedProfile) :
    (s.removeProfile profile).files = removeProfileFile s.files profile := rfl

/-! ### Removal -/

/-- The file that the loader picks is an encrypted one, complete, of a profile with a
    name. -/
def PicksEncrypted (files : EntryFiles α) : Prop :=
  ∃ profile, profile.mName ≠ none ∧
    (files .cp = some (.encrypted profile) ∨
      files .cp = none ∧ files .cpold = some (.encrypted profile))

theorem readEncrypted_eq_some_iff {content : Content α} {profile : StoredProfile α} :
    content.readEncrypted = some profile ↔ content = .encrypted profile := by
  cases content <;> simp [Content.readEncrypted]

theorem readVpnEntry_of_no_vp {files : EntryFiles α} (hvp : files .vp = none)
    (profile : StoredProfile α) :
    readVpnEntry files = some profile ↔
      files .cp = some (.encrypted profile) ∨
        files .cp = none ∧ files .cpold = some (.encrypted profile) := by
  rw [readVpnEntry]
  cases hcp : files .cp with
  | some content => simp [readEncrypted_eq_some_iff]
  | none =>
      cases hcpold : files .cpold with
      | some content => simp [readEncrypted_eq_some_iff]
      | none => simp [hvp]

theorem accept_eq_none_iff (upgrade : α → α) (profile : StoredProfile α) :
    profile.accept upgrade = none ↔ profile.mName = none := by
  rw [StoredProfile.accept]
  cases profile.mName <;> simp

/-- Without a plain file the loader is left with the encrypted ones. -/
theorem loadVpnEntry_of_no_vp (upgrade : α → α) {files : EntryFiles α} (hvp : files .vp = none) :
    loadVpnEntry upgrade files = none ↔ ¬PicksEncrypted files := by
  rw [loadVpnEntry, Option.bind_eq_none_iff, PicksEncrypted, not_exists]
  apply forall_congr'
  intro profile
  rw [readVpnEntry_of_no_vp hvp, accept_eq_none_iff]
  tauto

theorem picksEncrypted_deleted_vp (files : EntryFiles α) :
    PicksEncrypted ((FileOperation.delete .vp).apply files) ↔ PicksEncrypted files := by
  simp [PicksEncrypted, apply]

/-- The save writes the encrypted file. -/
def WritesEncrypted (env : SaveEnvironment) (encryptionBroken : Bool) : Prop :=
  env.encrypts encryptionBroken = true ∧ env.output = .opened

theorem picksEncrypted_saved_iff (env : SaveEnvironment) (encryptionBroken : Bool)
    (profile : StoredProfile α) (files : EntryFiles α) :
    PicksEncrypted (execute (saveProfile env encryptionBroken profile).operations files) ↔
      WritesEncrypted env encryptionBroken ∧ profile.mName ≠ none := by
  have hplain : ∀ (profile : StoredProfile α) files,
      ¬PicksEncrypted (execute (savePlain profile) files) := by
    rintro profile files ⟨profile', _, h⟩
    simp [savePlain, execute, apply] at h
  cases hencrypts : env.encrypts encryptionBroken with
  | false =>
      apply iff_of_false
      · rw [saveProfile, hencrypts, if_neg Bool.false_ne_true]
        exact hplain _ _
      · rintro ⟨⟨htrue, -⟩, -⟩
        rw [hencrypts] at htrue
        cases htrue
  | true =>
      cases houtput : env.output with
      | failed touched =>
          apply iff_of_false
          · rw [saveProfile, hencrypts, if_pos rfl, houtput]
            dsimp only
            rw [execute_append]
            exact hplain _ _
          · rintro ⟨⟨-, hopened⟩, -⟩
            rw [houtput] at hopened
            cases hopened
      | opened =>
          have hwrites : WritesEncrypted env encryptionBroken := ⟨hencrypts, houtput⟩
          rw [saveProfile, hencrypts, if_pos rfl, houtput, and_iff_right hwrites]
          dsimp only
          rw [execute_append]
          simp [PicksEncrypted, execute, apply, StoredProfile.nextVersion]

/-- A profile is loaded again after its removal exactly when its last save, if it was
    completed, wrote the encrypted file. -/
theorem loads_removed_saved_iff (upgrade : α → α) (env : SaveEnvironment)
    (encryptionBroken : Bool) (profile : StoredProfile α) (files : EntryFiles α) :
    let saved := execute (saveProfile env encryptionBroken profile).operations files
    loadVpnEntry upgrade ((FileOperation.delete .vp).apply saved) ≠ none ↔
      WritesEncrypted env encryptionBroken ∧ profile.mName ≠ none := by
  intro saved
  rw [← picksEncrypted_saved_iff env encryptionBroken profile files, Ne,
    loadVpnEntry_of_no_vp upgrade (by simp [apply]), picksEncrypted_deleted_vp, not_not]

end OpenVpnAndroid
