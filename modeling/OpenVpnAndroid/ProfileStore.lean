/-
  OpenVpnAndroid/ProfileStore.lean
  ================================
  **`ProfileManager.saveProfile` and `loadVpnEntry`.**

  A profile lies in one of three files: plain in `.vp`, encrypted in `.cp`, and
  for a moment in `.cpold`, the name under which a save keeps the encrypted file
  that it replaces.  A save is the list of its file operations; which list it is
  depends on the preference, on the encryption library and on a flag that stays
  set after the library has failed once.

  The store is meant to be a map from UUIDs to profiles.  After any sequence of
  completed saves the loader finds under each UUID what the map holds
  (`load_savedProfiles`).

  The encryption library is given by its outcomes: the output opens or fails, and
  a complete encrypted file is read back as it was written.
-/
import OpenVpnAndroid.JavaText
import OpenVpnAndroid.Machine

namespace OpenVpnAndroid

/-! ### Profiles and files -/

/-- The 128 bits of a `java.util.UUID`. -/
abbrev UUID := BitVec 128

/-- A profile with the fields that the store reads or changes.  `rest` is all the
    other ones. -/
structure StoredProfile (α : Type*) where
  mUuid : UUID
  mName : Option Text
  mVersion : Int
  mTemporaryProfile : Bool
  rest : α
deriving DecidableEq, Repr

/-- The name of a file up to its extension. -/
inductive VpnEntry where
  | uuid (u : UUID)
  /-- `TEMPORARY_PROFILE_FILENAME` -/
  | temporary
deriving DecidableEq, Repr

inductive Extension where
  | vp
  | cp
  | cpold
deriving DecidableEq, Repr

/-- What a file holds.  A file that was opened for writing is incomplete until it
    has been written to its end. -/
inductive Content (α : Type*) where
  | incomplete
  | plain (profile : StoredProfile α)
  | encrypted (profile : StoredProfile α)
deriving DecidableEq, Repr

/-- The files of one entry; `none` is a file that does not exist. -/
abbrev EntryFiles (α : Type*) := Extension → Option (Content α)

abbrev Files (α : Type*) := VpnEntry → EntryFiles α

variable {α : Type*}

/-- The steps in which a save changes the files of its entry.  A write is two of
    them. -/
inductive FileOperation (α : Type*) where
  | delete (file : Extension)
  | rename (file target : Extension)
  | truncate (file : Extension)
  | fill (file : Extension) (content : Content α)
deriving DecidableEq, Repr

namespace FileOperation

def apply (files : EntryFiles α) : FileOperation α → EntryFiles α
  | .delete file => Function.update files file none
  | .rename file target =>
      match files file with
      | some content => Function.update (Function.update files target (some content)) file none
      | none => files
  | .truncate file => Function.update files file (some .incomplete)
  | .fill file content => Function.update files file (some content)

def execute (operations : List (FileOperation α)) (files : EntryFiles α) : EntryFiles α :=
  operations.foldl apply files

end FileOperation

open FileOperation

/-! ### Saving -/

namespace StoredProfile

variable (profile : StoredProfile α)

def filename : VpnEntry :=
  if profile.mTemporaryProfile then .temporary else .uuid profile.mUuid

/-- `profile.mVersion += 1` -/
def nextVersion : StoredProfile α := { profile with mVersion := int (profile.mVersion + 1) }

end StoredProfile

/-- What `getEncryptedVpOutput` does. -/
inductive EncryptedOutput where
  /-- the file exists and is empty -/
  | opened
  /-- an exception that `saveProfile` catches, before or after the file was opened -/
  | failed (touched : Bool)
deriving DecidableEq, Repr

/-- What a call of `saveProfile` finds outside the files. -/
structure SaveEnvironment where
  /-- the preference `preferencryption` -/
  preferencryption : Bool
  /-- `ProfileEncryption.encryptionEnabled()` -/
  encryptionEnabled : Bool
  /-- `renameTo` returns true -/
  renames : Bool
  output : EncryptedOutput
deriving DecidableEq, Repr

namespace SaveEnvironment

/-- The save tries to write the encrypted file. -/
def encrypts (env : SaveEnvironment) (encryptionBroken : Bool) : Bool :=
  let preferEncryption := if encryptionBroken then false else env.preferencryption
  preferEncryption && env.encryptionEnabled

end SaveEnvironment

/-- A save: its operations, the profile that it writes and the flag
    `encryptionBroken` after it. -/
structure Save (α : Type*) where
  operations : List (FileOperation α)
  profile : StoredProfile α
  encryptionBroken : Bool

/-- Without encryption, also when the encrypted file could not be opened. -/
def savePlain (profile : StoredProfile α) : List (FileOperation α) :=
  [.delete .cpold, .truncate .vp, .fill .vp (.plain profile), .delete .cp]

/-- The encrypted file makes place for the new one. -/
def moveEncrypted (env : SaveEnvironment) : List (FileOperation α) :=
  .delete .cpold :: if env.renames then [.rename .cp .cpold] else []

def saveProfile (env : SaveEnvironment) (encryptionBroken : Bool) (profile : StoredProfile α) :
    Save α :=
  let profile := profile.nextVersion
  if env.encrypts encryptionBroken then
    match env.output with
    | .opened =>
        ⟨moveEncrypted env ++
            [.truncate .cp, .delete .cpold, .fill .cp (.encrypted profile), .delete .vp],
          profile, encryptionBroken⟩
    | .failed touched =>
        -- `saveProfile` calls itself and now finds `encryptionBroken`
        let profile := profile.nextVersion
        ⟨moveEncrypted env ++ (if touched then [.truncate .cp] else []) ++ savePlain profile,
          profile, true⟩
  else ⟨savePlain profile, profile, encryptionBroken⟩

/-! ### Loading -/

/-- A plain file through `readObject`. -/
def Content.read : Content α → Option (StoredProfile α)
  | .plain profile => some profile
  | _ => none

/-- An encrypted file through `getEncryptedVpInput` and `readObject`. -/
def Content.readEncrypted : Content α → Option (StoredProfile α)
  | .encrypted profile => some profile
  | _ => none

/-- The file that the loader picks. -/
def readVpnEntry (files : EntryFiles α) : Option (StoredProfile α) :=
  match files .cp with
  | some content => content.readEncrypted
  | none =>
      match files .cpold with
      | some content => content.readEncrypted
      | none => (files .vp).bind Content.read

section Upgrade

-- `upgradeProfile` changes none of the fields that the store reads.
variable (upgrade : α → α)

def StoredProfile.upgradeProfile (profile : StoredProfile α) : StoredProfile α :=
  { profile with rest := upgrade profile.rest }

/-- The sanity check and the upgrade. -/
def StoredProfile.accept (vp : StoredProfile α) : Option (StoredProfile α) :=
  match vp.mName with
  | none => none
  | some _ => some (vp.upgradeProfile upgrade)

/-- The profile that `loadVpnEntry` puts into its table, under the UUID in it; `none`
    where it logs an exception or gives up. -/
def loadVpnEntry (files : EntryFiles α) : Option (StoredProfile α) :=
  (readVpnEntry files).bind (StoredProfile.accept upgrade)

end Upgrade

/-! ### The store -/

/-- The files and the static flag of `ProfileManager`. -/
structure ProfileStore (α : Type*) where
  files : Files α
  encryptionBroken : Bool

inductive StoreEvent (α : Type*) where
  | saveProfile (env : SaveEnvironment) (profile : StoredProfile α)
  /-- the flag is gone with its process -/
  | newProcess
deriving DecidableEq, Repr

def ProfileStore.step (s : ProfileStore α) : StoreEvent α → ProfileStore α
  | .saveProfile env profile =>
      let save := OpenVpnAndroid.saveProfile env s.encryptionBroken profile
      let entry := profile.filename
      ⟨Function.update s.files entry (execute save.operations (s.files entry)),
        save.encryptionBroken⟩
  | .newProcess => { s with encryptionBroken := false }

/-- The store starts without files. -/
def profileStore : Machine (ProfileStore α) (StoreEvent α) :=
  ⟨⟨fun _ _ => none, false⟩, ProfileStore.step⟩

/-- **What the store is for**: the profile last saved under each UUID. -/
structure SavedProfiles (α : Type*) where
  saved : UUID → Option (StoredProfile α)
  encryptionBroken : Bool

def SavedProfiles.step (s : SavedProfiles α) : StoreEvent α → SavedProfiles α
  | .saveProfile env profile =>
      let save := OpenVpnAndroid.saveProfile env s.encryptionBroken profile
      ⟨if profile.mTemporaryProfile then s.saved
        else Function.update s.saved profile.mUuid (some save.profile), save.encryptionBroken⟩
  | .newProcess => { s with encryptionBroken := false }

def savedProfiles : Machine (SavedProfiles α) (StoreEvent α) :=
  ⟨⟨fun _ => none, false⟩, SavedProfiles.step⟩

/-! ### A completed save -/

theorem execute_append (first second : List (FileOperation α)) (files : EntryFiles α) :
    execute (first ++ second) files = execute second (execute first files) :=
  List.foldl_append

/-- The profile is complete in the file that the loader picks. -/
def Holds (files : EntryFiles α) (profile : StoredProfile α) : Prop :=
  files .cpold = none ∧
    (files .cp = some (.encrypted profile) ∨
      files .cp = none ∧ files .vp = some (.plain profile))

theorem readVpnEntry_of_holds {files : EntryFiles α} {profile : StoredProfile α}
    (h : Holds files profile) : readVpnEntry files = some profile := by
  obtain ⟨hcpold, hcp | ⟨hcp, hvp⟩⟩ := h
  · simp [readVpnEntry, hcp, Content.readEncrypted]
  · simp [readVpnEntry, hcp, hcpold, hvp, Content.read]

theorem holds_savePlain (profile : StoredProfile α) (files : EntryFiles α) :
    Holds (execute (savePlain profile) files) profile := by
  simp [Holds, savePlain, execute, apply]

/-- A save ends with its profile in place, whatever files it has found. -/
theorem holds_saveProfile (env : SaveEnvironment) (encryptionBroken : Bool)
    (profile : StoredProfile α) (files : EntryFiles α) :
    Holds (execute (saveProfile env encryptionBroken profile).operations files)
      (saveProfile env encryptionBroken profile).profile := by
  rw [saveProfile]
  split
  · split
    · dsimp only
      rw [execute_append]
      simp [Holds, execute, apply]
    · dsimp only
      rw [execute_append]
      exact holds_savePlain _ _
  · exact holds_savePlain _ _

/-- A save changes nothing but the version of the profile. -/
theorem saveProfile_profile (env : SaveEnvironment) (encryptionBroken : Bool)
    (profile : StoredProfile α) :
    ∃ version, (saveProfile env encryptionBroken profile).profile =
      { profile with mVersion := version } := by
  rw [saveProfile]
  split
  · split <;> exact ⟨_, rfl⟩
  · exact ⟨_, rfl⟩

/-! ### Runs -/

/-- The files of every UUID that was saved hold the profile last saved. -/
structure Refines (s : ProfileStore α) (t : SavedProfiles α) : Prop where
  encryptionBroken : s.encryptionBroken = t.encryptionBroken
  holds : ∀ u profile, t.saved u = some profile →
    Holds (s.files (.uuid u)) profile ∧ profile.mUuid = u

theorem refines_step {s : ProfileStore α} {t : SavedProfiles α} (h : Refines s t)
    (e : StoreEvent α) : Refines (s.step e) (t.step e) := by
  cases e with
  | newProcess => exact ⟨rfl, h.holds⟩
  | saveProfile env profile =>
      obtain ⟨hbroken, hholds⟩ := h
      rw [ProfileStore.step, SavedProfiles.step, hbroken]
      refine ⟨rfl, ?_⟩
      intro u saved hsaved
      dsimp only at hsaved ⊢
      cases htemporary : profile.mTemporaryProfile with
      | true =>
          -- the files of a temporary profile are those of no UUID
          rw [htemporary, if_pos rfl] at hsaved
          rw [StoredProfile.filename, htemporary, if_pos rfl,
            Function.update_of_ne VpnEntry.noConfusion]
          exact hholds u saved hsaved
      | false =>
          rw [htemporary, if_neg Bool.false_ne_true] at hsaved
          rw [StoredProfile.filename, htemporary, if_neg Bool.false_ne_true]
          by_cases hu : u = profile.mUuid
          · subst hu
            rw [Function.update_self] at hsaved ⊢
            obtain rfl := Option.some.inj hsaved
            obtain ⟨version, hversion⟩ :=
              saveProfile_profile env t.encryptionBroken profile
            exact ⟨holds_saveProfile _ _ _ _, by rw [hversion]⟩
          · rw [Function.update_of_ne hu] at hsaved
            rw [Function.update_of_ne fun heq => hu (VpnEntry.uuid.inj heq)]
            exact hholds u saved hsaved

theorem refines_run (es : List (StoreEvent α)) :
    Refines (profileStore.run es) (savedProfiles.run es) := by
  induction es using List.reverseRecOn with
  | nil => exact ⟨rfl, fun _ _ h => nomatch h⟩
  | append_singleton es e ih =>
      rw [Machine.run_append_singleton, Machine.run_append_singleton]
      exact refines_step ih e

/-- After any completed saves the loader returns for a UUID the profile last saved
    for it, upgraded and under the same UUID. -/
theorem load_savedProfiles (upgrade : α → α) (es : List (StoreEvent α)) (u : UUID)
    (profile : StoredProfile α) (hsaved : (savedProfiles.run es).saved u = some profile)
    (hname : profile.mName ≠ none) :
    loadVpnEntry upgrade ((profileStore.run es).files (.uuid u)) =
        some (profile.upgradeProfile upgrade) ∧
      (profile.upgradeProfile upgrade).mUuid = u := by
  obtain ⟨hholds, huuid⟩ := (refines_run es).holds u profile hsaved
  refine ⟨?_, huuid⟩
  rw [loadVpnEntry, readVpnEntry_of_holds hholds, Option.bind_some, StoredProfile.accept]
  cases hprofile : profile.mName with
  | none => exact absurd hprofile hname
  | some name => rfl

/-- An encrypted save, and one whose output fails to open. -/
theorem load_savedProfiles_fallback :
    let profile : StoredProfile Nat := ⟨7, some "home", 0, false, 3⟩
    let env : SaveEnvironment := ⟨true, true, true, .opened⟩
    let es : List (StoreEvent Nat) :=
      [.saveProfile env profile,
        .saveProfile { env with output := .failed true } { profile with rest := 4 }]
    loadVpnEntry id ((profileStore.run es).files (.uuid 7)) =
        some ⟨7, some "home", 2, false, 4⟩ ∧ (7 : UUID) = 7 := by
  intro profile env es
  exact load_savedProfiles id es 7 ⟨7, some "home", 2, false, 4⟩ (by decide +kernel)
    (by decide)

end OpenVpnAndroid
