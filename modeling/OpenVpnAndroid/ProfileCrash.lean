/-
  OpenVpnAndroid/ProfileCrash.lean
  ================================
  **A save that is interrupted.**

  An interrupted save has done a first part of its operations.  A plain save over
  an encrypted file is safe: the loader sees the old file until the last operation
  deletes it.  Every other save has a moment at which the loader finds an empty
  file or none, because the file that it writes is the one that the loader picks,
  or because the copy in `.cpold` is deleted before its replacement is written
  (`crashSafe_iff`).
-/
import OpenVpnAndroid.ProfileStore

namespace OpenVpnAndroid

open FileOperation

variable {α : Type*}

/-- However far the save has come, the loader returns the old or the new profile. -/
def CrashSafe (upgrade : α → α) (save : Save α) (files : EntryFiles α) (old : StoredProfile α) :
    Prop :=
  ∀ done rest, save.operations = done ++ rest →
    loadVpnEntry upgrade (execute done files) = some old ∨
      loadVpnEntry upgrade (execute done files) = some (save.profile.upgradeProfile upgrade)

/-- The save works on the plain file: it is meant to, or the encrypted file can be
    neither renamed nor opened. -/
def LeavesEncrypted (env : SaveEnvironment) (encryptionBroken : Bool) : Prop :=
  env.encrypts encryptionBroken = false ∨ env.renames = false ∧ env.output = .failed false

/-! ### Unreadable files -/

variable {upgrade : α → α} {files : EntryFiles α} {save : Save α} {old : StoredProfile α}

/-- One moment without a profile is enough. -/
theorem not_crashSafe (done rest : List (FileOperation α)) (hops : save.operations = done ++ rest)
    (hlost : loadVpnEntry upgrade (execute done files) = none) :
    ¬ CrashSafe upgrade save files old := by
  intro hsafe
  rcases hsafe done rest hops with h | h <;>
    rw [hlost] at h <;> cases h

/-- The encrypted file is open for writing. -/
theorem load_truncated_cp : loadVpnEntry upgrade (execute [.truncate .cp] files) = none := by
  simp [loadVpnEntry, readVpnEntry, execute, apply, Content.readEncrypted]

/-- The plain file is open for writing, and there is no encrypted one. -/
theorem load_truncated_vp (h : files .cp = none) :
    loadVpnEntry upgrade (execute [.delete .cpold, .truncate .vp] files) = none := by
  simp [loadVpnEntry, readVpnEntry, execute, apply, Content.read, h]

/-- A plain save without an encrypted file loses the profile. -/
theorem not_crashSafe_savePlain (before : List (FileOperation α)) {profile : StoredProfile α}
    (hops : save.operations = before ++ savePlain profile)
    (hcp : execute before files .cp = none) : ¬ CrashSafe upgrade save files old := by
  apply not_crashSafe (before ++ [.delete .cpold, .truncate .vp])
    [.fill .vp (.plain profile), .delete .cp]
  · rw [hops, savePlain, List.append_assoc]
    rfl
  · rw [execute_append]
    exact load_truncated_vp hcp

/-- A save that opens the encrypted file loses the profile. -/
theorem not_crashSafe_truncate {before rest : List (FileOperation α)}
    (hops : save.operations = before ++ .truncate .cp :: rest) :
    ¬ CrashSafe upgrade save files old := by
  apply not_crashSafe (before ++ [.truncate .cp]) rest
  · rw [hops, List.append_assoc]
    rfl
  · rw [execute_append]
    exact load_truncated_cp

/-! ### The encrypted file as a copy -/

/-- The operation leaves the encrypted file alone. -/
def KeepsCp : FileOperation α → Prop
  | .delete file => file ≠ .cp
  | .rename _ _ => False
  | .truncate file => file ≠ .cp
  | .fill file _ => file ≠ .cp

theorem execute_cp {operations : List (FileOperation α)} (h : ∀ op ∈ operations, KeepsCp op)
    (files : EntryFiles α) : execute operations files .cp = files .cp := by
  induction operations generalizing files with
  | nil => rfl
  | cons op operations ih =>
      have hrest : ∀ op ∈ operations, KeepsCp op := fun op hop => h op (List.mem_cons_of_mem _ hop)
      apply (ih hrest (apply files op)).trans
      have hop : KeepsCp op := h op List.mem_cons_self
      cases op with
      | rename file target => cases hop
      | delete file | truncate file | fill file _ => exact Function.update_of_ne (Ne.symm hop) _ _

/-- The loader reads nothing but the encrypted file if there is one. -/
theorem load_of_cp {other : EntryFiles α} (hcp : files .cp ≠ none) (h : other .cp = files .cp) :
    loadVpnEntry upgrade other = loadVpnEntry upgrade files := by
  rw [loadVpnEntry, loadVpnEntry, readVpnEntry, readVpnEntry, h]
  cases hfile : files .cp with
  | none => exact absurd hfile hcp
  | some content => rfl

/-- The encrypted file is the copy of the old profile until the last operation. -/
theorem crashSafe_of_copy {early : List (FileOperation α)} {last : FileOperation α}
    (hops : save.operations = early ++ [last]) (hkeeps : ∀ op ∈ early, KeepsCp op)
    (hcp : files .cp ≠ none) (hload : loadVpnEntry upgrade files = some old)
    (hfinal : loadVpnEntry upgrade (execute save.operations files) =
      some (save.profile.upgradeProfile upgrade)) : CrashSafe upgrade save files old := by
  intro done rest hdone
  rcases List.prefix_concat_iff.mp ⟨rest, (hdone.symm.trans hops)⟩ with hall | hearly
  · right
    rw [hall, ← hops]
    exact hfinal
  · left
    have hkept : execute done files .cp = files .cp :=
      execute_cp (fun op hop => hkeeps op (hearly.mem hop)) files
    rw [load_of_cp hcp hkept, hload]

/-! ### All saves -/

variable {env : SaveEnvironment} {encryptionBroken : Bool} {profile : StoredProfile α}

theorem load_saveProfile :
    loadVpnEntry upgrade (execute (saveProfile env encryptionBroken profile).operations files) =
      (saveProfile env encryptionBroken profile).profile.accept upgrade := by
  rw [loadVpnEntry, readVpnEntry_of_holds (holds_saveProfile env encryptionBroken profile files)]
  rfl

theorem accept_saveProfile :
    (saveProfile env encryptionBroken profile).profile.accept upgrade =
      if profile.mName = none then none
      else some ((saveProfile env encryptionBroken profile).profile.upgradeProfile upgrade) := by
  obtain ⟨version, hversion⟩ := saveProfile_profile env encryptionBroken profile
  rw [hversion, StoredProfile.accept]
  dsimp only
  cases profile.mName with
  | none => rfl
  | some name => rfl

theorem saveProfile_plain (h : env.encrypts encryptionBroken = false) :
    (saveProfile env encryptionBroken profile).operations = savePlain profile.nextVersion := by
  rw [saveProfile, h, if_neg Bool.false_ne_true]

theorem saveProfile_opened (h : env.encrypts encryptionBroken = true)
    (houtput : env.output = .opened) :
    (saveProfile env encryptionBroken profile).operations =
      moveEncrypted env ++ .truncate .cp ::
        [.delete .cpold, .fill .cp (.encrypted profile.nextVersion), .delete .vp] := by
  rw [saveProfile, h, if_pos rfl, houtput]

theorem saveProfile_failed (profile : StoredProfile α) {touched : Bool}
    (h : env.encrypts encryptionBroken = true)
    (houtput : env.output = .failed touched) :
    (saveProfile env encryptionBroken profile).operations =
      moveEncrypted env ++ (if touched then [.truncate .cp] else []) ++
        savePlain profile.nextVersion.nextVersion := by
  rw [saveProfile, h, if_pos rfl, houtput]

/-- The old encrypted file is out of the way, or there was none. -/
theorem execute_moveEncrypted (h : env.renames = true ∨ files .cp = none) :
    execute (moveEncrypted env) files .cp = none := by
  cases hcp : files .cp with
  | none =>
      cases hrenames : env.renames <;> simp [moveEncrypted, execute, apply, hrenames, hcp]
  | some content =>
      have hrenames : env.renames = true := h.resolve_right (by rw [hcp]; exact Option.some_ne_none _)
      simp [moveEncrypted, execute, apply, hrenames, hcp]

/-- Without a copy that stays, there is a moment without a profile. -/
theorem not_crashSafe_saveProfile
    (h : ¬ (files .cp ≠ none ∧ LeavesEncrypted env encryptionBroken)) :
    ¬ CrashSafe upgrade (saveProfile env encryptionBroken profile) files old := by
  cases hencrypts : env.encrypts encryptionBroken with
  | false =>
      have hcp : files .cp = none := by
        by_contra hcp
        exact h ⟨hcp, .inl hencrypts⟩
      exact not_crashSafe_savePlain [] (saveProfile_plain hencrypts) hcp
  | true =>
      rcases houtput : env.output with _ | touched
      · exact not_crashSafe_truncate (saveProfile_opened hencrypts houtput)
      · have hops := saveProfile_failed profile hencrypts houtput
        cases touched with
        | true =>
            rw [if_pos rfl, List.append_assoc] at hops
            exact not_crashSafe_truncate hops
        | false =>
            rw [if_neg Bool.false_ne_true, List.append_nil] at hops
            apply not_crashSafe_savePlain _ hops
            apply execute_moveEncrypted
            by_contra hcopy
            obtain ⟨hrenames, hcp⟩ := not_or.mp hcopy
            exact h ⟨hcp, .inr ⟨Bool.eq_false_iff.mpr hrenames, houtput⟩⟩

/-- A save that leaves the encrypted file alone deletes it last. -/
theorem saveProfile_copy (profile : StoredProfile α) (h : LeavesEncrypted env encryptionBroken) :
    ∃ early : List (FileOperation α), (∀ op ∈ early, KeepsCp op) ∧
      (saveProfile env encryptionBroken profile).operations = early ++ [.delete .cp] := by
  cases hencrypts : env.encrypts encryptionBroken with
  | false =>
      refine ⟨[.delete .cpold, .truncate .vp, .fill .vp (.plain profile.nextVersion)], ?_,
        saveProfile_plain hencrypts⟩
      simp [KeepsCp]
  | true =>
      obtain ⟨hrenames, houtput⟩ : env.renames = false ∧ env.output = .failed false :=
        h.resolve_left (by rw [hencrypts]; exact Bool.noConfusion)
      refine ⟨[.delete .cpold, .delete .cpold, .truncate .vp,
        .fill .vp (.plain profile.nextVersion.nextVersion)], ?_, ?_⟩
      · simp [KeepsCp]
      · rw [saveProfile_failed profile hencrypts houtput, moveEncrypted, hrenames]
        rfl

/-- For files from which the loader returns a complete profile, an interrupted save
    leaves the old or the new one exactly when the new one has a name, there is an
    encrypted file, and the save does not work on it. -/
theorem crashSafe_iff (upgrade : α → α) (files : EntryFiles α) (old : StoredProfile α)
    (hload : loadVpnEntry upgrade files = some old) (env : SaveEnvironment)
    (encryptionBroken : Bool) (profile : StoredProfile α) :
    (∀ done rest, (saveProfile env encryptionBroken profile).operations = done ++ rest →
        loadVpnEntry upgrade (execute done files) = some old ∨
          loadVpnEntry upgrade (execute done files) =
            some ((saveProfile env encryptionBroken profile).profile.upgradeProfile upgrade)) ↔
      profile.mName ≠ none ∧ files .cp ≠ none ∧
        (env.encrypts encryptionBroken = false ∨
          env.renames = false ∧ env.output = .failed false) := by
  constructor
  · intro hsafe
    constructor
    · intro hname
      apply not_crashSafe _ [] (List.append_nil _).symm _ hsafe
      rw [load_saveProfile, accept_saveProfile, if_pos hname]
    · by_contra h
      exact not_crashSafe_saveProfile h hsafe
  · rintro ⟨hname, hcp, hleaves⟩
    obtain ⟨early, hkeeps, hops⟩ := saveProfile_copy profile hleaves
    apply crashSafe_of_copy hops hkeeps hcp hload
    rw [load_saveProfile, accept_saveProfile, if_neg hname]

/-- A plain save over an encrypted file, cut while the plain file is written. -/
theorem crashSafe_iff_plain_over_encrypted :
    let old : StoredProfile Nat := ⟨7, some "home", 1, false, 3⟩
    let files : EntryFiles Nat := Function.update (fun _ => none) .cp (some (.encrypted old))
    let profile : StoredProfile Nat := { old with rest := 4 }
    let env : SaveEnvironment := ⟨false, true, true, .opened⟩
    (∀ done rest, (saveProfile env false profile).operations = done ++ rest →
        loadVpnEntry id (execute done files) = some old ∨
          loadVpnEntry id (execute done files) =
            some ((saveProfile env false profile).profile.upgradeProfile id)) ↔
      profile.mName ≠ none ∧ files .cp ≠ none ∧
        (env.encrypts false = false ∨ env.renames = false ∧ env.output = .failed false) := by
  intro old files profile env
  exact crashSafe_iff id files old (by decide) env false profile

/-- The second plain save of a profile, cut while its file is written, leaves neither
    the old nor the new profile. -/
theorem not_crashSafe_plain :
    ¬ ∀ (es : List (StoreEvent Nat)) (u : UUID) (old : StoredProfile Nat) (env : SaveEnvironment)
        (encryptionBroken : Bool) (profile : StoredProfile Nat),
      loadVpnEntry id ((profileStore.run es).files (.uuid u)) = some old →
      ∀ done rest, (saveProfile env encryptionBroken profile).operations = done ++ rest →
        loadVpnEntry id (execute done ((profileStore.run es).files (.uuid u))) = some old ∨
          loadVpnEntry id (execute done ((profileStore.run es).files (.uuid u))) =
            some ((saveProfile env encryptionBroken profile).profile.upgradeProfile id) := by
  intro h
  let env : SaveEnvironment := ⟨false, true, true, .opened⟩
  let profile : StoredProfile Nat := ⟨7, some "home", 0, false, 3⟩
  have hcut := h [.saveProfile env profile] 7 profile.nextVersion env false profile.nextVersion
    (by decide +kernel) [.delete .cpold, .truncate .vp] _ rfl
  exact absurd hcut (by decide +kernel)

end OpenVpnAndroid
