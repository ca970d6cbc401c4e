/-
  OpenVpnAndroid/Reapplication.lean
  =================================
  **A bundle that is applied a second time.**

  The second application comes to the same entries as the first one, ends if that one
  has ended, and removes and sets nothing new.  What it may change is a profile that it
  does not recognise, which is imported and saved again every time, and a table with a
  profile that was added and not saved, which a lookup drops.  In all other cases it
  changes nothing (`reapplied_iff`).
-/
import OpenVpnAndroid.Recognition

namespace OpenVpnAndroid

namespace AppRestrictions

open ConfigParser (toLowerCase)
open ProfileManager

/-! ### The list -/

/-- The entry does not end the import. -/
def passes (device : Device) (s : ProfileManager) (e : Entry) : Bool :=
  unmodified s e || !crashes device e

/-- The entries that the import comes to. -/
def reached (device : Device) (s : ProfileManager) : List Entry → List Entry
  | [] => []
  | e :: es => e :: if passes device s e then reached device s es else []

/-- The entries are those of distinct UUIDs, by their texts. -/
structure Canonical (es : List Entry) : Prop where
  text : ∀ e ∈ es, ∃ u, UUID.toString u = e.uuid
  distinct : (es.map Entry.uuid).Nodup

section List

variable {device : Device} {s s' : ProfileManager} {e : Entry} {es : List Entry}

theorem mem_of_mem_reached (h : e ∈ reached device s es) : e ∈ es := by
  induction es with
  | nil => exact h
  | cons e' es ih =>
      rw [reached, List.mem_cons] at h
      rw [List.mem_cons]
      refine h.imp_right fun h => ?_
      split at h
      · exact ih h
      · exact absurd h List.not_mem_nil

theorem reached_congr (h : ∀ e ∈ es, passes device s' e = passes device s e) :
    reached device s' es = reached device s es := by
  induction es with
  | nil => rfl
  | cons e es ih =>
      rw [reached, reached, h e List.mem_cons_self,
        ih fun e' he' => h e' (List.mem_cons_of_mem e he')]

theorem passes_congr (h : unmodified s' e = unmodified s e) :
    passes device s' e = passes device s e := by
  rw [passes, passes, h]

theorem Canonical.tail (h : Canonical (e :: es)) : Canonical es :=
  ⟨fun e' he' => h.text e' (List.mem_cons_of_mem e he'), (List.nodup_cons.mp h.distinct).2⟩

/-- The other entries have other UUIDs. -/
theorem Canonical.other {u : UUID} (h : Canonical (e :: es)) (hu : UUID.toString u = e.uuid)
    {e' : Entry} (he' : e' ∈ es) : ∃ w, UUID.toString w = e'.uuid ∧ w ≠ u := by
  obtain ⟨w, hw⟩ := h.text e' (List.mem_cons_of_mem e he')
  refine ⟨w, hw, ?_⟩
  rintro rfl
  have hnotin := (List.nodup_cons.mp h.distinct).1
  rw [← hu, hw] at hnotin
  exact hnotin (List.mem_map_of_mem he')

theorem fst_importEntry (device : Device) (hs : s.Consistent) (e : Entry) :
    (importEntry device s e).1 = none ↔ passes device s e = true := by
  have himported := imported_importEntry device s e
  rw [passes, ← unmodified_searched hs e.uuid]
  generalize s.searched e.uuid = t at himported ⊢
  generalize importEntry device s e = r at himported ⊢
  cases himported with
  | unmodified hget hhash => simp [unmodified_of_get hget hhash]
  | rejected hmod hcrash _ => simp [hmod, hcrash]
  | stopped hmod hcrash => simp [hmod, hcrash]
  | added hmod himport _ => simp [hmod, crashes_of_imports (imports_of_ok himport)]

theorem keeps_importEntry (hs : s.Consistent) {u w : UUID} (hu : UUID.toString u = e.uuid)
    (hw : w ≠ u) : Keeps w s (importEntry device s e).2 := by
  have huuid : UUID.fromString e.uuid = some u := by rw [← hu, UUID.fromString_toString]
  have htouches := (importEntry_spec device e hs).2 u huuid
  exact (keeps_searched hs e.uuid w).trans (keeps_of_touches htouches hw)

/-- The manager `s'` after the import, whether it ends or is ended. -/
structure ImportedUpTo (device : Device) (es : List Entry) (s s' : ProfileManager) : Prop where
  consistent : s'.Consistent
  kept : ∀ u, UUID.toString u ∉ es.map Entry.uuid → Keeps u s s'
  processed : ∀ e ∈ reached device s es, Processed device s e (s'.get e.uuid)
  unreached : ∀ e ∈ es, e ∉ reached device s es → unmodified s' e = unmodified s e

/-- By induction on the list, with the manager after the first entry. -/
theorem importEntries_spec (device : Device) (hs : s.Consistent) (hes : Canonical es) :
    ((importEntries device es s).1 = none ↔ ∀ e ∈ es, passes device s e = true) ∧
      ImportedUpTo device es s (importEntries device es s).2 := by
  induction es generalizing s with
  | nil =>
      refine ⟨iff_of_true rfl (List.forall_mem_nil _), hs, fun u _ => .refl u s, ?_, ?_⟩
      · exact List.forall_mem_nil _
      · exact fun e he => absurd he List.not_mem_nil
  | cons e es ih =>
      obtain ⟨u, hu⟩ := hes.text e List.mem_cons_self
      have hconsistent := (importEntry_spec device e hs).1
      have hprocessed := processed_importEntry device hs hu
      have hpasses := fst_importEntry device hs e
      have hkeeps : ∀ w, w ≠ u → Keeps w s (importEntry device s e).2 :=
        fun w hw => keeps_importEntry hs hu hw
      have hkept : ∀ w, UUID.toString w ∉ (e :: es).map Entry.uuid →
          Keeps w s (importEntry device s e).2 := by
        intro w hw
        rw [List.map_cons, List.mem_cons, not_or] at hw
        exact hkeeps w fun heq => hw.1 (by rw [heq, hu])
      have hothers : ∀ e' ∈ es, unmodified (importEntry device s e).2 e' = unmodified s e' := by
        intro e' he'
        obtain ⟨w, hw, hne⟩ := hes.other hu he'
        exact (hkeeps w hne).hasHash hw
      rw [importEntries]
      generalize importEntry device s e = r at *
      obtain ⟨_ | stop, s₁⟩ := r
      · -- the first entry passes
        have hpass : passes device s e = true := hpasses.mp rfl
        obtain ⟨hended, hall⟩ := ih hconsistent hes.tail
        have hsame : ∀ e' ∈ es, passes device s₁ e' = passes device s e' :=
          fun e' he' => passes_congr (hothers e' he')
        have hreached := reached_congr hsame
        refine ⟨?_, hall.consistent, ?_, ?_, ?_⟩
        · refine hended.trans ?_
          rw [List.forall_mem_cons]
          constructor
          · exact fun h => ⟨hpass, fun e' he' => hsame e' he' ▸ h e' he'⟩
          · exact fun h e' he' => (hsame e' he').trans (h.2 e' he')
        · intro w hw
          have hw' := hw
          rw [List.map_cons, List.mem_cons, not_or] at hw'
          exact (hkept w hw).trans (hall.kept w hw'.2)
        · rw [reached, if_pos hpass, List.forall_mem_cons, ← hreached]
          refine ⟨hprocessed.kept hu (hall.kept u ?_), fun e' he' => ?_⟩
          · rw [hu]
            exact (List.nodup_cons.mp hes.distinct).1
          · obtain ⟨w, hw, hne⟩ := hes.other hu (mem_of_mem_reached he')
            exact (hall.processed e' he').of_keeps hw (hkeeps w hne)
        · rw [reached, if_pos hpass, ← hreached]
          intro e' he' hnot
          rw [List.mem_cons, not_or] at hnot
          obtain rfl | he' := List.mem_cons.mp he'
          · exact absurd rfl hnot.1
          · exact (hall.unreached e' he' hnot.2).trans (hothers e' he')
      · -- the first entry ends the import
        have hends : passes device s e ≠ true := by
          intro h
          cases hpasses.mpr h
        refine ⟨?_, hconsistent, hkept, ?_, ?_⟩
        · exact iff_of_false (Option.some_ne_none _) fun h => hends (h e List.mem_cons_self)
        · rw [reached, if_neg hends, List.forall_mem_singleton]
          exact hprocessed
        · rw [reached, if_neg hends]
          intro e' he' hnot
          rw [List.mem_singleton] at hnot
          obtain rfl | he' := List.mem_cons.mp he'
          · exact absurd rfl hnot
          · exact hothers e' he'

/-- What a part of an import may do: nothing, a load of the table, or more saves. -/
def Progress (s s' : ProfileManager) : Prop :=
  s' = s ∨ s' = s.loadVPNList ∨ s.saves < s'.saves

theorem Progress.saves_le (h : Progress s s') : s.saves ≤ s'.saves := by
  obtain rfl | rfl | hlt := h
  · exact Nat.le_refl _
  · exact Nat.le_refl _
  · exact hlt.le

theorem Progress.trans {s'' : ProfileManager} (h : Progress s s') (h' : Progress s' s'') :
    Progress s s'' := by
  obtain rfl | rfl | hlt := h
  · exact h'
  · obtain rfl | rfl | hlt := h'
    · exact .inr (.inl rfl)
    · exact .inr (.inl (loadVPNList_loadVPNList s))
    · exact .inr (.inr hlt)
  · exact .inr (.inr (Nat.lt_of_lt_of_le hlt h'.saves_le))

/-- What was changed is not restored. -/
theorem Progress.eq_of_eq {s'' : ProfileManager} (h : Progress s s') (h' : Progress s' s'')
    (heq : s'' = s) : s' = s := by
  subst heq
  obtain hsame | hload | hlt := h
  · exact hsame
  · obtain hsame | hload' | hlt := h'
    · exact hsame.symm
    · rw [hload', loadVPNList_loadVPNList] at hload
      exact hload.trans hload'.symm
    · rw [hload] at hlt
      exact absurd hlt (Nat.lt_irrefl _)
  · exact absurd (Nat.lt_of_lt_of_le hlt h'.saves_le) (Nat.lt_irrefl _)

theorem progress_importEntry (device : Device) (hs : s.Consistent) (e : Entry) :
    Progress s (importEntry device s e).2 := by
  obtain hstep | hsaves := importEntry_progress device hs e
  · rw [hstep, searched]
    split
    · exact .inl rfl
    · exact .inr (.inl rfl)
  · exact .inr (.inr hsaves)

theorem progress_importEntries (device : Device) (hs : s.Consistent) (es : List Entry) :
    Progress s (importEntries device es s).2 := by
  induction es generalizing s with
  | nil => exact .inl rfl
  | cons e es ih =>
      have hconsistent := (importEntry_spec device e hs).1
      have hstep := progress_importEntry device hs e
      rw [importEntries]
      generalize importEntry device s e = r at hconsistent hstep ⊢
      obtain ⟨_ | stop, s₁⟩ := r
      · exact hstep.trans (ih hconsistent)
      · exact hstep

/-- The list changes nothing if no entry does that the import comes to. -/
theorem importEntries_eq_self_iff (hs : s.Consistent) (es : List Entry) :
    (importEntries device es s).2 = s ↔
      ∀ e ∈ reached device s es, (importEntry device s e).2 = s := by
  induction es with
  | nil => exact iff_of_true rfl fun e he => absurd he List.not_mem_nil
  | cons e es ih =>
      have hconsistent := (importEntry_spec device e hs).1
      have hstep := progress_importEntry device hs e
      have hpasses := fst_importEntry device hs e
      rw [importEntries, reached, List.forall_mem_cons]
      generalize importEntry device s e = r at hconsistent hstep hpasses ⊢
      obtain ⟨_ | stop, s₁⟩ := r
      · rw [if_pos (hpasses.mp rfl), ← ih]
        dsimp only at hconsistent hstep ⊢
        constructor
        · intro heq
          have hfirst := hstep.eq_of_eq (progress_importEntries device hconsistent es) heq
          rw [hfirst] at heq
          exact ⟨hfirst, heq⟩
        · rintro ⟨rfl, heq⟩
          exact heq
      · have hends : passes device s e ≠ true := by
          intro h
          cases hpasses.mpr h
        rw [if_neg hends]
        exact ⟨fun h => ⟨h, fun _ he => absurd he List.not_mem_nil⟩, And.left⟩

end List

/-! ### The removal after the list -/

section Removal

variable {s : ProfileManager} {provisionedUuids : List Text}

theorem consistent_removeProfiles (hs : s.Consistent) (provisionedUuids : List Text) :
    (removeProfiles s provisionedUuids).Consistent := (foldl_removeProfile hs _).1

@[simp] theorem tmpprofile_removeProfiles :
    (removeProfiles s provisionedUuids).tmpprofile = s.tmpprofile := by
  rw [removeProfiles]
  induction profilesToRemove s provisionedUuids generalizing s with
  | nil => rfl
  | cons vp vps ih => exact ih

@[simp] theorem saves_removeProfiles :
    (removeProfiles s provisionedUuids).saves = s.saves := by
  rw [removeProfiles]
  induction profilesToRemove s provisionedUuids generalizing s with
  | nil => rfl
  | cons vp vps ih => exact ih

/-- A profile of the list stays. -/
theorem keeps_removeProfiles (hs : s.Consistent) {u : UUID}
    (hu : UUID.toString u ∈ provisionedUuids) : Keeps u s (removeProfiles s provisionedUuids) := by
  refine ⟨?_, fun vp _ => ?_⟩
  · rw [heldBy, heldBy, tmpprofile_removeProfiles]
  · rw [lookup_removeProfiles hs, if_neg fun hremoved => hremoved.2 hu]

theorem removeProfiles_eq_self (hs : s.Consistent)
    (h : ∀ u, Managed s u → UUID.toString u ∈ provisionedUuids) :
    removeProfiles s provisionedUuids = s := by
  have hnone : profilesToRemove s provisionedUuids = [] := by
    rw [List.eq_nil_iff_forall_not_mem]
    intro vp hvp
    obtain ⟨hmanaged, hnot⟩ := (mem_profilesToRemove hs provisionedUuids vp.mUuid).mp
      (List.mem_map_of_mem hvp)
    exact hnot (h _ hmanaged)
  rw [removeProfiles, hnone]
  rfl

theorem managed_of_loadVPNList (hs : s.Consistent) {u : UUID} (h : Managed s.loadVPNList u) :
    Managed s u := by
  obtain ⟨vp, hlookup, hcreator⟩ := h
  rw [lookup_loadVPNList hs] at hlookup
  split at hlookup
  · exact ⟨vp, hlookup, hcreator⟩
  · cases hlookup

end Removal

/-! ### The second application -/

/-- The manager after a bundle with those entries. -/
def applied (device : Device) (s : ProfileManager) (es : List Entry) : ProfileManager :=
  match importEntries device es s with
  | (some _, s) => s
  | (none, s) => removeProfiles s (es.map Entry.uuid)

/-- What a store and the store after the first application must be for the second one
    to change nothing.  What is imported is recognised, and a lookup does not drop a
    profile that was not saved. -/
structure Settled (device : Device) (s t : ProfileManager) (es : List Entry) : Prop where
  recognised : ∀ e ∈ reached device s es, unmodified s e = false → imports device e = true →
    Recognisable s e
  saved : ∀ e ∈ reached device s es, missing t e = true → AllSaved t

section Application

variable {device : Device} {s : ProfileManager} {es : List Entry}

theorem applied_of_ended (h : (importEntries device es s).1 = none) :
    applied device s es = removeProfiles (importEntries device es s).2 (es.map Entry.uuid) := by
  rw [applied]
  generalize importEntries device es s = r at h ⊢
  obtain ⟨stop, t⟩ := r
  obtain rfl := h
  rfl

theorem applied_of_stopped (h : (importEntries device es s).1 ≠ none) :
    applied device s es = (importEntries device es s).2 := by
  rw [applied]
  generalize importEntries device es s = r at h ⊢
  obtain ⟨_ | stop, t⟩ := r
  · exact absurd rfl h
  · rfl

/-- The removal keeps what the import leaves for the entries. -/
theorem keeps_applied (hs : s.Consistent) {u : UUID} (hu : UUID.toString u ∈ es.map Entry.uuid) :
    Keeps u (importEntries device es s).2 (applied device s es) := by
  by_cases hended : (importEntries device es s).1 = none
  · rw [applied_of_ended hended]
    exact keeps_removeProfiles (consistent_importEntries device hs es) hu
  · rw [applied_of_stopped hended]
    exact .refl _ _

theorem consistent_applied (device : Device) (hs : s.Consistent) (es : List Entry) :
    (applied device s es).Consistent := by
  have hconsistent := consistent_importEntries device hs es
  by_cases hended : (importEntries device es s).1 = none
  · rw [applied_of_ended hended]
    exact consistent_removeProfiles hconsistent _
  · rwa [applied_of_stopped hended]

theorem processed_applied (device : Device) (hs : s.Consistent) (hes : Canonical es) :
    (∀ e ∈ reached device s es, Processed device s e ((applied device s es).get e.uuid)) ∧
      ∀ e ∈ es, e ∉ reached device s es →
        unmodified (applied device s es) e = unmodified s e := by
  obtain ⟨_, hall⟩ := importEntries_spec device hs hes
  have hkeeps : ∀ e ∈ es, ∃ u, UUID.toString u = e.uuid ∧
      Keeps u (importEntries device es s).2 (applied device s es) := by
    intro e he
    obtain ⟨u, hu⟩ := hes.text e he
    exact ⟨u, hu, keeps_applied hs (hu ▸ List.mem_map_of_mem he)⟩
  refine ⟨fun e he => ?_, fun e he hnot => ?_⟩
  · obtain ⟨u, hu, hkept⟩ := hkeeps e (mem_of_mem_reached he)
    exact (hall.processed e he).kept hu hkept
  · obtain ⟨u, hu, hkept⟩ := hkeeps e he
    exact (hkept.hasHash hu).trans (hall.unreached e he hnot)

/-- The second application comes to the same entries. -/
theorem passes_applied (device : Device) (hs : s.Consistent) (hes : Canonical es) :
    ∀ e ∈ es, passes device (applied device s es) e = passes device s e := by
  intro e he
  obtain ⟨hprocessed, hunreached⟩ := processed_applied device hs hes
  by_cases hreached : e ∈ reached device s es
  · have hproc := hprocessed e hreached
    cases hcrash : crashes device e with
    | false => simp [passes, hcrash]
    | true =>
        refine passes_congr ?_
        cases hmod : unmodified s e with
        | true => exact hproc.unmodified hmod
        | false => exact hproc.rejected hmod (imports_of_crashes hcrash)
  · exact passes_congr (hunreached e he hreached)

theorem ended_applied (device : Device) (hs : s.Consistent) (hes : Canonical es) :
    (importEntries device es (applied device s es)).1 = none ↔
      (importEntries device es s).1 = none := by
  have hpasses := passes_applied device hs hes
  rw [(importEntries_spec device (consistent_applied device hs es) hes).1,
    (importEntries_spec device hs hes).1]
  constructor
  · exact fun h e he => hpasses e he ▸ h e he
  · exact fun h e he => (hpasses e he).trans (h e he)

/-- An entry changes nothing the second time if its lookup drops nothing and what was
    imported is recognised. -/
theorem importEntry_applied_iff (hs : s.Consistent) (hes : Canonical es) {e : Entry}
    (he : e ∈ reached device s es) :
    (importEntry device (applied device s es) e).2 = applied device s es ↔
      (missing (applied device s es) e = true → AllSaved (applied device s es)) ∧
        (unmodified s e = false → imports device e = true → Recognisable s e) := by
  have ht := consistent_applied device hs es
  obtain ⟨u, hu⟩ := hes.text e (mem_of_mem_reached he)
  have hproc := (processed_applied device hs hes).1 e he
  rw [importEntry_eq_self_iff ht hu hproc.hasAlias, searched_eq_self_iff ht]
  refine and_congr_right fun _ => ?_
  rw [unmodified_eq (applied device s es)]
  constructor
  · intro h hmod himports
    rw [← hproc.added hmod himports]
    by_contra hhash
    rw [Bool.not_eq_true] at hhash
    rw [h hhash] at himports
    cases himports
  · intro h hhash
    by_contra himports
    rw [Bool.not_eq_false] at himports
    cases hmod : unmodified s e with
    | true =>
        rw [hproc.unmodified hmod] at hhash
        cases hhash
    | false =>
        rw [(hproc.added hmod himports).mpr (h hmod himports)] at hhash
        cases hhash

/-- The removal after the second import removes nothing that the first has left. -/
theorem applied_applied_eq_iff (hs : s.Consistent) (hes : Canonical es) :
    applied device (applied device s es) es = applied device s es ↔
      (importEntries device es (applied device s es)).2 = applied device s es := by
  have ht := consistent_applied device hs es
  have hended := ended_applied device hs hes
  by_cases hfirst : (importEntries device es s).1 = none
  · have hmanaged : ∀ u, Managed (applied device s es) u → UUID.toString u ∈ es.map Entry.uuid := by
      intro u h
      rw [applied_of_ended hfirst,
        managed_removeProfiles (consistent_importEntries device hs es)] at h
      exact h.2
    rw [applied_of_ended (hended.mpr hfirst)]
    generalize applied device s es = t at ht hmanaged ⊢
    obtain hsame | hload | hlt := progress_importEntries device ht es
    · rw [hsame, removeProfiles_eq_self ht hmanaged]
    · rw [hload, removeProfiles_eq_self ht.loadVPNList fun u h =>
        hmanaged u (managed_of_loadVPNList ht h)]
    · refine iff_of_false (fun heq => ?_) fun heq => ?_
      · have hsaves := congrArg ProfileManager.saves heq
        rw [saves_removeProfiles] at hsaves
        exact absurd hsaves hlt.ne'
      · exact absurd (congrArg ProfileManager.saves heq) hlt.ne'
  · rw [applied_of_stopped (mt hended.mp hfirst)]

theorem applied_applied_iff (device : Device) (hs : s.Consistent) (hes : Canonical es) :
    applied device (applied device s es) es = applied device s es ↔
      Settled device s (applied device s es) es := by
  have hentries : (∀ e ∈ reached device s es,
      (importEntry device (applied device s es) e).2 = applied device s es) ↔
      ∀ e ∈ reached device s es,
        (missing (applied device s es) e = true → AllSaved (applied device s es)) ∧
          (unmodified s e = false → imports device e = true → Recognisable s e) :=
    forall₂_congr fun e he => importEntry_applied_iff hs hes he
  rw [applied_applied_eq_iff hs hes, importEntries_eq_self_iff (consistent_applied device hs es),
    reached_congr (passes_applied device hs hes), hentries]
  constructor
  · exact fun h => ⟨fun e he => (h e he).2, fun e he => (h e he).1⟩
  · exact fun h e he => ⟨h.saved e he, h.recognised e he⟩

/-- Where all profiles were saved before, a lookup drops nothing. -/
theorem allSaved_importEntries (device : Device) (hs : s.Consistent) (hes : Canonical es)
    (hsaved : AllSaved s) : AllSaved (importEntries device es s).2 := by
  induction es generalizing s with
  | nil => exact hsaved
  | cons e es ih =>
      obtain ⟨u, hu⟩ := hes.text e List.mem_cons_self
      obtain ⟨hconsistent, htouches⟩ := importEntry_spec device e hs
      have htouches := htouches u (by rw [← hu, UUID.fromString_toString])
      rw [hsaved.searched hs] at htouches
      have hstep := hsaved.of_touches hconsistent htouches
      rw [importEntries]
      generalize importEntry device s e = r at hconsistent hstep ⊢
      obtain ⟨_ | stop, s₁⟩ := r
      · exact ih hconsistent hes.tail hstep
      · exact hstep

theorem settled_iff_of_allSaved (hs : s.Consistent) (hes : Canonical es) (hsaved : AllSaved s) :
    Settled device s (applied device s es) es ↔
      ∀ e ∈ reached device s es, unmodified s e = false → imports device e = true →
        Recognisable s e := by
  have himported := allSaved_importEntries device hs hes hsaved
  have hafter : AllSaved (applied device s es) := by
    by_cases hended : (importEntries device es s).1 = none
    · rw [applied_of_ended hended]
      exact himported.removeProfiles _
    · rwa [applied_of_stopped hended]
  exact ⟨Settled.recognised, fun h => ⟨h, fun _ _ _ => hafter⟩⟩

end Application

/-! ### The preferences -/

/-- The preferences after a bundle whose import ends. -/
def settings (restrictions : Restrictions) (prefs : Preferences) : Preferences :=
  setMiscSettings
    (setAllowedRemoteControl
      (setDefaultProfile prefs restrictions.defaultprofile
        ((entries (profileList restrictions)).map Entry.uuid))
      restrictions)
    restrictions

/-- The preferences are the same but for the counter. -/
def SamePreferences (prefs prefs' : Preferences) : Prop :=
  { prefs' with counter := prefs.counter } = prefs

section Preferences

variable {prefs prefs' : Preferences}

/-- What the default profile is set to stays. -/
theorem setDefaultProfile_eq_self {defaultprofile : Option Text} {provisionedUuids : List Text}
    (h : prefs'.alwaysOnVpn =
      (setDefaultProfile prefs defaultprofile provisionedUuids).alwaysOnVpn) :
    setDefaultProfile prefs' defaultprofile provisionedUuids = prefs' := by
  rw [setDefaultProfile] at h ⊢
  generalize defaultprofile.map toLowerCase = uuid at h ⊢
  cases uuid with
  | none => rfl
  | some uuid =>
      dsimp only at h ⊢
      simp only [Bool.and_eq_true, bne_iff_ne, ne_eq] at h ⊢
      refine if_neg fun hset => ?_
      obtain ⟨hlisted, hother⟩ := hset
      by_cases hbefore : prefs.alwaysOnVpn = some uuid
      · rw [if_neg fun hset => hset.2 hbefore] at h
        exact hother (h.trans hbefore)
      · rw [if_pos ⟨hlisted, hbefore⟩] at h
        exact hother h

theorem setAllowedRemoteControl_eq (prefs : Preferences) (restrictions : Restrictions) :
    setAllowedRemoteControl prefs restrictions =
      { prefs with
        allowed_apps := (restrictions.allowed_remote_access.map packageNames).getD
          prefs.allowed_apps
        allowed_apps_managed := restrictions.allowed_remote_access.isSome
        counter := (setAllowedRemoteControl prefs restrictions).counter } := by
  rw [setAllowedRemoteControl]
  cases restrictions.allowed_remote_access with
  | none => rfl
  | some allowedApps =>
      dsimp only
      split
      · rfl
      · rename_i hsame
        rw [ne_eq, not_not] at hsame
        simp [← hsame, Preferences.saveExtAppList, Preferences.setFlagManagedConfiguration,
          Preferences.increaseWorkaroundCounter]

theorem samePreferences_settings (restrictions : Restrictions) (prefs : Preferences) :
    SamePreferences (settings restrictions prefs)
      (settings restrictions (settings restrictions prefs)) := by
  have hdefault : setDefaultProfile (settings restrictions prefs) restrictions.defaultprofile
      ((entries (profileList restrictions)).map Entry.uuid) = settings restrictions prefs := by
    have hset : (settings restrictions prefs).alwaysOnVpn =
        (setDefaultProfile prefs restrictions.defaultprofile
          ((entries (profileList restrictions)).map Entry.uuid)).alwaysOnVpn := by
      rw [settings, setAllowedRemoteControl_eq]
      rfl
    exact setDefaultProfile_eq_self hset
  have happs : (settings restrictions prefs).allowed_apps =
      (restrictions.allowed_remote_access.map packageNames).getD
        (settings restrictions prefs).allowed_apps := by
    rw [settings, setAllowedRemoteControl_eq]
    cases restrictions.allowed_remote_access <;> rfl
  have hmanaged : (settings restrictions prefs).allowed_apps_managed =
      restrictions.allowed_remote_access.isSome := by
    rw [settings, setAllowedRemoteControl_eq]
    rfl
  have hscreenoff : (settings restrictions prefs).screenoff =
      restrictions.screenoffpausevpn.orElse fun _ => (settings restrictions prefs).screenoff := by
    rw [settings, setMiscSettings]
    cases restrictions.screenoffpausevpn <;> rfl
  have hrestart : (settings restrictions prefs).restartvpnonboot =
      restrictions.restartvpnonboot.orElse fun _ =>
        (settings restrictions prefs).restartvpnonboot := by
    rw [settings, setMiscSettings]
    cases restrictions.restartvpnonboot <;> rfl
  generalize settings restrictions prefs = prefs' at *
  rw [SamePreferences, settings, hdefault, setAllowedRemoteControl_eq, setMiscSettings]
  dsimp only
  rw [← happs, ← hmanaged, ← hscreenoff, ← hrestart]

end Preferences

/-! ### The bundle -/

/-- The stored profiles are the same, and the preferences but for the workaround
    counter. -/
structure Unchanged (before after : App) : Prop where
  manager : after.manager = before.manager
  prefs : SamePreferences before.prefs after.prefs

section Bundle

variable {device : Device} {app : App} {restrictions : Restrictions}

theorem manager_parseRestrictionsBundle (hexpected : Expected restrictions) :
    (parseRestrictionsBundle device app (some restrictions)).2.manager =
      applied device app.manager (entries (profileList restrictions)) := by
  cases hended : (importEntries device (entries (profileList restrictions)) app.manager).1 with
  | none => rw [parseRestrictionsBundle_of_ended hexpected hended, applied_of_ended hended]
  | some stop =>
      rw [parseRestrictionsBundle_of_stopped hexpected hended, applied_of_stopped]
      exact Option.ne_none_iff_exists'.mpr ⟨stop, hended⟩

theorem prefs_of_ended (hexpected : Expected restrictions)
    (hended : (importEntries device (entries (profileList restrictions)) app.manager).1 = none) :
    (parseRestrictionsBundle device app (some restrictions)).2.prefs =
      settings restrictions app.prefs := by
  rw [parseRestrictionsBundle_of_ended hexpected hended]
  rfl

theorem prefs_of_stopped (hexpected : Expected restrictions)
    (hended : (importEntries device (entries (profileList restrictions)) app.manager).1 ≠ none) :
    (parseRestrictionsBundle device app (some restrictions)).2.prefs = app.prefs := by
  obtain ⟨stop, hstopped⟩ := Option.ne_none_iff_exists'.mp hended
  rw [parseRestrictionsBundle_of_stopped hexpected hstopped]

/-- The second application changes no preference: its import ends if the first one does. -/
theorem samePreferences_parseRestrictionsBundle (device : Device)
    (hexpected : Expected restrictions) (hs : app.manager.Consistent)
    (hes : Canonical (entries (profileList restrictions))) :
    SamePreferences (parseRestrictionsBundle device app (some restrictions)).2.prefs
      (parseRestrictionsBundle device
        (parseRestrictionsBundle device app (some restrictions)).2
        (some restrictions)).2.prefs := by
  have hended := ended_applied device hs hes
  rw [← manager_parseRestrictionsBundle hexpected] at hended
  by_cases hfirst :
      (importEntries device (entries (profileList restrictions)) app.manager).1 = none
  · rw [prefs_of_ended hexpected (hended.mpr hfirst), prefs_of_ended hexpected hfirst]
    exact samePreferences_settings restrictions app.prefs
  · rw [prefs_of_stopped hexpected (mt hended.mp hfirst)]
    rfl

theorem unchanged_parseRestrictionsBundle_iff (hs : app.manager.Consistent)
    (hes : Canonical (entries (profileList restrictions))) :
    Unchanged (parseRestrictionsBundle device app (some restrictions)).2
        (parseRestrictionsBundle device
          (parseRestrictionsBundle device app (some restrictions)).2 (some restrictions)).2 ↔
      (Expected restrictions → Settled device app.manager
        (parseRestrictionsBundle device app (some restrictions)).2.manager
        (entries (profileList restrictions))) := by
  by_cases hexpected : Expected restrictions
  · have hprefs := samePreferences_parseRestrictionsBundle device hexpected hs hes
    have hsettled := applied_applied_iff device hs hes
    rw [← manager_parseRestrictionsBundle hexpected,
      ← manager_parseRestrictionsBundle hexpected] at hsettled
    constructor
    · exact fun h _ => hsettled.mp h.manager
    · exact fun h => ⟨hsettled.mpr (h hexpected), hprefs⟩
  · have hsame : ∀ app' : App,
        (parseRestrictionsBundle device app' (some restrictions)).2 = app' := by
      intro app'
      rw [parseRestrictionsBundle, if_neg hexpected]
    rw [hsame, hsame]
    exact iff_of_true ⟨rfl, rfl⟩ fun h => absurd h hexpected

end Bundle

/-! ### Applying a bundle again -/

/-- **The second application changes nothing**, from any consistent store and for any
    bundle whose entries have distinct UUIDs in their texts, exactly if what the first
    one has imported is recognised and a lookup does not drop a profile that was not
    saved. -/
theorem reapplied_iff (device : Device) (app : App) (restrictions : Restrictions)
    (hs : app.manager.Consistent) (h : Canonical (entries (profileList restrictions))) :
    let first := (parseRestrictionsBundle device app (some restrictions)).2
    let second := (parseRestrictionsBundle device first (some restrictions)).2
    Unchanged first second ↔
      (Expected restrictions →
        Settled device app.manager first.manager (entries (profileList restrictions))) :=
  unchanged_parseRestrictionsBundle_iff hs h

def provisionedUuid : Text := "f8aee125-2d7a-44e9-b9eb-82fb619d51cc"

theorem entries_oneProfile {ovpn : Text} (hne : ovpn.isEmpty = false) :
    entries (profileList (oneProfile provisionedUuid ovpn)) =
      [⟨provisionedUuid, ovpn, "Unit Test VPN", none⟩] := by
  have huuid : toLowerCase provisionedUuid = provisionedUuid := by decide +kernel
  have hnonempty : provisionedUuid.isEmpty = false := by decide +kernel
  simp [entries, profileList, oneProfile, Parcelable.entry, isEmptyText, hne, huuid, hnonempty]

theorem canonical_oneProfile {ovpn : Text} (hne : ovpn.isEmpty = false) :
    Canonical (entries (profileList (oneProfile provisionedUuid ovpn))) := by
  rw [entries_oneProfile hne]
  have hkey : (UUID.ofKey provisionedUuid).isSome := by decide +kernel
  obtain ⟨u, hu⟩ := Option.isSome_iff_exists.mp hkey
  refine ⟨fun e he => ⟨u, ?_⟩, List.nodup_singleton _⟩
  obtain rfl := List.mem_singleton.mp he
  exact UUID.ofKey_eq_some.mp hu

/-- The bundle of the tests, from an app without profiles. -/
theorem reapplied_iff_miniconfig :
    let restrictions := oneProfile provisionedUuid miniconfig
    let first := (parseRestrictionsBundle plainDevice freshApp (some restrictions)).2
    let second := (parseRestrictionsBundle plainDevice first (some restrictions)).2
    Unchanged first second ↔
      (Expected restrictions →
        Settled plainDevice freshApp.manager first.manager (entries (profileList restrictions))) :=
  reapplied_iff plainDevice freshApp _ consistent_freshApp (canonical_oneProfile (by decide))

theorem unmodified_freshApp (e : Entry) : unmodified freshApp.manager e = false := by
  have hnone : freshApp.manager.get e.uuid = none := by
    simp [ProfileManager.get, freshApp]
  rw [unmodified_eq, hnone]
  rfl

/-- The configuration "client", "remote test.blinkt.de" with a tab and with carriage
    returns for line ends, in Base64. -/
def carriageReturns : Text := "Y2xpZW50DXJlbW90ZQl0ZXN0LmJsaW5rdC5kZQ0="

/-- What is decoded from Base64 and has neither a blank nor a line feed is decoded again
    for its hash, so its profile is imported every time. -/
theorem not_reapplied_carriageReturns :
    ¬ ∀ (device : Device) (app : App) (restrictions : Restrictions), app.manager.Consistent →
      Canonical (entries (profileList restrictions)) →
      Unchanged (parseRestrictionsBundle device app (some restrictions)).2
        (parseRestrictionsBundle device
          (parseRestrictionsBundle device app (some restrictions)).2 (some restrictions)).2 := by
  intro hall
  have hne : carriageReturns.isEmpty = false := by decide
  have hes := canonical_oneProfile hne
  have hunchanged := hall plainDevice freshApp _ consistent_freshApp hes
  have hexpected : Expected (oneProfile provisionedUuid carriageReturns) := by decide +kernel
  have hsettled := (unchanged_parseRestrictionsBundle_iff consistent_freshApp hes).mp hunchanged
    hexpected
  have hrecognised := hsettled.recognised
  rw [entries_oneProfile hne] at hrecognised
  have himports : imports plainDevice
      ⟨provisionedUuid, carriageReturns, "Unit Test VPN", none⟩ = true := by
    rw [imports, importOf]
    decide +kernel
  have hrec := hrecognised _ List.mem_cons_self (unmodified_freshApp _) himports
  have hhash := hashConfig_eq_iff.mp hrec.hash
  revert hhash
  decide +kernel

end AppRestrictions

end OpenVpnAndroid
