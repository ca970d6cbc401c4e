/-
  OpenVpnAndroid/AdLoading.lean
  =============================
  **The flag `adLoadInProgress`, and the requests that it stands for.**

  `loadAd` does nothing while the flag of the type is set, so a flag that nothing will
  clear blocks the type.  A success clears it and so does the end of the list; but
  `loadAdFromList` returns at its other gates with the flag as it was, and neither it
  nor `loadAd` clears it for an offer of an unknown kind or for a missing list.

  `everyFlag_iff` says for every run when the flags can be trusted: no call may return
  that way while it alone could have cleared the flag.
-/
import OpenVpnAndroid.AdManager

namespace OpenVpnAndroid.FastVpn

variable {s s' : FastVpn} {adType : AdType} {adList : List AdEasy} {index : Nat}

/-- The SDK has been asked for an ad of the type and has not answered. -/
def Awaits (s : FastVpn) (adType : AdType) : Prop := ∃ r ∈ s.requests, r.adType = adType

instance (s : FastVpn) (adType : AdType) : Decidable (s.Awaits adType) := by
  unfold Awaits; infer_instance

/-- The flag of a type is set only while a request for it is open. -/
def FlagRight (s : FastVpn) (adType : AdType) : Prop :=
  s.adManager.adLoadInProgress adType = true → s.Awaits adType

instance (s : FastVpn) (adType : AdType) : Decidable (s.FlagRight adType) := by
  unfold FlagRight; infer_instance

def FlagsRight (s : FastVpn) : Prop := ∀ adType, s.FlagRight adType

theorem FlagRight.congr (hflags : s'.adManager.adLoadInProgress = s.adManager.adLoadInProgress)
    (hrequests : s'.requests = s.requests) : s'.FlagRight adType ↔ s.FlagRight adType := by
  rw [FlagRight, FlagRight, Awaits, Awaits, hflags, hrequests]

theorem FlagsRight.congr (hflags : s'.adManager.adLoadInProgress = s.adManager.adLoadInProgress)
    (hrequests : s'.requests = s.requests) : s'.FlagsRight ↔ s.FlagsRight :=
  forall_congr' fun _ => FlagRight.congr hflags hrequests

theorem Quiet.flagsRight (h : Quiet s s') : s'.FlagsRight ↔ s.FlagsRight :=
  FlagsRight.congr h.adLoadInProgress h.requests

/-- Where the flag is cleared, only the other types matter. -/
theorem flagsRight_setLoadInProgress_false :
    (s.setLoadInProgress adType false).FlagsRight ↔ ∀ t, t ≠ adType → s.FlagRight t := by
  constructor
  · intro h t ht
    have hflag := h t
    simpa [FlagRight, setLoadInProgress, Awaits, ht] using hflag
  · intro h t hset
    by_cases ht : t = adType
    · simp [setLoadInProgress, ht] at hset
    · simp only [setLoadInProgress, Function.update_of_ne ht] at hset
      exact h t ht hset

theorem flagsRight_iff (s : FastVpn) (adType : AdType) :
    s.FlagsRight ↔ s.FlagRight adType ∧ ∀ t, t ≠ adType → s.FlagRight t :=
  (and_forall_ne adType).symm

/-- A call returns with the flags in order when the request that it makes or the flag
    that it clears stands for its type; otherwise only if another request does. -/
theorem flagsRight_loadAdFromList (hother : ∀ t, t ≠ adType → s.FlagRight t) :
    (s.loadAdFromList adType adList index).FlagsRight ↔
      s.FlagRight adType ∨ ¬ s.Leaves adType adList index := by
  rcases s.loadAdFromList_cases adType adList index with
    ⟨hleaves, hquiet⟩ | ⟨hon, hend, heq⟩ | ⟨adEasy, format, s', hissues, hquiet, heq⟩
  · rw [hquiet.flagsRight, flagsRight_iff _ adType]
    simp only [hleaves, not_true, or_false]
    exact and_iff_left hother
  · have hnot : ¬ s.Leaves adType adList index := by
      rintro (hoff | ⟨adEasy, hoffer, -⟩)
      · simp [hon] at hoff
      · simp [hend] at hoffer
    rw [heq, flagsRight_setLoadInProgress_false]
    exact iff_of_true hother (.inr hnot)
  · refine iff_of_true ?_ (.inr hissues.not_leaves)
    rw [heq]
    intro t hset
    by_cases ht : t = adType
    · exact ⟨_, List.mem_append_right _ List.mem_cons_self, ht.symm⟩
    · have hflag : s.adManager.adLoadInProgress t = true := by
        rw [← hquiet.adLoadInProgress]
        exact hset
      obtain ⟨r, hr, hrt⟩ := hother t ht hflag
      exact ⟨r, List.mem_append_left _ (hquiet.requests ▸ hr), hrt⟩

/-! ### One step -/

/-- A request that is answered leaves the requests of other types open. -/
theorem flagRight_answered {i : Nat} {r : AdRequest} (hr : s.requests[i]? = some r)
    (h : s.FlagsRight) {t : AdType} (ht : t ≠ r.adType) :
    (s.answered i).FlagRight t := by
  intro hset
  obtain ⟨r', hr', hrt⟩ := h t hset
  obtain ⟨j, hj⟩ := List.getElem?_of_mem hr'
  have hne : j ≠ i := by
    rintro rfl
    obtain rfl : r' = r := by simpa [hr] using hj.symm
    exact ht hrt.symm
  exact ⟨r', List.mem_eraseIdx_iff_getElem?.mpr ⟨j, hne, hj⟩, hrt⟩

/-- What must hold of an event for the flags to stay right. -/
def KeepsFlags (s : FastVpn) : Event → Prop
  | .loadAd adType =>
      s.online = true → s.adManager.adLoadInProgress adType = false → s.Awaits adType ∨
        ∃ adList, s.surroundings.adListData.listOf adType = some adList ∧
          ¬ (s.startLoad adType).Leaves adType (sortedByDescending adList) 0
  | .adFailedToLoad i =>
      ∀ r, s.requests[i]? = some r → (s.answered i).FlagRight r.adType ∨
        ¬ (s.answered i).Leaves r.adType r.adList (r.index + 1)
  | _ => True

theorem flagRight_startLoad : (s.startLoad adType).FlagRight adType ↔ s.Awaits adType := by
  simp [FlagRight, startLoad, setLoadInProgress, Awaits]

theorem flagRight_startLoad_of_ne {t : AdType} (ht : t ≠ adType) :
    (s.startLoad adType).FlagRight t ↔ s.FlagRight t := by
  simp [FlagRight, startLoad, setLoadInProgress, Awaits, ht]

theorem flagsRight_loadAd (h : s.FlagsRight) :
    (s.loadAd adType).FlagsRight ↔ s.KeepsFlags (.loadAd adType) := by
  have hother : ∀ t, t ≠ adType → (s.startLoad adType).FlagRight t :=
    fun t ht => (flagRight_startLoad_of_ne ht).mpr (h t)
  rw [loadAd]
  split
  · rename_i hoff
    exact iff_of_true h fun hon => by simp [hoff] at hon
  · rename_i hon
    split
    · rename_i hset
      exact iff_of_true ((FlagsRight.congr rfl rfl).mpr h) fun _ hclear => by simp [hset] at hclear
    · rename_i hclear
      have hgo : s.KeepsFlags (.loadAd adType) ↔ s.Awaits adType ∨
          ∃ adList, s.surroundings.adListData.listOf adType = some adList ∧
            ¬ (s.startLoad adType).Leaves adType (sortedByDescending adList) 0 := by
        simp [KeepsFlags, hon, hclear]
      rw [hgo]
      split
      · rename_i hnull
        rw [flagsRight_iff _ adType, flagRight_startLoad, and_iff_left hother]
        simp [hnull]
      · rename_i adList hlist
        rw [flagsRight_loadAdFromList hother, flagRight_startLoad]
        simp [hlist]

theorem flagsRight_qcAd (s : FastVpn) (adType : AdType) (h : s.FlagsRight) :
    (s.qcAd adType).FlagsRight := by
  have hclear : (s.setLoadInProgress adType false).FlagsRight :=
    flagsRight_setLoadInProgress_false.mpr fun t _ => h t
  exact (FlagsRight.congr rfl rfl).mpr hclear

theorem flagsRight_showAd (h : s.FlagsRight) (adType : AdType) (foreground : Bool) :
    (s.showAd adType foreground).FlagsRight := by
  rw [showAd]
  split
  · exact h
  · split
    · exact (FlagsRight.congr rfl rfl).mpr h
    · exact h

theorem flagsRight_setDisplayEndNativeAdFlash (h : s.FlagsRight) :
    s.setDisplayEndNativeAdFlash.FlagsRight := by
  have hq : (s.setShowNumFun.qcAd .result_type).FlagsRight :=
    flagsRight_qcAd _ _ ((FlagsRight.congr rfl rfl).mpr h)
  rw [setDisplayEndNativeAdFlash]
  split
  · exact hq
  · exact (FlagsRight.congr rfl rfl).mpr hq

theorem flagsRight_adLoaded (h : s.FlagsRight) (i : Nat) : (s.answer i onAdLoaded).FlagsRight := by
  rw [answer]
  split
  · exact h
  · rename_i r hr
    exact flagsRight_setLoadInProgress_false.mpr fun t ht => flagRight_answered hr h ht

theorem flagsRight_adFailedToLoad (h : s.FlagsRight) (i : Nat) :
    (s.answer i onAdFailedToLoad).FlagsRight ↔ s.KeepsFlags (.adFailedToLoad i) := by
  rw [answer]
  split
  · rename_i hnone
    exact iff_of_true h fun r hr => by simp [hnone] at hr
  · rename_i r hr
    rw [onAdFailedToLoad, flagsRight_loadAdFromList fun t ht => flagRight_answered hr h ht]
    simp [KeepsFlags, hr]

theorem flagsRight_step (s : FastVpn) (e : Event) (h : s.FlagsRight) :
    (s.step e).FlagsRight ↔ s.KeepsFlags e := by
  cases e with
  | loadAd adType => exact flagsRight_loadAd h
  | adFailedToLoad i => exact flagsRight_adFailedToLoad h i
  | adLoaded i => exact iff_of_true (flagsRight_adLoaded h i) True.intro
  | qcAd adType => exact iff_of_true (flagsRight_qcAd s adType h) True.intro
  | showAd adType foreground => exact iff_of_true (flagsRight_showAd h adType foreground) True.intro
  | homeNativeShown =>
    exact iff_of_true (flagsRight_qcAd _ _ ((FlagsRight.congr rfl rfl).mpr h)) True.intro
  | endNativeShown => exact iff_of_true (flagsRight_setDisplayEndNativeAdFlash h) True.intro
  | canShowAd adType =>
    exact iff_of_true ((quiet_canShowAd s adType).flagsRight.mpr h) True.intro
  | clearAds server => exact iff_of_true (clearAds_of_qcAd flagsRight_qcAd h server) True.intro
  | adFailedToShow | adShowed | adClicked | setVpnStateData | surroundings | setVpnIp | startVPN =>
    exact iff_of_true ((FlagsRight.congr rfl rfl).mpr h) True.intro

/-! ### Runs -/

variable {surroundings : Surroundings} {preference : Preference} {vpnState : VpnStateData}
  {remote : Option Text}

theorem flagsRight_initial :
    (machine surroundings preference vpnState remote).initial.FlagsRight := by
  refine (quiet_resetCountsIfNeeded _).flagsRight.mpr fun t hset => ?_
  cases hset

/-- **The flags are right throughout a run exactly when every event keeps them.** -/
theorem everyFlag_iff (es : List Event) :
    (∀ before after, es = before ++ after →
        ((machine surroundings preference vpnState remote).run before).FlagsRight) ↔
      (machine surroundings preference vpnState remote).EveryStep KeepsFlags es :=
  Machine.everyState_iff (P := FlagsRight) flagsRight_initial flagsRight_step es

/-- The last answer comes when the VPN is disconnected.  Connected to the same server
    again, the app has no request for a result ad and will not make one. -/
theorem not_everyFlag :
    ¬ ∀ (surroundings : Surroundings) (preference : Preference) (vpnState : VpnStateData)
      (remote : Option Text) (es : List Event),
        ((machine surroundings preference vpnState remote).run es).FlagsRight := by
  intro h
  have hflag := h resultOfferOnly {} .DISCONNECTED none
    (openVTool "10.0.0.1" ++ setVpnState .CONNECTED ++ setVpnState .DISCONNECTED
      ++ [.adFailedToLoad 0] ++ openVTool "10.0.0.1" ++ setVpnState .CONNECTED) .result_type
  revert hflag
  decide

end OpenVpnAndroid.FastVpn
