/-
  OpenVpnAndroid/AdServer.lean
  ============================
  **The server that an ad was requested through, and the one that it is shown through.**

  `canShowAd` compares the current server with the address in the variable of the type,
  not with one that belongs to the cached ad.  The variable is written before a request
  and the cache by its answer, so between the two stands every request that writes the
  variable meanwhile: one of the next connection, one made after an hour while the old
  ad is still there, one for another type, and the copy of `setDisplayEndNativeAdFlash`.

  `labels_iff` says exactly in which runs the variables belong to the cached ads, and in
  these `canShowAd` shows only ads of the current server (`showsCurrent_of_everyStep`).
-/
import OpenVpnAndroid.AdManager

namespace OpenVpnAndroid.FastVpn

variable {s s' : FastVpn} {adType : AdType} {adList : List AdEasy} {index : Nat}

/-- An ad that may be shown was requested while the VPN was connected through the
    server that is now current. -/
def ShowsCurrent (s : FastVpn) : Prop :=
  ∀ adType, (s.canShowAd adType).1 = .ad_show → ∃ ad, s.adManager.adCache adType = some ad ∧
    ad.requestedThrough = some s.preference.tba_vpn_ip_type

/-- The variable of a type has the address that the cached ad was requested through. -/
def LabelRight (s : FastVpn) (adType : AdType) : Prop :=
  ∀ ad, s.adManager.adCache adType = some ad →
    ad.requestedThrough = (s.adManager.adData adType).map AdEasy.maxx_load_ip

def LabelsRight (s : FastVpn) : Prop := ∀ adType, s.LabelRight adType

theorem LabelsRight.showsCurrent (h : s.LabelsRight) : s.ShowsCurrent := by
  intro adType hshow
  have hip : (s.adManager.adData adType).map AdEasy.maxx_load_ip =
      some s.preference.tba_vpn_ip_type := by
    by_contra hne
    simp [canShowAd, hne] at hshow
  cases hcache : s.adManager.adCache adType with
  | none =>
    have hreset := (quiet_resetCountsIfNeeded s).adCache
    have hwait : ∀ canLoad : Bool,
        (if canLoad then ShowState.ad_wait else .ad_jump_over) ≠ .ad_show := by decide
    simp only [canShowAd, canLoadAd, hreset, hcache] at hshow
    split at hshow
    · cases hshow
    · split at hshow
      · cases hshow
      · split at hshow
        · cases hshow
        · exact absurd hshow (hwait _)
  | some ad => exact ⟨ad, rfl, (h adType ad hcache).trans hip⟩

theorem LabelsRight.congr (hcache : s'.adManager.adCache = s.adManager.adCache)
    (hdata : s'.adManager.adData = s.adManager.adData) : s'.LabelsRight ↔ s.LabelsRight := by
  simp only [LabelsRight, LabelRight, hcache, hdata]

theorem Quiet.labelsRight (h : Quiet s s') : s'.LabelsRight ↔ s.LabelsRight :=
  LabelsRight.congr h.adCache h.adData

theorem labelsRight_iff (s : FastVpn) (adType : AdType) :
    s.LabelsRight ↔ s.LabelRight adType ∧ ∀ t, t ≠ adType → s.LabelRight t :=
  (and_forall_ne adType).symm

/-- The cached ad of the type, if there is one, was requested through `ip`. -/
def MayBecome (s : FastVpn) (adType : AdType) (ip : Text) : Prop :=
  ∀ ad, s.adManager.adCache adType = some ad → ad.requestedThrough = some ip

/-- Writing one variable. -/
theorem labelsRight_setData (h : s.LabelsRight) (adType : AdType) (bean : AdEasy) :
    (s.setData adType bean).LabelsRight ↔ s.MayBecome adType bean.maxx_load_ip := by
  rw [labelsRight_iff _ adType]
  have hother : ∀ t, t ≠ adType → (s.setData adType bean).LabelRight t := by
    intro t ht ad had
    simp only [setData, Function.update_of_ne ht] at had ⊢
    exact h t ad had
  rw [and_iff_left hother]
  simp [LabelRight, MayBecome, setData]

theorem labelsRight_removeAd (h : s.LabelsRight) (adType : AdType) :
    (s.removeAd adType).LabelsRight := by
  intro t ad had
  by_cases ht : t = adType
  · simp [removeAd, ht] at had
  · simp only [removeAd, Function.update_of_ne ht] at had
    exact h t ad had

theorem labelsRight_qcAd (s : FastVpn) (adType : AdType) (h : s.LabelsRight) :
    (s.qcAd adType).LabelsRight :=
  labelsRight_removeAd ((LabelsRight.congr rfl rfl).mpr h) adType

theorem labelsRight_loadAdFromList (h : s.LabelsRight) :
    (s.loadAdFromList adType adList index).LabelsRight ↔
      ∀ adEasy format, s.Issues adType adList index adEasy format →
        s.MayBecome (dataOf format adType) s.preference.tba_vpn_ip_type := by
  rcases s.loadAdFromList_cases adType adList index with
    ⟨hleaves, hquiet⟩ | ⟨-, hend, heq⟩ | ⟨adEasy, format, s', hissues, hquiet, heq⟩
  · exact iff_of_true (hquiet.labelsRight.mpr h) fun _ _ hissues =>
      absurd hleaves hissues.not_leaves
  · rw [heq]
    exact iff_of_true ((LabelsRight.congr rfl rfl).mpr h) fun _ _ hissues => by
      simp [hissues.offer] at hend
  · have hbean : (s'.beforeLoadQTV adEasy).maxx_load_ip = s.preference.tba_vpn_ip_type := by
      have hon : s'.online = true := by
        rw [online, hquiet.vpnStateHotData, hquiet.surroundings]
        exact hissues.online
      simp [beforeLoadQTV, hon, hquiet.tba_vpn_ip_type]
    have hrequest : (request format s' adType adEasy adList index).LabelsRight ↔
        (s'.setData (dataOf format adType) (s'.beforeLoadQTV adEasy)).LabelsRight :=
      LabelsRight.congr rfl rfl
    rw [heq, hrequest, labelsRight_setData (hquiet.labelsRight.mpr h), hbean]
    constructor
    · rintro hmay adEasy' format' hissues'
      obtain ⟨-, rfl⟩ := hissues.unique hissues'
      exact fun ad had => hmay ad (hquiet.adCache ▸ had)
    · intro hall ad had
      exact hall adEasy format hissues ad (hquiet.adCache ▸ had)

/-! ### One step -/

/-- What must hold of an event for the variables to stay right. -/
def KeepsLabels (s : FastVpn) : Event → Prop
  | .loadAd adType =>
      s.adManager.adLoadInProgress adType = false → ∀ adList adEasy format,
        s.surroundings.adListData.listOf adType = some adList →
        (s.startLoad adType).Issues adType (sortedByDescending adList) 0 adEasy format →
        s.MayBecome (dataOf format adType) s.preference.tba_vpn_ip_type
  | .adFailedToLoad i =>
      ∀ r adEasy format, s.requests[i]? = some r →
        (s.answered i).Issues r.adType r.adList (r.index + 1) adEasy format →
        s.MayBecome (dataOf format r.adType) s.preference.tba_vpn_ip_type
  | .adLoaded i =>
      ∀ r, s.requests[i]? = some r →
        r.requestedThrough = (s.adManager.adData r.adType).map AdEasy.maxx_load_ip
  | .endNativeShown =>
      ∀ bean, s.adManager.adData .result_type = some bean →
        s.MayBecome .home_type bean.maxx_load_ip
  | _ => True

theorem labelsRight_loadAd (h : s.LabelsRight) :
    (s.loadAd adType).LabelsRight ↔ s.KeepsLabels (.loadAd adType) := by
  have hstart : (s.startLoad adType).LabelsRight := (LabelsRight.congr rfl rfl).mpr h
  rw [loadAd]
  split
  · rename_i hoff
    refine iff_of_true h fun _ _ _ _ _ hissues => ?_
    have hon : s.online = true := hissues.online
    simp [hoff] at hon
  · split
    · rename_i hset
      exact iff_of_true ((LabelsRight.congr rfl rfl).mpr h) fun hclear => by simp [hset] at hclear
    · rename_i hclear
      have hclear : s.adManager.adLoadInProgress adType = false := by simpa using hclear
      split
      · rename_i hnull
        exact iff_of_true hstart fun _ adList _ _ hlist => by simp [hnull] at hlist
      · rename_i adList hlist
        rw [labelsRight_loadAdFromList hstart]
        constructor
        · intro hall _ adList' adEasy format hlist' hissues
          obtain rfl : adList = adList' := by simpa [hlist] using hlist'
          exact hall adEasy format hissues
        · exact fun hkeeps adEasy format => hkeeps hclear adList adEasy format hlist

theorem labelsRight_adFailedToLoad (h : s.LabelsRight) (i : Nat) :
    (s.answer i onAdFailedToLoad).LabelsRight ↔ s.KeepsLabels (.adFailedToLoad i) := by
  have hanswered : (s.answered i).LabelsRight := (LabelsRight.congr rfl rfl).mpr h
  rw [answer]
  split
  · rename_i hnone
    exact iff_of_true h fun r _ _ hr => by simp [hnone] at hr
  · rename_i r hr
    rw [onAdFailedToLoad, labelsRight_loadAdFromList hanswered]
    constructor
    · intro hall r' adEasy format hr' hissues
      obtain rfl : r = r' := by simpa [hr] using hr'
      exact hall adEasy format hissues
    · exact fun hkeeps adEasy format => hkeeps r adEasy format hr

theorem labelsRight_adLoaded (h : s.LabelsRight) (i : Nat) :
    (s.answer i onAdLoaded).LabelsRight ↔ s.KeepsLabels (.adLoaded i) := by
  rw [answer]
  split
  · rename_i hnone
    exact iff_of_true h fun r hr => by simp [hnone] at hr
  · rename_i r hr
    rw [labelsRight_iff _ r.adType]
    have hother : ∀ t, t ≠ r.adType → ((s.answered i).onAdLoaded r).LabelRight t := by
      intro t ht ad had
      simp only [onAdLoaded, setLoadInProgress, Function.update_of_ne ht] at had
      exact h t ad had
    rw [and_iff_left hother]
    simp [LabelRight, KeepsLabels, onAdLoaded, setLoadInProgress, answered, hr]

theorem labelsRight_setDisplayEndNativeAdFlash (h : s.LabelsRight) :
    s.setDisplayEndNativeAdFlash.LabelsRight ↔ s.KeepsLabels .endNativeShown := by
  have hq : (s.setShowNumFun.qcAd .result_type).LabelsRight :=
    labelsRight_qcAd _ _ ((LabelsRight.congr rfl rfl).mpr h)
  have hdata : (s.setShowNumFun.qcAd .result_type).adManager.adData = s.adManager.adData := rfl
  rw [setDisplayEndNativeAdFlash]
  split
  · rename_i hnone
    rw [hdata] at hnone
    exact iff_of_true hq fun bean hbean => by simp [hnone] at hbean
  · rename_i bean hbean
    rw [hdata] at hbean
    rw [labelsRight_setData hq]
    simp [KeepsLabels, hbean, MayBecome, qcAd, removeAd, setLoadInProgress, setShowNumFun]

theorem labelsRight_showAd (h : s.LabelsRight) (adType : AdType) (foreground : Bool) :
    (s.showAd adType foreground).LabelsRight := by
  rw [showAd]
  split
  · exact h
  · split
    · exact labelsRight_removeAd h adType
    · exact h

theorem labelsRight_step (s : FastVpn) (e : Event) (h : s.LabelsRight) :
    (s.step e).LabelsRight ↔ s.KeepsLabels e := by
  cases e with
  | loadAd adType => exact labelsRight_loadAd h
  | adFailedToLoad i => exact labelsRight_adFailedToLoad h i
  | adLoaded i => exact labelsRight_adLoaded h i
  | endNativeShown => exact labelsRight_setDisplayEndNativeAdFlash h
  | qcAd adType => exact iff_of_true (labelsRight_qcAd s adType h) True.intro
  | showAd adType foreground =>
    exact iff_of_true (labelsRight_showAd h adType foreground) True.intro
  | adFailedToShow adType => exact iff_of_true (labelsRight_removeAd h adType) True.intro
  | homeNativeShown =>
    exact iff_of_true (labelsRight_qcAd _ _ ((LabelsRight.congr rfl rfl).mpr h)) True.intro
  | canShowAd adType =>
    exact iff_of_true ((quiet_canShowAd s adType).labelsRight.mpr h) True.intro
  | clearAds server => exact iff_of_true (clearAds_of_qcAd labelsRight_qcAd h server) True.intro
  | adShowed | adClicked | setVpnStateData | surroundings | setVpnIp | startVPN =>
    exact iff_of_true ((LabelsRight.congr rfl rfl).mpr h) True.intro

/-! ### Runs -/

variable {surroundings : Surroundings} {preference : Preference} {vpnState : VpnStateData}
  {remote : Option Text}

theorem labelsRight_initial :
    (machine surroundings preference vpnState remote).initial.LabelsRight := by
  refine (quiet_resetCountsIfNeeded _).labelsRight.mpr fun t ad had => ?_
  cases had

/-- The variables are right throughout a run exactly when every event keeps them. -/
theorem labels_iff (es : List Event) :
    (∀ before after, es = before ++ after →
        ((machine surroundings preference vpnState remote).run before).LabelsRight) ↔
      (machine surroundings preference vpnState remote).EveryStep KeepsLabels es :=
  Machine.everyState_iff (P := LabelsRight) labelsRight_initial labelsRight_step es

/-- **In a run whose events keep the variables right only ads of the current server are
    shown.** -/
theorem showsCurrent_of_everyStep (es : List Event)
    (h : (machine surroundings preference vpnState remote).EveryStep KeepsLabels es) :
    ∀ before after, es = before ++ after →
      ((machine surroundings preference vpnState remote).run before).ShowsCurrent :=
  fun before after heq => (labels_iff es |>.mpr h before after heq).showsCurrent

/-- Connected through one server, an ad of it is requested and may be shown. -/
theorem showsCurrent_of_everyStep_resultOfferOnly :
    let s := (machine resultOfferOnly {} .DISCONNECTED none).run
      (openVTool "10.0.0.1" ++ [.setVpnStateData .CONNECTED, .loadAd .result_type, .adLoaded 0])
    (s.canShowAd .result_type).1 = .ad_show ∧ s.ShowsCurrent := by
  have hcold : ∀ adType,
      ((machine resultOfferOnly {} .DISCONNECTED none).run
        (openVTool "10.0.0.1" ++ [.setVpnStateData .CONNECTED])).adManager.adCache adType = none :=
    fun adType => by cases adType <;> rfl
  refine ⟨by decide, showsCurrent_of_everyStep _ (Machine.everyStep_iff.mpr ?_) _ []
    (List.append_nil _).symm⟩
  refine ⟨True.intro, True.intro, True.intro, True.intro, ?_, ?_, True.intro⟩
  · intro _ _ _ _ _ _ ad had
    exact nomatch (hcold _).symm.trans had
  · intro r hr
    cases hr
    decide

/-- The answer to a request that was made through the first server comes when the
    next one has been made through the second. -/
theorem not_showsCurrent :
    ¬ ∀ (surroundings : Surroundings) (preference : Preference) (vpnState : VpnStateData)
      (remote : Option Text) (es : List Event),
        ((machine surroundings preference vpnState remote).run es).ShowsCurrent := by
  intro h
  obtain ⟨ad, had, hip⟩ := h resultOfferOnly {} .DISCONNECTED none
    (openVTool "10.0.0.1" ++ setVpnState .CONNECTED ++ setVpnState .DISCONNECTED
      ++ openVTool "10.0.0.2" ++ setVpnState .CONNECTED ++ [.adLoaded 0]) .result_type (by decide)
  obtain rfl : ad = ⟨.native, some "10.0.0.1"⟩ := Option.some.inj (had.symm.trans (by decide))
  revert hip
  decide

end OpenVpnAndroid.FastVpn
