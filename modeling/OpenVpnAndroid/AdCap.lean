/-
  OpenVpnAndroid/AdCap.lean
  =========================
  **The daily cap on ads.**

  `canLoadAd` compares the counts of the day with `easy_esc` and `easy_kfv`.
  `loadAdFromList` asks it before every request, but an ad that is cached already is
  shown whatever it says: the last two conditions of `canShowAd` both end in `ad_show`.
  So every type with an ad in the cache adds one to the cap.

  `capped_iff` says for the runs of one day when the cap holds.
-/
import OpenVpnAndroid.AdManager

namespace OpenVpnAndroid

/-- The app on one day, with the ads that were really shown and clicked. -/
structure AdDay where
  fastVpn : FastVpn
  /-- The last check returned `ad_show`, and no ad was shown since. -/
  permitted : Bool := false
  shown : Int
  clicked : Int

/-- The time and the counts are of one day. -/
def FastVpn.SameDay (s : FastVpn) : Prop :=
  s.isSameDay s.preference.ad_load_date s.surroundings.currentTimeMillis = true

namespace AdDay

open FastVpn (Event)

/-- An ad comes up, and is counted. -/
def Shows : Event → Bool
  | .adShowed | .homeNativeShown | .endNativeShown => true
  | _ => false

def step (d : AdDay) (e : Event) : AdDay where
  fastVpn := d.fastVpn.step e
  permitted :=
    match e with
    | .canShowAd adType => (d.fastVpn.canShowAd adType).1 = .ad_show
    | e => d.permitted && !Shows e
  shown := if Shows e then d.shown + 1 else d.shown
  clicked :=
    match e with
    | .adClicked => d.clicked + 1
    | _ => d.clicked

/-- The counts that the preferences have for the day go on. -/
def machine (s : FastVpn) : Machine AdDay Event where
  initial :=
    { fastVpn := s, shown := s.preference.ad_show_nums, clicked := s.preference.ad_click_nums }
  step := step

/-- A step of one day with fixed limits.  An ad is shown only after a check that
    permits it, and is counted before the next one. -/
structure InDay (d : AdDay) (e : Event) : Prop where
  sameDay : d.fastVpn.SameDay
  easy_esc : d.fastVpn.surroundings.adListData.easy_esc = d.fastVpn.adManager.adAllData.easy_esc
  easy_kfv : d.fastVpn.surroundings.adListData.easy_kfv = d.fastVpn.adManager.adAllData.easy_kfv
  permitted : Shows e = true → d.permitted = true

instance (d : AdDay) (e : Event) : Decidable (InDay d e) :=
  decidable_of_iff (d.fastVpn.isSameDay d.fastVpn.preference.ad_load_date
        d.fastVpn.surroundings.currentTimeMillis = true ∧
      d.fastVpn.surroundings.adListData.easy_esc = d.fastVpn.adManager.adAllData.easy_esc ∧
      d.fastVpn.surroundings.adListData.easy_kfv = d.fastVpn.adManager.adAllData.easy_kfv ∧
      (Shows e = true → d.permitted = true))
    ⟨fun ⟨h1, h2, h3, h4⟩ => ⟨h1, h2, h3, h4⟩, fun ⟨h1, h2, h3, h4⟩ => ⟨h1, h2, h3, h4⟩⟩

/-- Fewer ads were shown and clicked than the limits allow. -/
def BelowLimits (d : AdDay) : Prop :=
  d.shown < d.fastVpn.adManager.adAllData.easy_esc ∧
    d.clicked < d.fastVpn.adManager.adAllData.easy_kfv

instance (d : AdDay) : Decidable d.BelowLimits := inferInstanceAs (Decidable (_ ∧ _))

/-- A check permits an ad only below the limits. -/
def Capped (d : AdDay) : Event → Prop
  | .canShowAd adType => (d.fastVpn.canShowAd adType).1 = .ad_show → d.BelowLimits
  | _ => True

end AdDay

namespace FastVpn

/-- The type has a cached ad, and the gates other than the cap let it be shown. -/
structure Showable (s : FastVpn) (adType : AdType) : Prop where
  address : (s.adManager.adData adType).map AdEasy.maxx_load_ip =
    some s.preference.tba_vpn_ip_type
  online : s.online = true
  bought : (!s.surroundings.blockAdUsers && boughtOnly adType) = false
  black : (s.surroundings.adBlackData && blackListed adType) = false
  cached : (s.adManager.adCache adType).isSome = true

instance (s : FastVpn) (adType : AdType) : Decidable (s.Showable adType) :=
  decidable_of_iff ((s.adManager.adData adType).map AdEasy.maxx_load_ip =
        some s.preference.tba_vpn_ip_type ∧ s.online = true ∧
      (!s.surroundings.blockAdUsers && boughtOnly adType) = false ∧
      (s.surroundings.adBlackData && blackListed adType) = false ∧
      (s.adManager.adCache adType).isSome = true)
    ⟨fun ⟨h1, h2, h3, h4, h5⟩ => ⟨h1, h2, h3, h4, h5⟩,
      fun ⟨h1, h2, h3, h4, h5⟩ => ⟨h1, h2, h3, h4, h5⟩⟩

variable {s s' : FastVpn} {adType : AdType} {adList : List AdEasy} {index : Nat}

/-- The cap has no part in it. -/
theorem canShowAd_eq_ad_show_iff (s : FastVpn) (adType : AdType) :
    (s.canShowAd adType).1 = .ad_show ↔ s.Showable adType := by
  have hcache := (quiet_resetCountsIfNeeded s).adCache
  constructor
  · intro h
    rw [canShowAd] at h
    dsimp only at h
    split at h
    · cases h
    · rename_i haddress
      obtain ⟨haddress, honline⟩ := not_or.mp haddress
      split at h
      · cases h
      · rename_i hbought
        split at h
        · cases h
        · rename_i hblack
          simp only [canLoadAd, hcache] at h
          split at h
          · have hwait : ∀ canLoad : Bool,
                (if canLoad then ShowState.ad_wait else .ad_jump_over) ≠ .ad_show := by decide
            exact absurd h (hwait _)
          · rename_i ad had
            exact ⟨not_not.mp haddress, by simpa using honline, by simpa using hbought,
              by simpa using hblack, by simp [had]⟩
  · rintro ⟨haddress, honline, hbought, hblack, hcached⟩
    obtain ⟨ad, had⟩ := Option.isSome_iff_exists.mp hcached
    simp [canShowAd, canLoadAd, haddress, honline, hbought, hblack, hcache, had]

/-! ### What a day leaves as it is -/

theorem resetCountsIfNeeded_of_sameDay (h : s.SameDay) : s.resetCountsIfNeeded = s := if_pos h

theorem loadAdFromList_of_sameDay (h : s.SameDay) :
    (s.loadAdFromList adType adList index).preference = s.preference ∧
      (s.loadAdFromList adType adList index).adManager.adAllData = s.adManager.adAllData := by
  simp only [loadAdFromList, canLoadAd, resetCountsIfNeeded_of_sameDay h]
  split
  · exact ⟨rfl, rfl⟩
  · split
    · exact ⟨rfl, rfl⟩
    · split_ifs <;> exact ⟨rfl, rfl⟩

theorem canShowAd_of_sameDay (h : s.SameDay) : (s.canShowAd adType).2 = s := by
  rw [canShowAd]
  simp only [canLoadAd, resetCountsIfNeeded_of_sameDay h]
  split
  · rfl
  · split
    · rfl
    · split
      · rfl
      · split <;> rfl

/-- The preferences are as before, and the limits are or become those of the list. -/
structure KeepsDay (s s' : FastVpn) : Prop where
  preference : s'.preference = s.preference
  adAllData : s'.adManager.adAllData = s.adManager.adAllData ∨
    s'.adManager.adAllData = s.surroundings.adListData

theorem keepsDay_loadAd (h : s.SameDay) : KeepsDay s (s.loadAd adType) := by
  rw [loadAd]
  split
  · exact ⟨rfl, .inl rfl⟩
  · split
    · exact ⟨rfl, .inr rfl⟩
    · split
      · exact ⟨rfl, .inr rfl⟩
      · obtain ⟨hpreference, hdata⟩ := @loadAdFromList_of_sameDay (s.startLoad adType) adType
          (sortedByDescending _) 0 h
        exact ⟨hpreference, .inr hdata⟩

theorem keepsDay_showAd (foreground : Bool) : KeepsDay s (s.showAd adType foreground) := by
  rw [showAd]
  split
  · exact ⟨rfl, .inl rfl⟩
  · split <;> exact ⟨rfl, .inl rfl⟩

theorem keepsDay_clearAds (server : Text) : KeepsDay s (s.clearAds server) :=
  clearAds_of_qcAd (fun _ _ hq => ⟨hq.preference, hq.adAllData⟩) ⟨rfl, .inl rfl⟩ server

theorem keepsDay_answer {i : Nat} {callback : FastVpn → AdRequest → FastVpn}
    (hcallback : ∀ r, KeepsDay s (callback (s.answered i) r)) :
    KeepsDay s (s.answer i callback) := by
  rw [answer]
  split
  · exact ⟨rfl, .inl rfl⟩
  · exact hcallback _

/-- The counts of the day and the limits after a step. -/
structure Tallied (s : FastVpn) (e : Event) (s' : FastVpn) : Prop where
  ad_show_nums : s'.preference.ad_show_nums =
    if AdDay.Shows e then int (s.preference.ad_show_nums + 1) else s.preference.ad_show_nums
  ad_click_nums : s'.preference.ad_click_nums =
    match e with
    | .adClicked => int (s.preference.ad_click_nums + 1)
    | _ => s.preference.ad_click_nums
  adAllData : s'.adManager.adAllData = s.adManager.adAllData ∨
    s'.adManager.adAllData = s.surroundings.adListData

/-- A step that counts nothing. -/
theorem KeepsDay.tallied {e : Event} (h : KeepsDay s s') (hshows : AdDay.Shows e = false)
    (hclick : e ≠ .adClicked) : Tallied s e s' := by
  refine ⟨?_, ?_, h.adAllData⟩
  · simp [h.preference, hshows]
  · cases e with
    | adClicked => exact absurd rfl hclick
    | _ => exact congrArg Preference.ad_click_nums h.preference

theorem tallied_step (e : Event) (h : s.SameDay) : Tallied s e (s.step e) := by
  cases e with
  | loadAd adType => exact (keepsDay_loadAd h).tallied rfl Event.noConfusion
  | adLoaded i =>
    exact (keepsDay_answer fun _ => ⟨rfl, .inl rfl⟩).tallied rfl Event.noConfusion
  | adFailedToLoad i =>
    have hanswered : (s.answered i).SameDay := h
    refine (keepsDay_answer fun r => ?_).tallied rfl Event.noConfusion
    obtain ⟨hpreference, hdata⟩ := @loadAdFromList_of_sameDay (s.answered i) r.adType r.adList
      (r.index + 1) hanswered
    exact ⟨hpreference, .inl hdata⟩
  | showAd adType foreground => exact (keepsDay_showAd foreground).tallied rfl Event.noConfusion
  | endNativeShown =>
    rw [step, setDisplayEndNativeAdFlash]
    split <;> exact ⟨rfl, rfl, .inl rfl⟩
  | canShowAd adType =>
    have hself : s.step (.canShowAd adType) = s := canShowAd_of_sameDay h
    rw [hself]
    exact ⟨rfl, rfl, .inl rfl⟩
  | clearAds server => exact (keepsDay_clearAds server).tallied rfl Event.noConfusion
  | qcAd | adFailedToShow | homeNativeShown | adShowed | adClicked | setVpnStateData
  | surroundings | setVpnIp | startVPN =>
    exact ⟨rfl, rfl, .inl rfl⟩

end FastVpn

namespace AdDay

open FastVpn (Event)

/-! ### Runs -/

variable {s : FastVpn}

/-- The counts are those of the ads that were shown and clicked, and the limits are fixed. -/
structure Counted (start : FastVpn) (d : AdDay) : Prop where
  ad_show_nums : int d.fastVpn.preference.ad_show_nums = int d.shown
  ad_click_nums : int d.fastVpn.preference.ad_click_nums = int d.clicked
  easy_esc : d.fastVpn.adManager.adAllData.easy_esc = start.adManager.adAllData.easy_esc
  easy_kfv : d.fastVpn.adManager.adAllData.easy_kfv = start.adManager.adAllData.easy_kfv

theorem int_int_succ {x y : Int} (h : int x = int y) : int (int (x + 1)) = int (y + 1) := by
  rw [int, int, Int.bmod_bmod]
  exact Int.add_bmod_eq_add_bmod_right 1 h

theorem counted_step {d : AdDay} {e : Event} (h : Counted s d) (hday : InDay d e) :
    Counted s (d.step e) := by
  obtain ⟨hshow, hclick, hdata⟩ := FastVpn.tallied_step e hday.sameDay
  have hlimits : (d.step e).fastVpn.adManager.adAllData.easy_esc =
        d.fastVpn.adManager.adAllData.easy_esc ∧
      (d.step e).fastVpn.adManager.adAllData.easy_kfv =
        d.fastVpn.adManager.adAllData.easy_kfv := by
    rcases hdata with hdata | hdata
    · exact ⟨congrArg VpnAdBean.easy_esc hdata, congrArg VpnAdBean.easy_kfv hdata⟩
    · exact ⟨(congrArg VpnAdBean.easy_esc hdata).trans hday.easy_esc,
        (congrArg VpnAdBean.easy_kfv hdata).trans hday.easy_kfv⟩
  refine ⟨?_, ?_, hlimits.1.trans h.easy_esc, hlimits.2.trans h.easy_kfv⟩
  · simp only [step, hshow]
    split
    · exact int_int_succ h.ad_show_nums
    · exact h.ad_show_nums
  · cases e with
    | adClicked => exact (congrArg int hclick).trans (int_int_succ h.ad_click_nums)
    | _ => exact (congrArg int hclick).trans h.ad_click_nums

/-- The preferences count right: the counts of the day are the numbers of ads that were
    shown and clicked, as 32-bit numbers. -/
theorem counted_run (es : List Event) (h : (machine s).EveryStep InDay es) :
    Counted s ((machine s).run es) :=
  Machine.invariant_of_everyStep ⟨rfl, rfl, rfl, rfl⟩ (fun _ _ => counted_step) es h

/-- A check, beyond a limit, of a type that could be shown. -/
def ShowsBeyond (d : AdDay) : Event → Prop
  | .canShowAd adType => ¬d.BelowLimits ∧ d.fastVpn.Showable adType
  | _ => False

instance (d : AdDay) (e : Event) : Decidable (d.ShowsBeyond e) := by
  cases e <;> unfold ShowsBeyond <;> infer_instance

theorem capped_iff_not_showsBeyond (d : AdDay) (e : Event) : d.Capped e ↔ ¬d.ShowsBeyond e := by
  cases e with
  | canShowAd adType =>
    rw [Capped, ShowsBeyond, FastVpn.canShowAd_eq_ad_show_iff]
    exact ⟨fun h hbeyond => hbeyond.1 (h hbeyond.2), fun h hshow => not_not.mp fun hlimits =>
      h ⟨hlimits, hshow⟩⟩
  | _ => exact iff_of_true True.intro id

/-- A permitted ad fits below the limit. -/
structure WithinCap (start : FastVpn) (d : AdDay) : Prop extends Counted start d where
  shown_le : d.shown ≤ max start.preference.ad_show_nums start.adManager.adAllData.easy_esc
  room : d.permitted = true → d.shown < start.adManager.adAllData.easy_esc

theorem withinCap_step {d : AdDay} {e : Event} (h : WithinCap s d) (hday : InDay d e)
    (hcapped : d.Capped e) : WithinCap s (d.step e) := by
  refine ⟨counted_step h.toCounted hday, ?_, ?_⟩
  · by_cases hshows : Shows e = true
    · have hroom := h.room (hday.permitted hshows)
      simp only [step, hshows, if_true]
      exact le_trans hroom (le_max_right _ _)
    · simp only [step, if_neg hshows]
      exact h.shown_le
  · cases e with
    | canShowAd adType =>
      -- a new permission, which the check gives below the limits only
      intro hpermitted
      have hbelow : d.BelowLimits := hcapped (of_decide_eq_true hpermitted)
      exact h.easy_esc ▸ hbelow.1
    | adShowed | homeNativeShown | endNativeShown =>
      intro hpermitted
      simp [step, Shows] at hpermitted
    | _ =>
      intro hpermitted
      exact h.room (Bool.and_eq_true_iff.mp hpermitted).1

/-- **The cap holds on a day exactly when no check is made, beyond a limit, of a type that
    still has an ad which could be shown.** -/
theorem capped_iff (s : FastVpn) (es : List Event) (hday : (machine s).EveryStep InDay es) :
    ((machine s).EveryStep Capped es ∧ ∀ before after, es = before ++ after →
        ((machine s).run before).shown ≤
          max s.preference.ad_show_nums s.adManager.adAllData.easy_esc) ↔
      (machine s).EveryStep (fun d e => ¬d.ShowsBeyond e) es := by
  have hsame : (machine s).EveryStep Capped es ↔
      (machine s).EveryStep (fun d e => ¬d.ShowsBeyond e) es := by
    simp only [Machine.EveryStep, capped_iff_not_showsBeyond]
  rw [← hsame]
  refine and_iff_left_of_imp fun hcapped before after heq => ?_
  subst heq
  have hinit : WithinCap s (machine s).initial :=
    ⟨⟨rfl, rfl, rfl, rfl⟩, le_max_left _ _, fun h => nomatch h⟩
  have hrun : WithinCap s ((machine s).run before) :=
    Machine.invariant_of_everyStep hinit (fun _ _ h hmeets => withinCap_step h hmeets.1 hmeets.2)
      before (hday.of_append.and hcapped.of_append)
  exact hrun.shown_le

/-- One ad a day, with an offer for the result page and one for the connect button. -/
def oneAdADay : Surroundings :=
  { FastVpn.resultOfferOnly with
    adListData :=
      { FastVpn.resultOfferOnly.adListData with
        easy_esc := 1, cont_easy := some [⟨"2", 2, "interstitial", []⟩] } }

/-- The app with both ads cached. -/
def withTwoAds : FastVpn :=
  (FastVpn.machine oneAdADay {} .DISCONNECTED none).run
    (FastVpn.openVTool "10.0.0.1" ++ FastVpn.setVpnState .CONNECTED ++ [.adLoaded 0, .adLoaded 0])

/-- The ad of the connect button is shown, and then the one of the result page. -/
def showBoth : List Event :=
  [.canShowAd .cont_type, .showAd .cont_type true, .adShowed, .canShowAd .result_type,
    .endNativeShown]

theorem not_capped :
    ¬ ∀ (s : FastVpn) (es : List Event), (machine s).EveryStep InDay es →
        (machine s).EveryStep Capped es ∧ ∀ before after, es = before ++ after →
          ((machine s).run before).shown ≤
            max s.preference.ad_show_nums s.adManager.adAllData.easy_esc := by
  intro h
  have hshown := (h withTwoAds showBoth (by decide)).2 showBoth [] (List.append_nil _).symm
  revert hshown
  decide

/-- One of the two is shown, and nobody asks for the other. -/
theorem capped_first :
    let es := [.canShowAd .cont_type, .showAd .cont_type true, .adShowed, .canShowAd .cont_type]
    (machine withTwoAds).EveryStep Capped es ∧ ∀ before after, es = before ++ after →
      ((machine withTwoAds).run before).shown ≤
        max withTwoAds.preference.ad_show_nums withTwoAds.adManager.adAllData.easy_esc :=
  (capped_iff withTwoAds
    [.canShowAd .cont_type, .showAd .cont_type true, .adShowed, .canShowAd .cont_type]
    (by decide)).mpr (by decide)

end AdDay

end OpenVpnAndroid
