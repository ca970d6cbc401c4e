/-
  OpenVpnAndroid/AdManager.lean
  =============================
  **`AdManager`: which ads are requested, kept and shown.**

  Ads are requested one type at a time, from a list of offers: `loadAd` sets the flag
  of the type and asks for the first offer, and every failure asks for the next one.
  `loadAdFromList` goes through its gates again on each of these steps.

  The ad SDK answers when it likes.  A request for which it has not answered yet is in
  `requests`; `adLoaded i` and `adFailedToLoad i` are its answers, in any order, and
  the other events come in between.  A callback that does several things is the list
  of its events (`openVTool`, `setVpnState`, `onAdDismissedFullScreenContent`).

  `requestedThrough` is not in the code: a request and its ad carry the server that
  the VPN was connected through when the request was made.
-/
import OpenVpnAndroid.JavaText
import OpenVpnAndroid.Machine

namespace OpenVpnAndroid

/-! ### Data -/

/-- The types that the callers of `AdManager` name; each has its own variable
    (`adDataOpen`, `adDataHome`, ...). -/
inductive AdType where
  | open_type
  | home_type
  | result_type
  | cont_type
  | list_type
  | ba_type
deriving DecidableEq, Repr

inductive VpnStateData where
  | DISCONNECTED
  | DISCONNECTING
  | CONNECTED
  | CONNECTING
deriving DecidableEq, Repr

structure AdEasy where
  easy_isd : Text
  easy_no : Int
  easy_ty : Text
  maxx_load_ip : Text := []
deriving DecidableEq, Repr

/-- A list that the JSON text does not have is `null`. -/
structure VpnAdBean where
  easy_esc : Int
  easy_kfv : Int
  ope_easy : Option (List AdEasy)
  home_easy : Option (List AdEasy)
  resu_easy : Option (List AdEasy)
  cont_easy : Option (List AdEasy)
  list_easy : Option (List AdEasy)
  ba_easy : Option (List AdEasy)
deriving DecidableEq, Repr

def VpnAdBean.listOf (adAllData : VpnAdBean) : AdType → Option (List AdEasy)
  | .open_type => adAllData.ope_easy
  | .home_type => adAllData.home_easy
  | .result_type => adAllData.resu_easy
  | .cont_type => adAllData.cont_easy
  | .list_type => adAllData.list_easy
  | .ba_type => adAllData.ba_easy

/-- `sortedByDescending { it.easy_no }`, which is stable. -/
def sortedByDescending (adList : List AdEasy) : List AdEasy :=
  adList.insertionSort fun a b => b.easy_no ≤ a.easy_no

/-- The class of an ad object. -/
inductive AdFormat where
  | appOpen
  | native
  | interstitial
deriving DecidableEq, Repr

structure Ad where
  format : AdFormat
  requestedThrough : Option Text
deriving DecidableEq, Repr

/-- What the callbacks of a request know. -/
structure AdRequest where
  adType : AdType
  adList : List AdEasy
  index : Nat
  format : AdFormat
  requestedThrough : Option Text
deriving DecidableEq, Repr

structure AdManager where
  adCache : AdType → Option Ad := fun _ => none
  adLoadInProgress : AdType → Bool := fun _ => false
  adTimestamps : AdType → Option Int := fun _ => none
  adAllData : VpnAdBean
  adData : AdType → Option AdEasy := fun _ => none
  loadNowIp : Option Text := none

/-- What is decided elsewhere: the flow flag, the results of `AdUtils`, the clock. -/
structure Surroundings where
  ss_data : Bool
  adListData : VpnAdBean
  blockAdUsers : Bool
  adBlackData : Bool
  ip_data : Text
  currentTimeMillis : Int
  /-- `Calendar.YEAR` and `Calendar.DAY_OF_YEAR` of a time. -/
  calendar : Int → Int × Int

structure Preference where
  tba_vpn_ip_type : Text := []
  ad_load_date : Int := -1
  ad_click_nums : Int := 0
  ad_show_nums : Int := 0
deriving DecidableEq, Repr

structure FastVpn where
  surroundings : Surroundings
  preference : Preference
  vpnStateHotData : VpnStateData := .DISCONNECTED
  adManager : AdManager
  /-- Requests that the ad SDK has not answered. -/
  requests : List AdRequest := []
  /-- The server of the configuration that `startVPN` was last called with. -/
  remote : Option Text := none

inductive ShowState where
  | ad_wait
  | ad_jump_over
  | ad_show
deriving DecidableEq, Repr

namespace FastVpn

/-! ### The gates -/

/-- `Hot.vpnStateHotData == CONNECTED && !ss_data` -/
def online (s : FastVpn) : Bool := s.vpnStateHotData == .CONNECTED && !s.surroundings.ss_data

def connectedThrough (s : FastVpn) : Option Text :=
  if s.vpnStateHotData = .CONNECTED then s.remote else none

def canRequestAd (s : FastVpn) (adType : AdType) : Bool :=
  let lastLoadTime := (s.adManager.adTimestamps adType).getD 0
  3600 * 1000 < long (s.surroundings.currentTimeMillis - lastLoadTime)

def isSameDay (s : FastVpn) (time1 time2 : Int) : Bool :=
  s.surroundings.calendar time1 == s.surroundings.calendar time2

def resetCountsIfNeeded (s : FastVpn) : FastVpn :=
  let currentDate := s.surroundings.currentTimeMillis
  if s.isSameDay s.preference.ad_load_date currentDate then s
  else
    { s with
      preference :=
        { s.preference with ad_load_date := currentDate, ad_click_nums := 0, ad_show_nums := 0 } }

def canLoadAd (s : FastVpn) : Bool × FastVpn :=
  let s := s.resetCountsIfNeeded
  (s.preference.ad_show_nums < s.adManager.adAllData.easy_esc
    && s.preference.ad_click_nums < s.adManager.adAllData.easy_kfv, s)

/-- The types that only bought users see. -/
def boughtOnly (adType : AdType) : Bool :=
  adType == .ba_type || adType == .home_type || adType == .cont_type

/-- The types that are not shown to users on the black list. -/
def blackListed (adType : AdType) : Bool :=
  adType == .home_type || adType == .cont_type || adType == .list_type || adType == .ba_type

/-! ### Requests -/

/-- `UpDataUtils.beforeLoadQTV` -/
def beforeLoadQTV (s : FastVpn) (adEasy : AdEasy) : AdEasy :=
  { adEasy with
    maxx_load_ip := if s.online then s.preference.tba_vpn_ip_type else s.surroundings.ip_data }

/-- The variable that `loadOpenAd`, `loadNativeAd` and `loadInterstitialAd` put the
    offer into, by the type that it is named after. -/
def dataOf : AdFormat → AdType → AdType
  | .appOpen, _ => .open_type
  | .native, .home_type => .home_type
  | .native, _ => .result_type
  | .interstitial, .cont_type => .cont_type
  | .interstitial, .list_type => .list_type
  | .interstitial, _ => .ba_type

def setData (s : FastVpn) (adType : AdType) (bean : AdEasy) : FastVpn :=
  { s with
    adManager :=
      { s.adManager with adData := Function.update s.adManager.adData adType (some bean) } }

/-- The common part of the three: the offer is put into its variable and requested. -/
def request (format : AdFormat) (s : FastVpn) (adType : AdType) (adEasy : AdEasy)
    (adList : List AdEasy) (index : Nat) : FastVpn :=
  { s.setData (dataOf format adType) (s.beforeLoadQTV adEasy) with
    requests := s.requests ++ [⟨adType, adList, index, format, s.connectedThrough⟩] }

def loadOpenAd : FastVpn → AdType → AdEasy → List AdEasy → Nat → FastVpn := request .appOpen

def loadNativeAd : FastVpn → AdType → AdEasy → List AdEasy → Nat → FastVpn := request .native

def loadInterstitialAd : FastVpn → AdType → AdEasy → List AdEasy → Nat → FastVpn :=
  request .interstitial

def setLoadInProgress (s : FastVpn) (adType : AdType) (inProgress : Bool) : FastVpn :=
  { s with
    adManager :=
      { s.adManager with
        adLoadInProgress := Function.update s.adManager.adLoadInProgress adType inProgress } }

def loadAdFromList (s : FastVpn) (adType : AdType) (adList : List AdEasy) (index : Nat) :
    FastVpn :=
  if s.online = false then s
  else
    match adList[index]? with
    | none => s.setLoadInProgress adType false
    | some adEasy =>
      if (s.adManager.adCache adType).isSome && !s.canRequestAd adType then s
      else
        let (canLoad, s) := s.canLoadAd
        if !canLoad then s
        else if !s.surroundings.blockAdUsers && boughtOnly adType then s
        else if s.surroundings.adBlackData && blackListed adType then s
        else
          let s :=
            { s with
              adManager := { s.adManager with loadNowIp := some s.preference.tba_vpn_ip_type } }
          if adEasy.easy_ty = ("open" : Text) then s.loadOpenAd adType adEasy adList index
          else if adEasy.easy_ty = ("native" : Text) then s.loadNativeAd adType adEasy adList index
          else if adEasy.easy_ty = ("interstitial" : Text) then
            s.loadInterstitialAd adType adEasy adList index
          else s

/-! ### What one call of `loadAdFromList` comes to -/

/-- The gates after the end of the list. -/
def refuses (s : FastVpn) (adType : AdType) : Bool :=
  (s.adManager.adCache adType).isSome && !s.canRequestAd adType
    || !s.canLoadAd.1
    || !s.surroundings.blockAdUsers && boughtOnly adType
    || s.surroundings.adBlackData && blackListed adType

def formatOf (easy_ty : Text) : Option AdFormat :=
  if easy_ty = ("open" : Text) then some .appOpen
  else if easy_ty = ("native" : Text) then some .native
  else if easy_ty = ("interstitial" : Text) then some .interstitial
  else none

/-- It requests the offer. -/
structure Issues (s : FastVpn) (adType : AdType) (adList : List AdEasy) (index : Nat)
    (adEasy : AdEasy) (format : AdFormat) : Prop where
  online : s.online = true
  offer : adList[index]? = some adEasy
  admitted : s.refuses adType = false
  format_eq : formatOf adEasy.easy_ty = some format

/-- It returns with an offer left and without a request. -/
def Leaves (s : FastVpn) (adType : AdType) (adList : List AdEasy) (index : Nat) : Prop :=
  s.online = false ∨ ∃ adEasy, adList[index]? = some adEasy ∧
    (s.refuses adType = true ∨ formatOf adEasy.easy_ty = none)

theorem Issues.not_leaves {s : FastVpn} {adType : AdType} {adList : List AdEasy} {index : Nat}
    {adEasy : AdEasy} {format : AdFormat} (h : s.Issues adType adList index adEasy format) :
    ¬ s.Leaves adType adList index := by
  rintro (hoff | ⟨adEasy', hoffer, hno⟩)
  · simp [h.online] at hoff
  · obtain rfl : adEasy = adEasy' := by simpa [h.offer] using hoffer
    simp [h.admitted, h.format_eq] at hno

theorem Issues.unique {s : FastVpn} {adType : AdType} {adList : List AdEasy} {index : Nat}
    {adEasy adEasy' : AdEasy} {format format' : AdFormat}
    (h : s.Issues adType adList index adEasy format)
    (h' : s.Issues adType adList index adEasy' format') : adEasy = adEasy' ∧ format = format' := by
  obtain rfl : adEasy = adEasy' := by simpa [h.offer] using h'.offer
  exact ⟨rfl, by simpa [h.format_eq] using h'.format_eq⟩

/-- Nothing changes but the counts and what a request is labelled with. -/
structure Quiet (s s' : FastVpn) : Prop where
  surroundings : s'.surroundings = s.surroundings
  tba_vpn_ip_type : s'.preference.tba_vpn_ip_type = s.preference.tba_vpn_ip_type
  vpnStateHotData : s'.vpnStateHotData = s.vpnStateHotData
  remote : s'.remote = s.remote
  requests : s'.requests = s.requests
  adCache : s'.adManager.adCache = s.adManager.adCache
  adLoadInProgress : s'.adManager.adLoadInProgress = s.adManager.adLoadInProgress
  adData : s'.adManager.adData = s.adManager.adData

theorem Quiet.refl (s : FastVpn) : Quiet s s := ⟨rfl, rfl, rfl, rfl, rfl, rfl, rfl, rfl⟩

theorem quiet_resetCountsIfNeeded (s : FastVpn) : Quiet s s.resetCountsIfNeeded := by
  rw [resetCountsIfNeeded]
  dsimp only
  split
  · exact Quiet.refl s
  · constructor <;> rfl

/-- The state behind the gates. -/
def admitted (s : FastVpn) : FastVpn :=
  { s.resetCountsIfNeeded with
    adManager :=
      { s.resetCountsIfNeeded.adManager with
        loadNowIp := some s.resetCountsIfNeeded.preference.tba_vpn_ip_type } }

theorem quiet_admitted (s : FastVpn) : Quiet s s.admitted := by
  obtain ⟨h1, h2, h3, h4, h5, h6, h7, h8⟩ := quiet_resetCountsIfNeeded s
  exact ⟨h1, h2, h3, h4, h5, h6, h7, h8⟩

theorem quiet_loadAdFromList_of_refuses {s : FastVpn} {adType : AdType} {adList : List AdEasy}
    {index : Nat} {adEasy : AdEasy} (hon : s.online = true)
    (hoffer : adList[index]? = some adEasy) (hrefuses : s.refuses adType = true) :
    Quiet s (s.loadAdFromList adType adList index) := by
  have hreset := quiet_resetCountsIfNeeded s
  simp only [loadAdFromList, hon, hoffer, Bool.true_eq_false, if_false]
  simp only [refuses, Bool.or_eq_true] at hrefuses
  split
  · exact Quiet.refl s
  · rename_i hrecent
    simp only [canLoadAd, hreset.surroundings] at hrefuses ⊢
    split
    · exact hreset
    · rename_i hcan
      split
      · exact hreset
      · rename_i hbought
        split
        · exact hreset
        · rename_i hblack
          exact absurd hrefuses (by simp only [hrecent, hcan, hbought, hblack]; simp)

theorem loadAdFromList_of_admitted {s : FastVpn} {adType : AdType} {adList : List AdEasy}
    {index : Nat} {adEasy : AdEasy} (hon : s.online = true)
    (hoffer : adList[index]? = some adEasy) (hrefuses : s.refuses adType = false) :
    s.loadAdFromList adType adList index =
      match formatOf adEasy.easy_ty with
      | none => s.admitted
      | some format => request format s.admitted adType adEasy adList index := by
  have hreset := quiet_resetCountsIfNeeded s
  simp only [refuses, Bool.or_eq_false_iff] at hrefuses
  obtain ⟨⟨⟨hrecent, hcan⟩, hbought⟩, hblack⟩ := hrefuses
  simp only [canLoadAd] at hcan
  rw [← hreset.surroundings] at hbought hblack
  simp only [loadAdFromList, hon, hoffer, hrecent, canLoadAd, hcan, hbought, hblack, formatOf,
    Bool.true_eq_false, Bool.false_eq_true, if_false]
  split_ifs <;> rfl

theorem loadAdFromList_cases (s : FastVpn) (adType : AdType) (adList : List AdEasy)
    (index : Nat) :
    s.Leaves adType adList index ∧ Quiet s (s.loadAdFromList adType adList index) ∨
    s.online = true ∧ adList[index]? = none ∧
      s.loadAdFromList adType adList index = s.setLoadInProgress adType false ∨
    ∃ adEasy format s', s.Issues adType adList index adEasy format ∧ Quiet s s' ∧
      s.loadAdFromList adType adList index = request format s' adType adEasy adList index := by
  by_cases hon : s.online = true
  · cases hoffer : adList[index]? with
    | none => exact .inr (.inl ⟨hon, rfl, by simp [loadAdFromList, hon, hoffer]⟩)
    | some adEasy =>
      cases hrefuses : s.refuses adType with
      | true =>
        exact .inl ⟨.inr ⟨adEasy, hoffer, .inl hrefuses⟩,
          quiet_loadAdFromList_of_refuses hon hoffer hrefuses⟩
      | false =>
        have hwalk := loadAdFromList_of_admitted hon hoffer hrefuses
        cases hformat : formatOf adEasy.easy_ty with
        | none =>
          rw [hformat] at hwalk
          exact .inl ⟨.inr ⟨adEasy, hoffer, .inr hformat⟩, hwalk ▸ quiet_admitted s⟩
        | some format =>
          rw [hformat] at hwalk
          exact .inr (.inr ⟨adEasy, format, s.admitted, ⟨hon, hoffer, hrefuses, hformat⟩,
            quiet_admitted s, hwalk⟩)
  · have hoff : s.online = false := by simpa using hon
    have hself : s.loadAdFromList adType adList index = s := by simp [loadAdFromList, hoff]
    exact .inl ⟨.inl hoff, hself.symm ▸ Quiet.refl s⟩

/-! ### `loadAd` -/

/-- What `loadAd` has done when it comes to the list. -/
def startLoad (s : FastVpn) (adType : AdType) : FastVpn :=
  { s with adManager := { s.adManager with adAllData := s.surroundings.adListData } }
    |>.setLoadInProgress adType true

/-- A `null` list throws, and `loadAd` catches it. -/
def loadAd (s : FastVpn) (adType : AdType) : FastVpn :=
  if s.online = false then s
  else if s.adManager.adLoadInProgress adType then
    { s with adManager := { s.adManager with adAllData := s.surroundings.adListData } }
  else
    match s.surroundings.adListData.listOf adType with
    | none => s.startLoad adType
    | some adList => (s.startLoad adType).loadAdFromList adType (sortedByDescending adList) 0

/-! ### The callbacks of a request -/

def onAdLoaded (s : FastVpn) (r : AdRequest) : FastVpn :=
  { s with
    adManager :=
      { s.adManager with
        adCache :=
          Function.update s.adManager.adCache r.adType (some ⟨r.format, r.requestedThrough⟩)
        adTimestamps :=
          Function.update s.adManager.adTimestamps r.adType
            (some s.surroundings.currentTimeMillis) } }
    |>.setLoadInProgress r.adType false

def onAdFailedToLoad (s : FastVpn) (r : AdRequest) : FastVpn :=
  s.loadAdFromList r.adType r.adList (r.index + 1)

/-- An answered request is no longer open. -/
def answered (s : FastVpn) (i : Nat) : FastVpn := { s with requests := s.requests.eraseIdx i }

def answer (s : FastVpn) (i : Nat) (callback : FastVpn → AdRequest → FastVpn) : FastVpn :=
  match s.requests[i]? with
  | none => s
  | some r => callback (s.answered i) r

/-! ### Showing an ad -/

def removeAd (s : FastVpn) (adType : AdType) : FastVpn :=
  { s with
    adManager :=
      { s.adManager with adCache := Function.update s.adManager.adCache adType none } }

def qcAd (s : FastVpn) (adType : AdType) : FastVpn :=
  (s.setLoadInProgress adType false).removeAd adType

/-- A native ad is shown by a coroutine (`nativeShown`), the others right away. -/
def showAd (s : FastVpn) (adType : AdType) (foreground : Bool) : FastVpn :=
  match s.adManager.adCache adType with
  | none => s
  | some ad => if foreground && ad.format != .native then s.removeAd adType else s

def setShowNumFun (s : FastVpn) : FastVpn :=
  { s with
    preference := { s.preference with ad_show_nums := int (s.preference.ad_show_nums + 1) } }

def setCLickNumFun (s : FastVpn) : FastVpn :=
  { s with
    preference := { s.preference with ad_click_nums := int (s.preference.ad_click_nums + 1) } }

/-- The end of the coroutine of `setDisplayHomeNativeAdFlash`. -/
def setDisplayHomeNativeAdFlash (s : FastVpn) : FastVpn := s.setShowNumFun.qcAd .home_type

/-- The end of the coroutine of `setDisplayEndNativeAdFlash`: the bean of the result
    page becomes the one of the home page. -/
def setDisplayEndNativeAdFlash (s : FastVpn) : FastVpn :=
  let s := s.setShowNumFun.qcAd .result_type
  match s.adManager.adData .result_type with
  | none => s
  | some bean => s.setData .home_type bean

/-- The answer, and the state behind the call. -/
def canShowAd (s : FastVpn) (adType : AdType) : ShowState × FastVpn :=
  let maxxLoadIp := (s.adManager.adData adType).map AdEasy.maxx_load_ip
  if maxxLoadIp ≠ some s.preference.tba_vpn_ip_type ∨ s.online = false then (.ad_jump_over, s)
  else if !s.surroundings.blockAdUsers && boughtOnly adType then (.ad_jump_over, s)
  else if s.surroundings.adBlackData && blackListed adType then (.ad_jump_over, s)
  else
    let (canLoad, s) := s.canLoadAd
    match s.adManager.adCache adType with
    | none => (if canLoad then .ad_wait else .ad_jump_over, s)
    | some _ => (.ad_show, s)

/-! ### Servers -/

/-- The first step of `openVTool`. -/
def clearAds (s : FastVpn) (server : Text) : FastVpn :=
  if s.adManager.loadNowIp = some server then s
  else
    s.qcAd .open_type |>.qcAd .home_type |>.qcAd .result_type |>.qcAd .cont_type
      |>.qcAd .list_type |>.qcAd .ba_type

theorem quiet_canShowAd (s : FastVpn) (adType : AdType) : Quiet s (s.canShowAd adType).2 := by
  rw [canShowAd]
  dsimp only
  split
  · exact Quiet.refl s
  · split
    · exact Quiet.refl s
    · split
      · exact Quiet.refl s
      · have hreset : Quiet s s.canLoadAd.2 := quiet_resetCountsIfNeeded s
        split <;> exact hreset

/-- What `qcAd` keeps, the purge of `openVTool` keeps. -/
theorem clearAds_of_qcAd {P : FastVpn → Prop} (hq : ∀ s adType, P s → P (s.qcAd adType))
    {s : FastVpn} (h : P s) (server : Text) : P (s.clearAds server) := by
  rw [clearAds]
  split
  · exact h
  · exact hq _ _ (hq _ _ (hq _ _ (hq _ _ (hq _ _ (hq _ _ h)))))

/-! ### Events -/

inductive Event where
  | loadAd (adType : AdType)
  | adLoaded (i : Nat)
  | adFailedToLoad (i : Nat)
  | qcAd (adType : AdType)
  | showAd (adType : AdType) (foreground : Bool)
  | adFailedToShow (adType : AdType)
  | homeNativeShown
  | endNativeShown
  | adShowed
  | adClicked
  | canShowAd (adType : AdType)
  | setVpnStateData (vpnStateData : VpnStateData)
  | surroundings (surroundings : Surroundings)
  | clearAds (server : Text)
  | setVpnIp (server : Text)
  | startVPN (server : Text)

def step (s : FastVpn) : Event → FastVpn
  | .loadAd adType => s.loadAd adType
  | .adLoaded i => s.answer i onAdLoaded
  | .adFailedToLoad i => s.answer i onAdFailedToLoad
  | .qcAd adType => s.qcAd adType
  | .showAd adType foreground => s.showAd adType foreground
  | .adFailedToShow adType => s.removeAd adType
  | .homeNativeShown => s.setDisplayHomeNativeAdFlash
  | .endNativeShown => s.setDisplayEndNativeAdFlash
  | .adShowed => s.setShowNumFun
  | .adClicked => s.setCLickNumFun
  | .canShowAd adType => (s.canShowAd adType).2
  | .setVpnStateData vpnStateData => { s with vpnStateHotData := vpnStateData }
  | .surroundings surroundings => { s with surroundings := surroundings }
  | .clearAds server => s.clearAds server
  | .setVpnIp server => { s with preference := { s.preference with tba_vpn_ip_type := server } }
  | .startVPN server => { s with remote := some server }

/-- A new `AdManager`: no ads and no requests; the preferences and the VPN may be left
    over from before. -/
def start (surroundings : Surroundings) (preference : Preference)
    (vpnStateHotData : VpnStateData) (remote : Option Text) : FastVpn where
  surroundings := surroundings
  preference := preference
  vpnStateHotData := vpnStateHotData
  adManager := { adAllData := surroundings.adListData }
  remote := remote

def machine (surroundings : Surroundings) (preference : Preference)
    (vpnStateHotData : VpnStateData) (remote : Option Text) : Machine FastVpn Event where
  initial := (start surroundings preference vpnStateHotData remote).resetCountsIfNeeded
  step := step

/-- `MainActivity.openVTool` for the server in `l_service_now_data`. -/
def openVTool (server : Text) : List Event := [.clearAds server, .setVpnIp server, .startVPN server]

/-- `MainActivity.setVpnState` -/
def setVpnState : VpnStateData → List Event
  | .CONNECTED =>
      [.setVpnStateData .CONNECTED, .loadAd .cont_type, .loadAd .ba_type, .loadAd .result_type,
        .loadAd .home_type]
  | vpnStateData => [.setVpnStateData vpnStateData]

/-- `onAdDismissedFullScreenContent` of an interstitial ad. -/
def onAdDismissedFullScreenContent (adType : AdType) : List Event :=
  .qcAd adType :: if adType = .cont_type then [.loadAd adType] else []

/-- A configuration with one offer, a native ad for the result page, and no gate
    closed. -/
def resultOfferOnly : Surroundings where
  ss_data := false
  adListData :=
    { easy_esc := 10, easy_kfv := 5, ope_easy := some [], home_easy := some [],
      resu_easy := some [⟨"1", 2, "native", []⟩], cont_easy := some [], list_easy := some [],
      ba_easy := some [] }
  blockAdUsers := true
  adBlackData := false
  ip_data := []
  currentTimeMillis := 0
  calendar := fun _ => (1970, 1)

end FastVpn

end OpenVpnAndroid
