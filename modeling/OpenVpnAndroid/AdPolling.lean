/-
  OpenVpnAndroid/AdPolling.lean
  =============================
  **`showConnectAd` and `openOpenAd`: waiting for an ad, and going on without it.**

  Both post a runnable that looks for an ad every half second.  It calls `jumpFun` when
  the time is up; an ad that it shows calls `jumpFun` when it is dismissed.  The last
  round does not return after the timeout, so it can do both.

  The flag `adShown` is a field, and `cancelCOD`, `initData` and other calls write it
  too.  `continuesOnce_iff` says that a call goes on twice only by its last round, as
  long as nobody clears the flag of a call that has shown its ad.
-/
import OpenVpnAndroid.AdManager

namespace OpenVpnAndroid

/-- The two methods, with what differs between them. -/
inductive AdPoll where
  | showConnectAd
  | openOpenAd
deriving DecidableEq, Repr

/-- A call: its variables, its flag, and the ad manager that it uses. -/
structure PollState where
  fastVpn : FastVpn
  adShown : Bool
  attemptCount : Nat := 0
  /-- The runnable is in the queue of the handler. -/
  posted : Bool := false
  /-- How often `jumpFun` was called. -/
  jumpFuns : Nat := 0
  /-- `jumpFun` was called because the time was up. -/
  timedOut : Bool := false
  /-- The call has shown an ad. -/
  shown : Bool := false
  /-- The ads on the screen whose callback has the `jumpFun` of the call. -/
  onDisplay : List AdFormat := []

namespace AdPoll

def adType : AdPoll → AdType
  | .showConnectAd => .cont_type
  | .openOpenAd => .open_type

/-- What is done before the runnable is posted. -/
def prepare (s : PollState) : AdPoll → PollState
  | .showConnectAd => { s with adShown := false, fastVpn := s.fastVpn.loadAd .cont_type }
  | .openOpenAd => s

def jumpFun (s : PollState) : PollState := { s with jumpFuns := s.jumpFuns + 1 }

/-- The 20th attempt. -/
def timeout (s : PollState) : AdPoll → PollState
  | .showConnectAd => jumpFun { s with timedOut := true }
  | .openOpenAd => jumpFun { s with adShown := true, timedOut := true }

/-- The call up to its first `postDelayed`. -/
def call (poll : AdPoll) (fastVpn : FastVpn) (adShown : Bool) : PollState :=
  let (canShow, fastVpn) := fastVpn.canShowAd poll.adType
  let s : PollState := { fastVpn := fastVpn, adShown := adShown }
  if canShow = .ad_jump_over then jumpFun s
  else { poll.prepare s with posted := true }

/-- The ad that `showAd` puts on the screen.  A native ad has another callback. -/
def fullScreenAd (s : FastVpn) (adType : AdType) (foreground : Bool) : Option AdFormat :=
  match s.adManager.adCache adType with
  | none => none
  | some ad => if foreground && ad.format != .native then some ad.format else none

def showAd (poll : AdPoll) (s : PollState) (foreground : Bool) : PollState :=
  let ad := fullScreenAd s.fastVpn poll.adType foreground
  { s with
    fastVpn := s.fastVpn.showAd poll.adType foreground
    shown := s.shown || ad.isSome
    onDisplay := ad.toList ++ s.onDisplay }

/-- The first half of a round: the runnable is posted again, or the time is up. -/
def attempt (poll : AdPoll) (s : PollState) : PollState :=
  let s := { s with attemptCount := s.attemptCount + 1 }
  if s.attemptCount < 20 then { s with posted := true } else poll.timeout s

/-- The second half, which comes after a timeout as well. -/
def look (poll : AdPoll) (s : PollState) (foreground : Bool) : PollState :=
  let (canShow, fastVpn) := s.fastVpn.canShowAd poll.adType
  let s := { s with fastVpn := fastVpn }
  if canShow = .ad_show then poll.showAd { s with adShown := true } foreground else s

/-- `checkConditionAndPreloadAd.run` -/
def run (poll : AdPoll) (s : PollState) (foreground : Bool) : PollState :=
  if s.posted = false then s
  else
    let s := { s with posted := false }
    if s.adShown then s else poll.look (poll.attempt s) foreground

/-- `onAdDismissedFullScreenContent`: the events of the ad manager in it. -/
def dismissEvents (poll : AdPoll) : AdFormat → List FastVpn.Event
  | .interstitial => FastVpn.onAdDismissedFullScreenContent poll.adType
  | _ => [.qcAd poll.adType]

def adDismissed (poll : AdPoll) (s : PollState) (foreground : Bool) : PollState :=
  match s.onDisplay with
  | [] => s
  | ad :: onDisplay =>
      let s :=
        { s with
          onDisplay := onDisplay
          fastVpn := (poll.dismissEvents ad).foldl FastVpn.step s.fastVpn }
      if foreground then jumpFun s else s

inductive Event where
  | run (foreground : Bool)
  | adDismissed (foreground : Bool)
  /-- Another method writes the flag: `cancelCOD`, `initData`, another call. -/
  | setAdShown (adShown : Bool)
  /-- What the rest of the app and the ad SDK do to the ad manager. -/
  | elsewhere (fastVpn : FastVpn)

def step (poll : AdPoll) (s : PollState) : Event → PollState
  | .run foreground => poll.run s foreground
  | .adDismissed foreground => poll.adDismissed s foreground
  | .setAdShown adShown => { s with adShown := adShown }
  | .elsewhere fastVpn => { s with fastVpn := fastVpn }

def machine (poll : AdPoll) (fastVpn : FastVpn) (adShown : Bool) : Machine PollState Event where
  initial := poll.call fastVpn adShown
  step := poll.step

/-! ### Going on once -/

/-- The call has gone on at most once, and not both without an ad and after one. -/
structure ContinuesOnce (s : PollState) : Prop where
  jumpFuns_le : s.jumpFuns ≤ 1
  not_both : ¬(s.timedOut = true ∧ s.shown = true)

theorem ContinuesOnce.congr {s s' : PollState} (hjump : s'.jumpFuns = s.jumpFuns)
    (htime : s'.timedOut = s.timedOut) (hshown : s'.shown = s.shown) :
    ContinuesOnce s' ↔ ContinuesOnce s := by
  constructor
  · rintro ⟨hle, hboth⟩
    exact ⟨hjump ▸ hle, htime ▸ hshown ▸ hboth⟩
  · rintro ⟨hle, hboth⟩
    exact ⟨hjump.symm ▸ hle, htime.symm ▸ hshown.symm ▸ hboth⟩

/-- The next round is the 20th. -/
def LastRound (s : PollState) : Prop := 19 ≤ s.attemptCount

/-- A round shows an ad. -/
def Shows (poll : AdPoll) (s : PollState) (foreground : Bool) : Prop :=
  (s.fastVpn.canShowAd poll.adType).1 = .ad_show ∧
    (fullScreenAd s.fastVpn poll.adType foreground).isSome = true

/-- The 20th round finds an ad. -/
def LateShow (poll : AdPoll) (s : PollState) : Event → Prop
  | .run foreground =>
      s.posted = true ∧ s.adShown = false ∧ LastRound s ∧ poll.Shows s foreground
  | _ => False

/-- Nobody clears the flag of a call that has shown its ad and is still posted. -/
def KeepsFlag (s : PollState) : Event → Prop
  | .setAdShown adShown => adShown = false → s.posted = true → s.shown = false
  | _ => True

/-- Where a call can be. -/
structure Proceeds (s : PollState) : Prop where
  waits : s.posted = true → s.shown = false → s.jumpFuns = 0 ∧ s.timedOut = false
  flagged : s.posted = true → s.shown = true → s.adShown = true
  display : s.onDisplay = [] ∨
    (∃ ad, s.onDisplay = [ad]) ∧ s.shown = true ∧ s.jumpFuns = s.timedOut.toNat

/-! ### One round -/

section Round

variable {poll : AdPoll} {s : PollState} {foreground : Bool}

/-- Between the halves of a round the call has gone on or is posted, and has shown nothing. -/
structure Attempted (s : PollState) : Prop where
  shown : s.shown = false
  onDisplay : s.onDisplay = []
  jumpFuns : s.jumpFuns = s.timedOut.toNat
  posted : s.posted = !s.timedOut

theorem attempt_of_not_lastRound (h : ¬LastRound s) :
    poll.attempt s = { s with attemptCount := s.attemptCount + 1, posted := true } := by
  have hlt : s.attemptCount + 1 < 20 := by rw [LastRound] at h; omega
  simp only [attempt, if_pos hlt]

theorem attempt_of_lastRound (h : LastRound s) :
    ∃ adShown, poll.attempt s =
      { s with
        adShown := adShown, attemptCount := s.attemptCount + 1, timedOut := true,
        jumpFuns := s.jumpFuns + 1 } := by
  have hlt : ¬s.attemptCount + 1 < 20 := by rw [LastRound] at h; omega
  simp only [attempt, if_neg hlt]
  cases poll with
  | showConnectAd => exact ⟨s.adShown, rfl⟩
  | openOpenAd => exact ⟨true, rfl⟩

theorem attempted_attempt (hposted : s.posted = false) (hshown : s.shown = false)
    (hdisplay : s.onDisplay = []) (hjump : s.jumpFuns = 0) (htime : s.timedOut = false) :
    Attempted (poll.attempt s) ∧ ((poll.attempt s).timedOut = true ↔ LastRound s) ∧
      (poll.attempt s).fastVpn = s.fastVpn := by
  by_cases hlast : LastRound s
  · obtain ⟨adShown, heq⟩ := @attempt_of_lastRound poll s hlast
    rw [heq]
    exact ⟨⟨hshown, hdisplay, by simp [hjump], by simp [hposted]⟩, by simp [hlast], rfl⟩
  · rw [attempt_of_not_lastRound hlast]
    exact ⟨⟨hshown, hdisplay, by simp [hjump, htime], by simp [htime]⟩, by simp [hlast, htime], rfl⟩

theorem shows_congr {s' : PollState} (h : s'.fastVpn = s.fastVpn) :
    poll.Shows s' foreground ↔ poll.Shows s foreground := by
  rw [Shows, Shows, h]

theorem fullScreenAd_canShowAd (s : FastVpn) (adType : AdType) (foreground : Bool) :
    fullScreenAd (s.canShowAd adType).2 adType foreground = fullScreenAd s adType foreground := by
  rw [fullScreenAd, (s.quiet_canShowAd adType).adCache, fullScreenAd]

theorem look_of_shows (h : poll.Shows s foreground) :
    ∃ fastVpn ad, poll.look s foreground =
      { s with
        fastVpn := fastVpn, adShown := true, shown := true, onDisplay := ad :: s.onDisplay } := by
  obtain ⟨hshow, hsome⟩ := h
  obtain ⟨ad, had⟩ := Option.isSome_iff_exists.mp hsome
  refine ⟨(s.fastVpn.canShowAd poll.adType).2.showAd poll.adType foreground, ad, ?_⟩
  simp only [look, if_pos hshow, showAd, fullScreenAd_canShowAd, had]
  simp

/-- Without an ad on the screen the flag may be set all the same. -/
theorem look_of_not_shows (h : ¬poll.Shows s foreground) :
    ∃ fastVpn adShown, poll.look s foreground =
      { s with fastVpn := fastVpn, adShown := adShown } := by
  by_cases hshow : (s.fastVpn.canShowAd poll.adType).1 = .ad_show
  · have hnone : fullScreenAd s.fastVpn poll.adType foreground = none := by
      simpa [Shows, hshow] using h
    refine ⟨(s.fastVpn.canShowAd poll.adType).2.showAd poll.adType foreground, true, ?_⟩
    simp only [look, if_pos hshow, showAd, fullScreenAd_canShowAd, hnone]
    simp
  · refine ⟨(s.fastVpn.canShowAd poll.adType).2, s.adShown, ?_⟩
    simp only [look, if_neg hshow]

theorem Attempted.look (h : Attempted s) :
    Proceeds (poll.look s foreground) ∧
      (ContinuesOnce (poll.look s foreground) ↔
        ¬(s.timedOut = true ∧ poll.Shows s foreground)) := by
  obtain ⟨hshown, hdisplay, hjump, hposted⟩ := h
  have hjump_le : s.jumpFuns ≤ 1 := hjump ▸ Bool.toNat_le s.timedOut
  by_cases hshows : poll.Shows s foreground
  · obtain ⟨fastVpn, ad, heq⟩ := look_of_shows hshows
    rw [heq]
    refine ⟨⟨fun _ h => (nomatch h), fun _ _ => rfl, .inr ⟨⟨ad, by simp [hdisplay]⟩, rfl, hjump⟩⟩,
      fun h => ?_, fun h => ⟨hjump_le, ?_⟩⟩
    · simpa [hshows] using h.not_both
    · simpa [hshows] using h
  · obtain ⟨fastVpn, adShown, heq⟩ := look_of_not_shows hshows
    rw [heq]
    refine ⟨⟨fun hp _ => ?_, fun _ h => ?_, .inl hdisplay⟩, iff_of_true ⟨hjump_le, ?_⟩ ?_⟩
    · have htime : s.timedOut = false := by simpa [hposted] using hp
      exact ⟨by simpa [htime] using hjump, htime⟩
    · simp [hshown] at h
    · simp [hshown]
    · simp [hshows]

end Round

/-! ### One step -/

section Step

variable {poll : AdPoll} {s : PollState}

theorem Proceeds.of_waiting (h : Proceeds s) (hposted : s.posted = true)
    (hflag : s.adShown = false) :
    s.shown = false ∧ s.onDisplay = [] ∧ s.jumpFuns = 0 ∧ s.timedOut = false := by
  have hshown : s.shown = false := by
    by_contra hshown
    simp [h.flagged hposted (by simpa using hshown)] at hflag
  refine ⟨hshown, ?_, h.waits hposted hshown⟩
  rcases h.display with hnil | ⟨-, hyes, -⟩
  · exact hnil
  · simp [hshown] at hyes

/-- A round of a call that still waits. -/
theorem proceeds_run_of_waiting (h : Proceeds s) (hposted : s.posted = true)
    (hflag : s.adShown = false) (foreground : Bool) :
    Proceeds (poll.run s foreground) ∧
      (ContinuesOnce (poll.run s foreground) ↔
        ContinuesOnce s ∧ ¬poll.LateShow s (.run foreground)) := by
  obtain ⟨hshown, hdisplay, hjump, htime⟩ := h.of_waiting hposted hflag
  have hnow : ContinuesOnce s := ⟨by simp [hjump], by simp [htime]⟩
  have hrun : poll.run s foreground =
      poll.look (poll.attempt { s with posted := false }) foreground := by
    simp [run, hposted, hflag]
  obtain ⟨hattempted, hlast, hfast⟩ :=
    @attempted_attempt poll { s with posted := false } rfl hshown hdisplay hjump htime
  obtain ⟨hproceeds, honce⟩ := @Attempted.look poll _ foreground hattempted
  have hlate : poll.LateShow s (.run foreground) ↔ LastRound s ∧ poll.Shows s foreground := by
    simp only [LateShow, hposted, hflag, true_and]
  rw [hrun, honce, hlast, shows_congr hfast, hlate, and_iff_right hnow]
  exact ⟨hproceeds, Iff.rfl⟩

/-- A round of a call that does not wait changes at most `posted`. -/
theorem run_of_not_waiting (h : ¬(s.posted = true ∧ s.adShown = false)) (foreground : Bool) :
    poll.run s foreground = { s with posted := false } := by
  rw [run]
  split
  · rename_i hnot
    rw [← hnot]
  · rename_i hposted
    have hflag : s.adShown = true := by simpa [hposted] using h
    exact if_pos hflag

theorem proceeds_run (h : Proceeds s) (foreground : Bool) :
    Proceeds (poll.run s foreground) ∧
      (ContinuesOnce (poll.run s foreground) ↔
        ContinuesOnce s ∧ ¬poll.LateShow s (.run foreground)) := by
  by_cases hwaits : s.posted = true ∧ s.adShown = false
  · exact proceeds_run_of_waiting h hwaits.1 hwaits.2 foreground
  · have hnot : ¬poll.LateShow s (.run foreground) := fun hlate => hwaits ⟨hlate.1, hlate.2.1⟩
    rw [run_of_not_waiting hwaits, and_iff_left hnot]
    exact ⟨⟨fun hp => (nomatch hp), fun hp => (nomatch hp), h.display⟩,
      ContinuesOnce.congr rfl rfl rfl⟩

/-- Every ad on the screen is the first thing that the call goes on with, or comes after
    a timeout. -/
theorem proceeds_adDismissed (h : Proceeds s) (foreground : Bool) :
    Proceeds (poll.adDismissed s foreground) ∧
      (ContinuesOnce (poll.adDismissed s foreground) ↔ ContinuesOnce s) := by
  rcases h.display with hnil | ⟨⟨ad, had⟩, hshown, hjump⟩
  · have hself : poll.adDismissed s foreground = s := by rw [adDismissed, hnil]
    rw [hself]
    exact ⟨h, Iff.rfl⟩
  · have hnever : s.shown = false → False := by simp [hshown]
    rw [adDismissed, had]
    cases foreground with
    | false =>
      exact ⟨⟨fun _ hno => (hnever hno).elim, h.flagged, .inl rfl⟩,
        ContinuesOnce.congr rfl rfl rfl⟩
    | true =>
      refine ⟨⟨fun _ hno => (hnever hno).elim, h.flagged, .inl rfl⟩, ?_⟩
      by_cases htime : s.timedOut = true
      · refine iff_of_false (fun hafter => ?_) fun hbefore => hbefore.not_both ⟨htime, hshown⟩
        exact ContinuesOnce.not_both hafter ⟨htime, hshown⟩
      · have hzero : s.jumpFuns = 0 := by simpa [htime] using hjump
        refine iff_of_true ⟨?_, ?_⟩ ⟨?_, ?_⟩
        · simp [jumpFun, hzero]
        · simp [jumpFun, htime]
        · simp [hzero]
        · simp [htime]

theorem proceeds_step (s : PollState) (e : Event) (h : Proceeds s) (hkeeps : KeepsFlag s e) :
    Proceeds (poll.step s e) ∧
      (ContinuesOnce (poll.step s e) ↔ ContinuesOnce s ∧ ¬poll.LateShow s e) := by
  cases e with
  | run foreground => exact proceeds_run h foreground
  | adDismissed foreground =>
    obtain ⟨hproceeds, honce⟩ := @proceeds_adDismissed poll s h foreground
    exact ⟨hproceeds, honce.trans (and_iff_left id).symm⟩
  | setAdShown adShown =>
    have honce : ContinuesOnce (poll.step s (.setAdShown adShown)) ↔ ContinuesOnce s :=
      ContinuesOnce.congr rfl rfl rfl
    refine ⟨⟨h.waits, fun hposted hshown => ?_, h.display⟩, honce.trans (and_iff_left id).symm⟩
    -- only a flag that is cleared could matter
    cases adShown with
    | true => rfl
    | false =>
      have hyes : s.shown = true := hshown
      exact absurd (hkeeps rfl hposted) (by simp [hyes])
  | elsewhere fastVpn =>
    have honce : ContinuesOnce (poll.step s (.elsewhere fastVpn)) ↔ ContinuesOnce s :=
      ContinuesOnce.congr rfl rfl rfl
    exact ⟨⟨h.waits, h.flagged, h.display⟩, honce.trans (and_iff_left id).symm⟩

end Step

/-! ### Runs -/

theorem proceeds_call (poll : AdPoll) (fastVpn : FastVpn) (adShown : Bool) :
    Proceeds (poll.call fastVpn adShown) ∧ ContinuesOnce (poll.call fastVpn adShown) := by
  by_cases hover : (fastVpn.canShowAd poll.adType).1 = .ad_jump_over
  · simp only [call, if_pos hover, jumpFun]
    exact ⟨⟨fun hp => (nomatch hp), fun hp => (nomatch hp), .inl rfl⟩,
      ⟨le_refl 1, fun hboth => (nomatch hboth.1)⟩⟩
  · simp only [call, if_neg hover]
    cases poll with
    | showConnectAd =>
      exact ⟨⟨fun _ _ => ⟨rfl, rfl⟩, fun _ hno => (nomatch hno), .inl rfl⟩,
        ⟨Nat.zero_le 1, fun hboth => (nomatch hboth.1)⟩⟩
    | openOpenAd =>
      exact ⟨⟨fun _ _ => ⟨rfl, rfl⟩, fun _ hno => (nomatch hno), .inl rfl⟩,
        ⟨Nat.zero_le 1, fun hboth => (nomatch hboth.1)⟩⟩

/-- **A call goes on at most once, and not both without an ad and after one, exactly when
    no 20th round shows an ad** — as long as nobody clears the flag of a call that has
    shown its ad and is still posted. -/
theorem continuesOnce_iff (poll : AdPoll) (fastVpn : FastVpn) (adShown : Bool) (es : List Event)
    (hkeeps : (poll.machine fastVpn adShown).EveryStep KeepsFlag es) :
    ContinuesOnce ((poll.machine fastVpn adShown).run es) ↔
      (poll.machine fastVpn adShown).EveryStep (fun s e => ¬poll.LateShow s e) es := by
  obtain ⟨hproceeds, honce⟩ := proceeds_call poll fastVpn adShown
  exact Machine.latch_of_everyStep hproceeds honce
    (fun s e h hmeets => (proceeds_step s e h hmeets).1)
    (fun s e h hmeets => (proceeds_step s e h hmeets).2) es hkeeps

/-- A configuration with one offer, an interstitial ad for the connect button, and no
    gate closed. -/
def contOfferOnly : Surroundings :=
  { FastVpn.resultOfferOnly with
    adListData :=
      { FastVpn.resultOfferOnly.adListData with
        resu_easy := some [], cont_easy := some [⟨"1", 2, "interstitial", []⟩] } }

/-- The app after it has connected: the ad has been asked for. -/
def connected : FastVpn :=
  (FastVpn.machine contOfferOnly {} .DISCONNECTED none).run
    (FastVpn.openVTool "10.0.0.1" ++ FastVpn.setVpnState .CONNECTED)

/-- The ad comes between the 19th and the 20th round. -/
def lateAd : List Event :=
  List.replicate 19 (.run true) ++ [.elsewhere (connected.step (.adLoaded 0)), .run true]

theorem not_continuesOnce :
    ¬ ∀ (poll : AdPoll) (fastVpn : FastVpn) (adShown : Bool) (es : List Event),
        (∀ e ∈ es, ∀ adShown, e ≠ .setAdShown adShown) →
        ContinuesOnce ((poll.machine fastVpn adShown).run es) := by
  intro h
  have hjumps := (h .showConnectAd connected false (lateAd ++ [.adDismissed true])
    (by simp [lateAd])).jumpFuns_le
  revert hjumps
  decide

/-- Nobody else writes the flag. -/
theorem everyStep_keepsFlag {M : Machine PollState Event} {es : List Event}
    (h : ∀ e ∈ es, ∀ adShown, e ≠ .setAdShown adShown) : M.EveryStep KeepsFlag es := by
  rintro before e after rfl
  have he := h e (List.mem_append_right _ List.mem_cons_self)
  cases e with
  | setAdShown adShown => exact absurd rfl (he adShown)
  | run | adDismissed | elsewhere => exact True.intro

/-- The ad comes after the first round. -/
def earlyAd : List Event :=
  [.run true, .elsewhere (connected.step (.adLoaded 0)), .run true, .run true, .adDismissed true]

theorem not_lateShow_earlyAd :
    ((showConnectAd.machine connected false).run earlyAd).jumpFuns = 1 ∧
      (showConnectAd.machine connected false).EveryStep (fun s e => ¬showConnectAd.LateShow s e)
        earlyAd :=
  ⟨by decide, (continuesOnce_iff showConnectAd connected false earlyAd
    (everyStep_keepsFlag (by simp [earlyAd]))).mp ⟨by decide, by decide⟩⟩

end AdPoll

end OpenVpnAndroid
