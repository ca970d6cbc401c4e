/-
  OpenVpnAndroid/LostNetwork.lean
  ===============================
  **Is a lost network acted on?**

  A broadcast without a network makes it `PENDINGDISCONNECT` and posts
  `mDelayDisconnectRunnable`, which pauses the VPN after 20 seconds.  Three handlers
  remove the runnable.  Two of them have made the network `SHOULDBECONNECTED` before;
  the handler of `SCREEN_ON` leaves it as it is, and then nothing is left that would
  act on the lost network (`lostNetwork_actedOn_iff`).
-/
import OpenVpnAndroid.DeviceState

namespace OpenVpnAndroid

open ConnectState

namespace DeviceStateReceiver

variable {d : DeviceStateReceiver} {m : OpenVpnManagementThread}

/-! ### The network and its timer in each handler -/

/-- The handler leaves the network and its timer alone. -/
def KeepsNetwork (d : DeviceStateReceiver) (s : Session) : Prop :=
  ∃ d' ∈ s.receiver,
    d'.network = d.network ∧ d'.mDelayDisconnectRunnable = d.mDelayDisconnectRunnable

theorem keepsNetwork_updateByteCount {diffIn diffOut now : Int} {clock : Nat → Int} :
    d.KeepsNetwork (d.updateByteCount m diffIn diffOut now clock) := by
  rw [updateByteCount]
  split
  · exact ⟨_, rfl, rfl, rfl⟩
  · dsimp only
    split
    · exact ⟨_, rfl, rfl, rfl⟩
    · split <;> exact ⟨_, rfl, rfl, rfl⟩

theorem keepsNetwork_userPause {pause : Bool} : d.KeepsNetwork (d.userPause m pause) := by
  rw [userPause]
  split
  · exact ⟨_, rfl, rfl, rfl⟩
  · dsimp only
    split <;> exact ⟨_, rfl, rfl, rfl⟩

theorem keepsNetwork_screenOff {screenOffPause : Bool} {now : Int} :
    d.KeepsNetwork (d.screenOff m screenOffPause now) := by
  rw [screenOff]
  split
  · dsimp only
    split <;> exact ⟨_, rfl, rfl, rfl⟩
  · exact ⟨_, rfl, rfl, rfl⟩

/-- A posted runnable pauses the VPN. -/
theorem runDelayDisconnectRunnable_lost (hlost : d.network = pendingdisconnect)
    (hposted : 0 < d.mDelayDisconnectRunnable) :
    ∃ d' : DeviceStateReceiver, d'.network = disconnected ∧
      d.runDelayDisconnectRunnable m = d'.callPause m := by
  obtain ⟨n, hn⟩ := Nat.exists_eq_succ_of_ne_zero (Nat.ne_of_gt hposted)
  rw [runDelayDisconnectRunnable, hn]
  dsimp only
  rw [if_neg (not_not.mpr hlost)]
  refine ⟨_, ?_, rfl⟩
  split_ifs <;> rfl

/-- It does not make a network lost. -/
theorem runDelayDisconnectRunnable_not_lost (hnot : d.network ≠ pendingdisconnect) :
    ∃ d' ∈ (d.runDelayDisconnectRunnable m).receiver, d'.network ≠ pendingdisconnect := by
  rw [runDelayDisconnectRunnable]
  split
  · exact ⟨d, rfl, hnot⟩
  · dsimp only
    rw [if_pos hnot]
    exact ⟨_, rfl, hnot⟩

/-- A network is back.  The thread is told when the VPN should be connected. -/
theorem networkStateChange_connected {info : NetworkInfo} {sendusr1 : Bool}
    (hinfo : info.connected = true) :
    ∃ d' ∈ (d.networkStateChange m (some info) sendusr1).receiver,
      d'.network = shouldbeconnected ∧
      (d.network = pendingdisconnect → d'.shouldBeConnected = true → ∃ same,
        (d.networkStateChange m (some info) sendusr1).management =
          m.networkChange true same) := by
  rw [networkStateChange]
  dsimp only
  rw [if_pos hinfo]
  split
  · refine ⟨_, rfl, rfl, fun _ hconnected => ⟨true, ?_⟩⟩
    exact congrArg (m.networkChange · true) hconnected
  · rw [otherNetwork]
    generalize (if d.screen = pendingdisconnect then disconnected else d.screen) = screen
    dsimp only
    split
    · next hconnected =>
        split
        · refine ⟨_, rfl, rfl, fun _ _ => ⟨d.sameNetwork info, ?_⟩⟩
          exact congrArg (m.networkChange · _) hconnected
        · next hnot =>
            refine ⟨_, rfl, rfl, fun hlost => ?_⟩
            simp [hlost] at hnot
    · next hnot => exact ⟨_, rfl, rfl, fun _ hconnected => absurd hconnected hnot⟩

/-- A network that is not connected changes nothing. -/
theorem networkStateChange_not_connected {info : NetworkInfo} {sendusr1 : Bool}
    (hinfo : ¬info.connected = true) :
    d.networkStateChange m (some info) sendusr1 = ⟨some d, m⟩ := by
  rw [networkStateChange]
  exact if_neg hinfo

end DeviceStateReceiver

/-! ### Runs -/

namespace Session

/-- While the network is lost the runnable is posted. -/
def LostNetworkScheduled (s : Session) : Prop :=
  ∀ d ∈ s.receiver, d.network = pendingdisconnect → 0 < d.mDelayDisconnectRunnable

/-- A lost network stays lost until a broadcast has a connected network, of which the
    thread is told when the VPN should be connected, or until the runnable pauses the
    VPN. -/
def ActedOn (s : Session) (e : Event) : Prop :=
  ∀ d ∈ s.receiver, d.network = pendingdisconnect → ∃ d' ∈ (s.step e).receiver,
    match e with
    | .delayDisconnect =>
        d'.network = disconnected ∧ s.step e = d'.callPause s.management
    | .connectivity (some info) _ =>
        if info.connected then
          d'.network = shouldbeconnected ∧ (d'.shouldBeConnected = true →
            ∃ same, (s.step e).management = s.management.networkChange true same)
        else d'.network = pendingdisconnect
    | _ => d'.network = pendingdisconnect

/-- The screen is turned on while the network is lost. -/
def ScreenOnWhileLost (s : Session) : Event → Prop
  | .screenOn => ∃ d ∈ s.receiver, d.network = pendingdisconnect
  | _ => False

/-- What keeps the network and its timer keeps the two in step. -/
theorem scheduled_of_keepsNetwork {d : DeviceStateReceiver} {s : Session}
    (h : d.KeepsNetwork s)
    (hd : d.network = pendingdisconnect → 0 < d.mDelayDisconnectRunnable) :
    s.LostNetworkScheduled := by
  obtain ⟨d', hd', hnetwork, hrunnable⟩ := h
  intro d'' hd'' hlost
  obtain rfl := Option.mem_unique hd' hd''
  rw [hrunnable]
  exact hd (hnetwork.symm.trans hlost)

theorem lost_of_keepsNetwork {d : DeviceStateReceiver} {s : Session} (h : d.KeepsNetwork s)
    (hlost : d.network = pendingdisconnect) :
    ∃ d' ∈ s.receiver, d'.network = pendingdisconnect := by
  obtain ⟨d', hd', hnetwork, -⟩ := h
  exact ⟨d', hd', hnetwork.trans hlost⟩

theorem scheduled_of_not_lost {s : Session}
    (h : ∃ d ∈ s.receiver, d.network ≠ pendingdisconnect) : s.LostNetworkScheduled := by
  obtain ⟨d, hd, hnot⟩ := h
  intro d' hd' hlost
  obtain rfl := Option.mem_unique hd hd'
  exact absurd hlost hnot

variable {d : DeviceStateReceiver} {m : OpenVpnManagementThread}

/-- What one event does to the receiver. -/
theorem actedOn_step (hd : d.network = pendingdisconnect → 0 < d.mDelayDisconnectRunnable)
    (e : Event) (hon : e ≠ .screenOn) :
    ((Session.mk (some d) m).step e).LostNetworkScheduled ∧
      (Session.mk (some d) m).ActedOn e := by
  have hkeeps : ∀ s' : Session, d.KeepsNetwork s' → s'.LostNetworkScheduled ∧
      ∀ d₀ ∈ some d, d₀.network = pendingdisconnect →
        ∃ d' ∈ s'.receiver, d'.network = pendingdisconnect := by
    intro s' h
    refine ⟨scheduled_of_keepsNetwork h hd, fun d₀ hd₀ hlost => ?_⟩
    obtain rfl := Option.some.inj hd₀
    exact lost_of_keepsNetwork h hlost
  cases e with
  | screenOn => exact absurd rfl hon
  | constructReceiver => exact hkeeps _ ⟨d, rfl, rfl, rfl⟩
  | hold _ => exact hkeeps _ ⟨d, rfl, rfl, rfl⟩
  | resumeHold => exact hkeeps _ ⟨d, rfl, rfl, rfl⟩
  | networkChange _ => exact hkeeps _ ⟨d, rfl, rfl, rfl⟩
  | screenOff pause now => exact hkeeps _ DeviceStateReceiver.keepsNetwork_screenOff
  | userPause pause => exact hkeeps _ DeviceStateReceiver.keepsNetwork_userPause
  | updateByteCount diffIn diffOut now clock =>
      exact hkeeps _ DeviceStateReceiver.keepsNetwork_updateByteCount
  | delayDisconnect =>
      by_cases hlost : d.network = pendingdisconnect
      · obtain ⟨d', hd', hrun⟩ :=
          DeviceStateReceiver.runDelayDisconnectRunnable_lost (m := m) hlost (hd hlost)
        have hreceiver : d' ∈ (d.runDelayDisconnectRunnable m).receiver := by
          rw [hrun]
          rfl
        refine ⟨scheduled_of_not_lost ⟨d', hreceiver, by rw [hd']; decide⟩, ?_⟩
        intro d₀ hd₀ _
        obtain rfl := Option.some.inj hd₀
        exact ⟨d', hreceiver, hd', hrun⟩
      · refine ⟨scheduled_of_not_lost
          (DeviceStateReceiver.runDelayDisconnectRunnable_not_lost hlost), ?_⟩
        intro d₀ hd₀ hlost'
        obtain rfl := Option.some.inj hd₀
        exact absurd hlost' hlost
  | connectivity networkInfo sendusr1 =>
      rcases networkInfo with _ | info
      · cases sendusr1 with
        | false => exact hkeeps _ ⟨d, rfl, rfl, rfl⟩
        | true =>
            -- the runnable is posted
            refine ⟨fun d' hd' _ => ?_, fun d₀ _ _ => ⟨_, rfl, rfl⟩⟩
            obtain rfl := Option.some.inj hd'
            exact Nat.succ_pos _
      · by_cases hinfo : info.connected = true
        · obtain ⟨d', hd', hnetwork, htold⟩ :=
            @DeviceStateReceiver.networkStateChange_connected d m info sendusr1 hinfo
          refine ⟨scheduled_of_not_lost ⟨d', hd', by rw [hnetwork]; decide⟩, ?_⟩
          intro d₀ hd₀ hlost
          obtain rfl := Option.some.inj hd₀
          refine ⟨d', hd', ?_⟩
          dsimp only
          rw [if_pos hinfo]
          exact ⟨hnetwork, htold hlost⟩
        · have hsame := hkeeps (d.networkStateChange m (some info) sendusr1) (by
            rw [DeviceStateReceiver.networkStateChange_not_connected hinfo]
            exact ⟨d, rfl, rfl, rfl⟩)
          simpa [ActedOn, step, hinfo] using hsame

/-- The two stay in step, unless the screen is turned on while the network is lost. -/
theorem scheduled_and_actedOn_step (s : Session) (e : Event) (hs : s.LostNetworkScheduled) :
    (s.step e).LostNetworkScheduled ∧ s.ActedOn e ↔ ¬s.ScreenOnWhileLost e := by
  rcases s with ⟨_ | d, m⟩
  · have hfine : ¬(Session.mk none m).ScreenOnWhileLost e := by
      cases e <;> simp [ScreenOnWhileLost]
    refine iff_of_true ⟨?_, fun d hd => nomatch hd⟩ hfine
    cases e <;> simp [LostNetworkScheduled, step, DeviceStateReceiver.init]
  · have hd : d.network = pendingdisconnect → 0 < d.mDelayDisconnectRunnable := hs d rfl
    by_cases hon : e = .screenOn
    · subst hon
      simp only [LostNetworkScheduled, ActedOn, ScreenOnWhileLost, step, Option.elim,
        DeviceStateReceiver.screenOn_receiver]
      simp
    · refine iff_of_true (actedOn_step hd e hon) ?_
      cases e <;> simp_all [ScreenOnWhileLost]

end Session

/-- A lost network is acted on in all of a run exactly when the screen is not turned on
    while it is lost. -/
theorem lostNetwork_actedOn_iff (es : List Event) :
    (∀ before after, es = before ++ after → (session.run before).LostNetworkScheduled) ∧
        session.EveryStep Session.ActedOn es ↔
      session.EveryStep (fun s e => ¬s.ScreenOnWhileLost e) es :=
  Machine.everyState_and_everyStep_iff (M := session) (fun _ hd => nomatch hd)
    Session.scheduled_and_actedOn_step es

/-- The network is lost and the screen turned on: the runnable is gone, and the VPN is
    paused as if the user had done it. -/
theorem lostNetwork_not_actedOn :
    let wifi : NetworkInfo := ⟨1, some "home", true⟩
    let es : List Event := [.constructReceiver, .connectivity (some wifi) true,
      .connectivity none true, .screenOn]
    let s := session.run es
    s.receiver = some ⟨.pendingdisconnect, .shouldbeconnected, .shouldbeconnected, some wifi,
        [], 0⟩ ∧
      s.management.lastPauseReason = .userPause ∧ ¬s.LostNetworkScheduled := by
  intro wifi es s
  have hreceiver : s.receiver = some ⟨.pendingdisconnect, .shouldbeconnected,
      .shouldbeconnected, some wifi, [], 0⟩ := by decide
  refine ⟨hreceiver, by decide, fun h => ?_⟩
  exact absurd (h _ hreceiver rfl) (by decide)

end OpenVpnAndroid
