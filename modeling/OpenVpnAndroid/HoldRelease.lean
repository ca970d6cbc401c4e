/-
  OpenVpnAndroid/HoldRelease.lean
  ===============================
  **Is the hold released while the VPN is paused?**

  Four ways lead to `releaseHoldCmd`.  The delayed runnable asks the pause
  callback itself, and the receiver calls `resume` and, for a new network,
  `networkChange` only when the VPN should be connected.  The fourth way is the
  network that comes back before the disconnect timer has run: it calls
  `networkChange(true)` whatever the user or the screen wants.

  A log only grows, so one release at the wrong time stays in it; the runs
  without one are exactly the runs that never take that way while OpenVPN waits
  and the VPN is paused.
-/
import OpenVpnAndroid.DeviceState

namespace OpenVpnAndroid

open ConnectState

/-! ### The management thread -/

/-- Every `hold release` so far was sent while the VPN should be running. -/
def OpenVpnManagementThread.ReleasesRunning (m : OpenVpnManagementThread) : Prop :=
  ∀ entry ∈ m.log, entry.action = .command .holdRelease → entry.running = true

namespace OpenVpnManagementThread

variable {running : Bool} {m : OpenVpnManagementThread}

/-- Only the log matters. -/
theorem ReleasesRunning.congr {n : OpenVpnManagementThread} (h : m.log = n.log) :
    m.ReleasesRunning ↔ n.ReleasesRunning := by
  rw [ReleasesRunning, ReleasesRunning, h]

theorem releasesRunning_record {action : Action} :
    (m.record running action).ReleasesRunning ↔
      m.ReleasesRunning ∧ (action = .command .holdRelease → running = true) :=
  forall_mem_record

/-- A release asks for a running VPN. -/
@[simp] theorem releasesRunning_releaseHoldCmd :
    (m.releaseHoldCmd running).ReleasesRunning ↔ m.ReleasesRunning ∧ running = true := by
  simp only [releaseHoldCmd, managmentCommand, releasesRunning_record, Action.command.injEq,
    reduceCtorEq, false_implies, and_true, forall_const]
  exact and_congr_left' (ReleasesRunning.congr rfl)

@[simp] theorem releasesRunning_releaseHold :
    (m.releaseHold running).ReleasesRunning ↔
      m.ReleasesRunning ∧ (m.mWaitingForRelease = true → running = true) := by
  by_cases h : m.mWaitingForRelease = true <;> simp [releaseHold, h]

@[simp] theorem releasesRunning_networkChange {same : Bool} :
    (m.networkChange running same).ReleasesRunning ↔
      m.ReleasesRunning ∧ (m.mWaitingForRelease = true → running = true) := by
  by_cases h : m.mWaitingForRelease = true
  · simp [networkChange, h]
  · simp [networkChange, managmentCommand, releasesRunning_record, h]

@[simp] theorem releasesRunning_resume :
    (m.resume running).ReleasesRunning ↔
      m.ReleasesRunning ∧ (m.mWaitingForRelease = true → running = true) :=
  releasesRunning_releaseHold

/-- `signalusr1` and with it `pause` never release the hold. -/
@[simp] theorem releasesRunning_signalusr1 :
    (m.signalusr1 running).ReleasesRunning ↔ m.ReleasesRunning := by
  by_cases h : m.mWaitingForRelease = true
  · simp only [signalusr1, h, Bool.not_true, Bool.false_eq_true, if_false, releasesRunning_record,
      reduceCtorEq, false_implies, and_true]
    exact ReleasesRunning.congr rfl
  · simp only [signalusr1, h, Bool.not_false, if_true, managmentCommand, releasesRunning_record,
      Action.command.injEq, reduceCtorEq, false_implies, and_true]
    exact ReleasesRunning.congr rfl

@[simp] theorem releasesRunning_pause {reason : PauseReason} :
    (m.pause running reason).ReleasesRunning ↔ m.ReleasesRunning := by
  rw [pause, releasesRunning_signalusr1]
  exact releasesRunning_record.trans (by simp)

@[simp] theorem releasesRunning_handleHold :
    (m.handleHold running).ReleasesRunning ↔ m.ReleasesRunning := by
  cases running with
  | true => exact ReleasesRunning.congr rfl
  | false => exact releasesRunning_record.trans (by simp [ReleasesRunning])

/-- The runnable asks the callback before it releases the hold. -/
@[simp] theorem releasesRunning_runResumeHoldRunnable :
    (m.runResumeHoldRunnable running).ReleasesRunning ↔ m.ReleasesRunning := by
  rcases m with ⟨waiting, reason, _ | posted, log⟩
  · rfl
  · cases running with
    | true => exact releasesRunning_releaseHoldCmd.trans (and_iff_left rfl)
    | false => rfl

end OpenVpnManagementThread

/-! ### The receiver -/

namespace DeviceStateReceiver

variable {d : DeviceStateReceiver} {m : OpenVpnManagementThread}

theorem shouldBeConnected_eq_true :
    d.shouldBeConnected = true ↔
      d.screen = shouldbeconnected ∧ d.userpause = shouldbeconnected ∧
        d.network = shouldbeconnected := by
  simp [shouldBeConnected, and_assoc]

/-- The connected network is the one that was lost, the timer has not run, and
    the VPN is paused for another reason than the network. -/
def ReturnsWhilePaused (d : DeviceStateReceiver) (networkInfo : NetworkInfo) : Prop :=
  networkInfo.connected = true ∧ d.network = pendingdisconnect ∧
    d.sameNetwork networkInfo = true ∧
    ¬ (d.screen = shouldbeconnected ∧ d.userpause = shouldbeconnected)

theorem releasesRunning_callPause :
    (d.callPause m).management.ReleasesRunning ↔ m.ReleasesRunning :=
  OpenVpnManagementThread.releasesRunning_pause

/-- A call of `resume` under its guard. -/
theorem releasesRunning_callResume (hd : d.shouldBeConnected = true) :
    (d.callResume m).management.ReleasesRunning ↔ m.ReleasesRunning := by
  simp [callResume, hd]

theorem releasesRunning_callNetworkChange {same : Bool} :
    (d.callNetworkChange m same).management.ReleasesRunning ↔
      m.ReleasesRunning ∧ (m.mWaitingForRelease = true → d.shouldBeConnected = true) :=
  OpenVpnManagementThread.releasesRunning_networkChange

theorem releasesRunning_runDelayDisconnectRunnable :
    (d.runDelayDisconnectRunnable m).management.ReleasesRunning ↔ m.ReleasesRunning := by
  rw [runDelayDisconnectRunnable]
  split
  · rfl
  · dsimp only
    split
    · rfl
    · exact releasesRunning_callPause

theorem releasesRunning_updateByteCount {diffIn diffOut now : Int} {clock : Nat → Int} :
    (d.updateByteCount m diffIn diffOut now clock).management.ReleasesRunning ↔
      m.ReleasesRunning := by
  rw [updateByteCount]
  split
  · rfl
  · dsimp only
    split
    · rfl
    · split
      · exact releasesRunning_callPause
      · rfl

theorem releasesRunning_userPause {pause : Bool} :
    (d.userPause m pause).management.ReleasesRunning ↔ m.ReleasesRunning := by
  rw [userPause]
  split
  · exact releasesRunning_callPause
  · dsimp only
    split
    · next h => exact releasesRunning_callResume (Bool.and_eq_true_iff.mp h).1
    · exact releasesRunning_callPause

theorem releasesRunning_screenOff {screenOffPause : Bool} {now : Int} :
    (d.screenOff m screenOffPause now).management.ReleasesRunning ↔ m.ReleasesRunning := by
  rw [screenOff]
  split
  · dsimp only
    split <;> rfl
  · rfl

/-- Turning the screen on can only switch `shouldBeConnected` on. -/
theorem releasesRunning_screenOn :
    (d.screenOn m).management.ReleasesRunning ↔ m.ReleasesRunning := by
  rw [screenOn]
  split
  · next h =>
      apply releasesRunning_callResume
      by_contra hoff
      have hbefore : d.shouldBeConnected = false := by
        by_contra hon
        obtain ⟨-, huser, hnetwork⟩ :=
          shouldBeConnected_eq_true.mp (Bool.not_eq_false _ ▸ hon)
        exact hoff (shouldBeConnected_eq_true.mpr ⟨rfl, huser, hnetwork⟩)
      simp [hbefore, hoff] at h
  · split
    · exact releasesRunning_callPause
    · rfl

/-- For another network the calls stand under `shouldBeConnected`. -/
theorem releasesRunning_otherNetwork {info : NetworkInfo} {pending same : Bool} :
    (d.otherNetwork m info pending same).management.ReleasesRunning ↔ m.ReleasesRunning := by
  rw [otherNetwork]
  generalize (if d.screen = pendingdisconnect then disconnected else d.screen) = screen
  dsimp only
  split
  · next hd =>
      split
      · exact releasesRunning_callNetworkChange.trans (and_iff_left fun _ => hd)
      · exact releasesRunning_callResume hd
  · rfl

theorem releasesRunning_networkStateChange {networkInfo : Option NetworkInfo} {sendusr1 : Bool} :
    (d.networkStateChange m networkInfo sendusr1).management.ReleasesRunning ↔
      m.ReleasesRunning ∧
        ¬ ∃ info ∈ networkInfo, d.ReturnsWhilePaused info ∧ m.mWaitingForRelease = true := by
  rcases networkInfo with _ | info
  · rw [networkStateChange]
    split <;> simp
  rw [networkStateChange]
  dsimp only
  split
  · next hconnected =>
      split
      · next hsame =>
          -- the way without a guard
          obtain ⟨hpending, hsame⟩ := Bool.and_eq_true_iff.mp hsame
          have hpending : d.network = pendingdisconnect := beq_iff_eq.mp hpending
          rw [releasesRunning_callNetworkChange, shouldBeConnected_eq_true]
          simp only [Option.mem_def, Option.some.injEq, exists_eq_left', ReturnsWhilePaused,
            hconnected, hpending, hsame, true_and, and_true]
          tauto
      · next hsame =>
          have hok : ¬ d.ReturnsWhilePaused info := by
            rintro ⟨-, hpending, hsame', -⟩
            exact hsame (by simp [hpending, hsame'])
          have hfine : (¬ ∃ i ∈ some info, d.ReturnsWhilePaused i ∧
              m.mWaitingForRelease = true) := by
            simp [hok]
          rw [and_iff_left hfine]
          exact releasesRunning_otherNetwork
  · next hconnected =>
      simp [ReturnsWhilePaused, hconnected]

end DeviceStateReceiver

/-! ### Runs -/

namespace Session

/-- The step that releases the hold of a paused VPN: a call of `networkChange`
    while OpenVPN waits, from the unguarded place or from outside. -/
def ReleasesWhilePaused (s : Session) : Event → Prop
  | .connectivity networkInfo _ =>
      ∃ d ∈ s.receiver, ∃ info ∈ networkInfo,
        d.ReturnsWhilePaused info ∧ s.management.mWaitingForRelease = true
  | .networkChange _ => s.management.mWaitingForRelease = true ∧ ¬ s.shouldBeRunning = true
  | _ => False

/-- What one event does to the releases. -/
theorem releasesRunning_step (s : Session) (e : Event) :
    (s.step e).management.ReleasesRunning ↔
      s.management.ReleasesRunning ∧ ¬ s.ReleasesWhilePaused e := by
  rcases s with ⟨_ | d, m⟩ <;> cases e <;>
    simp [step, ReleasesWhilePaused, shouldBeRunning,
      DeviceStateReceiver.releasesRunning_networkStateChange,
      DeviceStateReceiver.releasesRunning_screenOff, DeviceStateReceiver.releasesRunning_screenOn,
      DeviceStateReceiver.releasesRunning_userPause,
      DeviceStateReceiver.releasesRunning_updateByteCount,
      DeviceStateReceiver.releasesRunning_runDelayDisconnectRunnable]

/-- Over any run, a `hold release` is sent only while the VPN should be running
    exactly when no step of the run releases the hold of a paused VPN. -/
theorem holdReleases_running_iff (es : List Event) :
    (∀ entry ∈ (session.run es).management.log,
        entry.action = .command .holdRelease → entry.running = true) ↔
      ∀ before e after, es = before ++ e :: after →
        ¬ (session.run before).ReleasesWhilePaused e := by
  have hinit : session.initial.management.ReleasesRunning := by
    intro entry hentry
    cases hentry
  exact Machine.latch (P := fun s : Session => s.management.ReleasesRunning) hinit
    releasesRunning_step es

/-- The user pauses the VPN; the wireless network is lost and is back before the
    timer has run. -/
def wifiReturnsWhilePaused : List Event :=
  let wifi : NetworkInfo := ⟨1, none, true⟩
  [.constructReceiver, .connectivity (some wifi) true, .userPause true, .hold 0,
    .connectivity none true, .connectivity (some wifi) true]

theorem not_holdReleases_running :
    ¬ ∀ es, ∀ entry ∈ (session.run es).management.log,
        entry.action = .command .holdRelease → entry.running = true := by
  intro h
  have hrun : (⟨.command .holdRelease, false⟩ : LogEntry) ∈
      (session.run wifiReturnsWhilePaused).management.log := by decide
  exact absurd (h _ _ hrun rfl) (by decide)

end Session

end OpenVpnAndroid
