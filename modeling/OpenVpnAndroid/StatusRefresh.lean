/-
  OpenVpnAndroid/StatusRefresh.lean
  =================================
  **What `pause` does to a VPN that should be connected.**

  `pause` stops the tunnel, and it is also called to show a new reason for a VPN
  that is paused already.  It takes the runnable that releases the hold out of
  the queue.  Every caller but one has just switched `shouldBeConnected` off or
  has asked it; `userPause(false)` calls it whenever it has changed nothing, also
  for a VPN that is connected.

  A run without such a call never pauses a VPN that should be connected
  (`pauses_stopped_iff`), and OpenVPN waits for a release only while one is
  scheduled or the VPN should not be connected (`notStuck_iff`).
-/
import OpenVpnAndroid.HoldRelease

namespace OpenVpnAndroid

open ConnectState

/-! ### The management thread -/

namespace OpenVpnManagementThread

variable {running : Bool} {m : OpenVpnManagementThread}

/-- OpenVPN does not wait for nothing. -/
def NotStuck (running : Bool) (m : OpenVpnManagementThread) : Prop :=
  running = true → m.mWaitingForRelease = true → 0 < m.mResumeHoldRunnable

theorem notStuck_of_not_waiting (h : m.mWaitingForRelease = false) : m.NotStuck running := by
  intro _ hwaiting
  rw [h] at hwaiting
  cases hwaiting

theorem notStuck_of_not_running : m.NotStuck false := fun h => nomatch h

theorem notStuck_pause {reason : PauseReason} {answer : Bool} :
    (m.pause answer reason).NotStuck running ↔ ¬(running = true ∧ m.mWaitingForRelease = true) := by
  simp [NotStuck]

theorem notStuck_handleHold : (m.handleHold running).NotStuck running := by
  intro hrunning _
  simp [handleHold, hrunning]

theorem notStuck_runResumeHoldRunnable (h : m.NotStuck running) :
    (m.runResumeHoldRunnable running).NotStuck running := by
  rcases m with ⟨waiting, reason, _ | posted, log⟩
  · exact h
  · cases running with
    | true => exact notStuck_of_not_waiting rfl
    | false => exact notStuck_of_not_running

/-- Every pause so far came while the VPN should not be running. -/
def PausesStopped (m : OpenVpnManagementThread) : Prop :=
  ∀ entry ∈ m.log, ∀ reason, entry.action = .pause reason → entry.running = false

theorem PausesStopped.congr {n : OpenVpnManagementThread} (h : m.log = n.log) :
    m.PausesStopped ↔ n.PausesStopped := by
  rw [PausesStopped, PausesStopped, h]

theorem pausesStopped_record {action : Action} :
    (m.record running action).PausesStopped ↔
      m.PausesStopped ∧ ∀ reason, action = .pause reason → running = false :=
  forall_mem_record

/-- Only `pause` records a pause. -/
theorem pausesStopped_other {action : Action} (h : ∀ reason, action ≠ .pause reason) :
    (m.record running action).PausesStopped ↔ m.PausesStopped :=
  pausesStopped_record.trans (and_iff_left fun reason hreason => absurd hreason (h reason))

@[simp] theorem pausesStopped_managmentCommand {cmd : Command} :
    (m.managmentCommand running cmd).PausesStopped ↔ m.PausesStopped :=
  pausesStopped_other fun _ h => nomatch h

@[simp] theorem pausesStopped_releaseHoldCmd :
    (m.releaseHoldCmd running).PausesStopped ↔ m.PausesStopped := by
  simp only [releaseHoldCmd, pausesStopped_managmentCommand]
  exact PausesStopped.congr rfl

@[simp] theorem pausesStopped_releaseHold :
    (m.releaseHold running).PausesStopped ↔ m.PausesStopped := by
  rw [releaseHold]
  split
  · exact pausesStopped_releaseHoldCmd
  · rfl

@[simp] theorem pausesStopped_resume : (m.resume running).PausesStopped ↔ m.PausesStopped :=
  pausesStopped_releaseHold

@[simp] theorem pausesStopped_networkChange {same : Bool} :
    (m.networkChange running same).PausesStopped ↔ m.PausesStopped := by
  rw [networkChange]
  split
  · exact pausesStopped_releaseHold
  · exact pausesStopped_managmentCommand

@[simp] theorem pausesStopped_signalusr1 :
    (m.signalusr1 running).PausesStopped ↔ m.PausesStopped := by
  rw [signalusr1]
  dsimp only
  split
  · exact pausesStopped_managmentCommand.trans (PausesStopped.congr rfl)
  · exact (pausesStopped_other (by simp)).trans (PausesStopped.congr rfl)

theorem pausesStopped_pause {reason : PauseReason} :
    (m.pause running reason).PausesStopped ↔ m.PausesStopped ∧ running = false := by
  rw [pause, pausesStopped_signalusr1]
  refine (PausesStopped.congr rfl).trans (pausesStopped_record.trans (and_congr_right' ?_))
  exact ⟨fun h => h reason rfl, fun h _ _ => h⟩

@[simp] theorem pausesStopped_handleHold :
    (m.handleHold running).PausesStopped ↔ m.PausesStopped := by
  cases running with
  | true => exact PausesStopped.congr rfl
  | false => exact pausesStopped_other fun _ h => nomatch h

@[simp] theorem pausesStopped_runResumeHoldRunnable :
    (m.runResumeHoldRunnable running).PausesStopped ↔ m.PausesStopped := by
  rcases m with ⟨waiting, reason, _ | posted, log⟩
  · rfl
  · cases running with
    | true => exact pausesStopped_releaseHoldCmd.trans (PausesStopped.congr rfl)
    | false => rfl

end OpenVpnManagementThread

/-! ### The receiver -/

namespace DeviceStateReceiver

variable {d : DeviceStateReceiver} {m : OpenVpnManagementThread}

theorem shouldBeConnected_of_screen (h : d.screen ≠ shouldbeconnected) :
    d.shouldBeConnected = false := by
  by_contra hd
  exact h (shouldBeConnected_eq_true.mp (Bool.not_eq_false _ ▸ hd)).1

theorem shouldBeConnected_of_userpause (h : d.userpause ≠ shouldbeconnected) :
    d.shouldBeConnected = false := by
  by_contra hd
  exact h (shouldBeConnected_eq_true.mp (Bool.not_eq_false _ ▸ hd)).2.1

theorem shouldBeConnected_of_network (h : d.network ≠ shouldbeconnected) :
    d.shouldBeConnected = false := by
  by_contra hd
  exact h (shouldBeConnected_eq_true.mp (Bool.not_eq_false _ ▸ hd)).2.2

/-- What a handler of the receiver does to the thread, other than refreshing the
    status of a VPN that should be connected. -/
inductive Reaction (d : DeviceStateReceiver) (m : OpenVpnManagementThread) : Session → Prop where
  | quiet (d' : DeviceStateReceiver) (h : d'.shouldBeConnected = true → d.shouldBeConnected = true) :
      Reaction d m ⟨some d', m⟩
  | paused (d' : DeviceStateReceiver) (h : d'.shouldBeConnected = false) :
      Reaction d m (d'.callPause m)
  | resumed (d' : DeviceStateReceiver) (h : d'.shouldBeConnected = true) :
      Reaction d m (d'.callResume m)
  | changed (d' : DeviceStateReceiver) (same : Bool) : Reaction d m (d'.callNetworkChange m same)

theorem reaction_runDelayDisconnectRunnable : Reaction d m (d.runDelayDisconnectRunnable m) := by
  rw [runDelayDisconnectRunnable]
  split
  · exact .quiet d id
  · dsimp only
    split
    · exact .quiet _ id
    · refine .paused _ (shouldBeConnected_of_network ?_)
      split <;> simp

theorem reaction_updateByteCount {diffIn diffOut now : Int} {clock : Nat → Int} :
    Reaction d m (d.updateByteCount m diffIn diffOut now clock) := by
  rw [updateByteCount]
  split
  · exact .quiet d id
  · dsimp only
    split
    · exact .quiet _ id
    · split
      · exact .paused _ (shouldBeConnected_of_screen (by simp))
      · exact .quiet _ id

theorem reaction_screenOff {screenOffPause : Bool} {now : Int} :
    Reaction d m (d.screenOff m screenOffPause now) := by
  have hoff : ∀ d' : DeviceStateReceiver, d'.screen ≠ shouldbeconnected →
      Reaction d m ⟨some d', m⟩ := by
    intro d' hscreen
    refine .quiet d' fun hd' => ?_
    rw [shouldBeConnected_of_screen hscreen] at hd'
    cases hd'
  rw [screenOff]
  split
  · dsimp only
    split
    · exact hoff _ (by simp)
    · exact hoff _ (by simp [fillTrafficData])
  · exact .quiet d id

/-- Turning the screen on can only switch `shouldBeConnected` on. -/
theorem reaction_screenOn : Reaction d m (d.screenOn m) := by
  rw [screenOn]
  generalize hd' : ({ d with screen := shouldbeconnected, mDelayDisconnectRunnable := 0 } :
    DeviceStateReceiver) = d'
  have hon : d.shouldBeConnected = true → d'.shouldBeConnected = true := by
    intro hd
    obtain ⟨-, huser, hnetwork⟩ := shouldBeConnected_eq_true.mp hd
    rw [← hd']
    exact shouldBeConnected_eq_true.mpr ⟨rfl, huser, hnetwork⟩
  split
  · next hchanged =>
      refine .resumed _ ?_
      by_contra hoff
      have hbefore : d.shouldBeConnected = false := Bool.eq_false_iff.mpr fun hd => hoff (hon hd)
      simp [hbefore, hoff] at hchanged
  · next hsame =>
      split
      · next hoff => exact .paused _ (by simpa using hoff)
      · refine .quiet _ fun hd => ?_
        have heq : d'.shouldBeConnected = d.shouldBeConnected := by simpa using hsame
        exact heq ▸ hd

/-- `d` is the receiver with its network back, `before` the receiver that the
    handler has found. -/
theorem reaction_otherNetwork {before : DeviceStateReceiver} {info : NetworkInfo}
    {pending same : Bool} : Reaction before m (d.otherNetwork m info pending same) := by
  rw [otherNetwork]
  generalize (if d.screen = pendingdisconnect then disconnected else d.screen) = screen
  dsimp only
  split
  · next hd =>
      split
      · exact .changed _ same
      · exact .resumed _ hd
  · next hoff => exact .quiet _ fun hd => absurd hd hoff

theorem reaction_networkStateChange {networkInfo : Option NetworkInfo} {sendusr1 : Bool} :
    Reaction d m (d.networkStateChange m networkInfo sendusr1) := by
  rcases networkInfo with _ | info
  · rw [networkStateChange]
    split
    · refine .quiet _ fun hd => ?_
      rw [shouldBeConnected_of_network (by simp)] at hd
      cases hd
    · exact .quiet d id
  · rw [networkStateChange]
    dsimp only
    split
    · split
      · exact .changed _ true
      · exact reaction_otherNetwork
    · exact .quiet d id

/-- A user who goes on with a VPN that should be connected refreshes its status. -/
theorem reaction_userPause (d : DeviceStateReceiver) (m : OpenVpnManagementThread) (pause : Bool) :
    (pause = false ∧ d.shouldBeConnected = true ∧
        ∃ d' : DeviceStateReceiver,
          d'.shouldBeConnected = true ∧ d.userPause m pause = d'.callPause m) ∨
      (¬(pause = false ∧ d.shouldBeConnected = true) ∧ Reaction d m (d.userPause m pause)) := by
  rw [userPause]
  cases pause with
  | true =>
      right
      constructor
      · rintro ⟨h, -⟩
        cases h
      · exact .paused _ (shouldBeConnected_of_userpause (by simp))
  | false =>
      rw [if_neg Bool.false_ne_true]
      generalize hd' : ({ d with userpause := shouldbeconnected } : DeviceStateReceiver) = d'
      have hon : d.shouldBeConnected = true → d'.shouldBeConnected = true := by
        intro hd
        obtain ⟨hscreen, -, hnetwork⟩ := shouldBeConnected_eq_true.mp hd
        rw [← hd']
        exact shouldBeConnected_eq_true.mpr ⟨hscreen, rfl, hnetwork⟩
      cases hd : d.shouldBeConnected with
      | true =>
          left
          refine ⟨rfl, rfl, d', hon hd, ?_⟩
          simp
      | false =>
          right
          constructor
          · rintro ⟨-, h⟩
            cases h
          · cases hd'' : d'.shouldBeConnected with
            | true => simpa [hd''] using Reaction.resumed d' hd''
            | false => simpa [hd''] using Reaction.paused d' hd''

end DeviceStateReceiver

/-! ### Steps -/

namespace Session

/-- The step that pauses a VPN that should be connected: the user goes on with it
    though it was not paused. -/
def RefreshesConnected (s : Session) (e : Event) : Prop :=
  e = .userPause false ∧ s.shouldBeRunning = true

/-- OpenVPN waits for a release only while one is scheduled or the VPN should not
    be connected. -/
def NotStuck (s : Session) : Prop := s.management.NotStuck s.shouldBeRunning

/-- The step that takes the scheduled release away. -/
def LosesRelease (s : Session) (e : Event) : Prop :=
  s.RefreshesConnected e ∧ s.management.mWaitingForRelease = true

theorem notStuck_of_reaction {d : DeviceStateReceiver} {m : OpenVpnManagementThread} {s : Session}
    (h : DeviceStateReceiver.Reaction d m s) (hm : m.NotStuck d.shouldBeConnected) :
    s.NotStuck := by
  cases h with
  | quiet d' hd' =>
      intro hrunning hwaiting
      exact hm (hd' hrunning) hwaiting
  | paused d' hd' =>
      intro hrunning
      rw [show d'.shouldBeConnected = true from hrunning] at hd'
      cases hd'
  | resumed d' hd' =>
      exact OpenVpnManagementThread.notStuck_of_not_waiting OpenVpnManagementThread.resume_waiting
  | changed d' same =>
      exact OpenVpnManagementThread.notStuck_of_not_waiting
        OpenVpnManagementThread.networkChange_waiting

theorem pausesStopped_of_reaction {d : DeviceStateReceiver} {m : OpenVpnManagementThread}
    {s : Session} (h : DeviceStateReceiver.Reaction d m s) :
    s.management.PausesStopped ↔ m.PausesStopped := by
  cases h with
  | quiet d' hd' => rfl
  | paused d' hd' =>
      exact OpenVpnManagementThread.pausesStopped_pause.trans (and_iff_left hd')
  | resumed d' hd' => exact OpenVpnManagementThread.pausesStopped_resume
  | changed d' same => exact OpenVpnManagementThread.pausesStopped_networkChange

/-- The handlers of the thread on its own. -/
def OfManagement : Event → Prop
  | .hold _ | .resumeHold | .networkChange _ => True
  | _ => False

/-- What an event of the receiver does, other than refreshing the status of a
    connected VPN. -/
theorem reaction_step {d : DeviceStateReceiver} {m : OpenVpnManagementThread} {e : Event}
    (hreceiver : ¬ OfManagement e) (hrefresh : ¬ RefreshesConnected ⟨some d, m⟩ e) :
    DeviceStateReceiver.Reaction d m (step ⟨some d, m⟩ e) := by
  cases e with
  | constructReceiver => exact .quiet d id
  | connectivity networkInfo sendusr1 => exact DeviceStateReceiver.reaction_networkStateChange
  | screenOff screenOffPause now => exact DeviceStateReceiver.reaction_screenOff
  | screenOn => exact DeviceStateReceiver.reaction_screenOn
  | updateByteCount diffIn diffOut now clock => exact DeviceStateReceiver.reaction_updateByteCount
  | delayDisconnect => exact DeviceStateReceiver.reaction_runDelayDisconnectRunnable
  | hold _ | resumeHold | networkChange _ => exact absurd trivial hreceiver
  | userPause pause =>
      rcases DeviceStateReceiver.reaction_userPause d m pause with ⟨rfl, hd, -⟩ | ⟨-, h⟩
      · exact absurd ⟨rfl, hd⟩ hrefresh
      · exact h

/-- A refresh of a connected VPN is a call of `pause`. -/
theorem step_refresh {d : DeviceStateReceiver} {m : OpenVpnManagementThread} {e : Event}
    (h : RefreshesConnected ⟨some d, m⟩ e) :
    ∃ d' : DeviceStateReceiver,
      d'.shouldBeConnected = true ∧ step ⟨some d, m⟩ e = d'.callPause m := by
  rcases h with ⟨rfl, hd⟩
  rcases DeviceStateReceiver.reaction_userPause d m false with ⟨-, -, hpause⟩ | ⟨hno, -⟩
  · exact hpause
  · exact absurd ⟨rfl, hd⟩ hno

/-- Before the receiver exists its events do nothing. -/
theorem step_none {m : OpenVpnManagementThread} {e : Event} (h : ¬ OfManagement e) :
    (step ⟨none, m⟩ e).management = m ∧ (step ⟨none, m⟩ e).shouldBeRunning = false := by
  cases e with
  | hold _ | resumeHold | networkChange _ => exact absurd trivial h
  | _ => exact ⟨rfl, rfl⟩

theorem notStuck_management {s : Session} {e : Event} (he : OfManagement e) (h : s.NotStuck) :
    (s.step e).NotStuck := by
  cases e with
  | hold waittime => exact OpenVpnManagementThread.notStuck_handleHold
  | resumeHold => exact OpenVpnManagementThread.notStuck_runResumeHoldRunnable h
  | networkChange same =>
      exact OpenVpnManagementThread.notStuck_of_not_waiting
        OpenVpnManagementThread.networkChange_waiting
  | _ => cases he

theorem notStuck_step (s : Session) (e : Event) (h : s.NotStuck) :
    (s.step e).NotStuck ↔ ¬ s.LosesRelease e := by
  by_cases hrefresh : s.RefreshesConnected e
  · rcases s with ⟨_ | d, m⟩
    · cases hrefresh.2
    · obtain ⟨d', hd', hstep⟩ := step_refresh hrefresh
      rw [hstep, LosesRelease, and_iff_right hrefresh]
      apply OpenVpnManagementThread.notStuck_pause.trans
      exact not_congr (and_iff_right hd')
  · have hkept : ¬ s.LosesRelease e := fun hloses => hrefresh hloses.1
    rw [iff_true_right hkept]
    by_cases hmanagement : OfManagement e
    · exact notStuck_management hmanagement h
    · rcases s with ⟨_ | d, m⟩
      · intro hrunning
        rw [(step_none hmanagement).2] at hrunning
        cases hrunning
      · exact notStuck_of_reaction (reaction_step hmanagement hrefresh) h

theorem pausesStopped_management {s : Session} {e : Event} (he : OfManagement e) :
    (s.step e).management.PausesStopped ↔ s.management.PausesStopped := by
  cases e with
  | hold waittime => exact OpenVpnManagementThread.pausesStopped_handleHold
  | resumeHold => exact OpenVpnManagementThread.pausesStopped_runResumeHoldRunnable
  | networkChange same => exact OpenVpnManagementThread.pausesStopped_networkChange
  | _ => cases he

theorem pausesStopped_step (s : Session) (e : Event) :
    (s.step e).management.PausesStopped ↔
      s.management.PausesStopped ∧ ¬ s.RefreshesConnected e := by
  by_cases hrefresh : s.RefreshesConnected e
  · rcases s with ⟨_ | d, m⟩
    · cases hrefresh.2
    · obtain ⟨d', hd', hstep⟩ := step_refresh hrefresh
      rw [hstep]
      apply OpenVpnManagementThread.pausesStopped_pause.trans
      exact and_congr_right' (iff_of_false (by rw [hd']; exact Bool.noConfusion)
        (not_not_intro hrefresh))
  · rw [and_iff_left hrefresh]
    by_cases hmanagement : OfManagement e
    · exact pausesStopped_management hmanagement
    · rcases s with ⟨_ | d, m⟩
      · rw [(step_none hmanagement).1]
      · exact pausesStopped_of_reaction (reaction_step hmanagement hrefresh)

/-! ### Runs -/

/-- Over any run, the receiver pauses the VPN only while it should not be connected
    exactly when no step of the run refreshes the status of a connected VPN. -/
theorem pauses_stopped_iff (es : List Event) :
    (∀ entry ∈ (session.run es).management.log, ∀ reason,
        entry.action = .pause reason → entry.running = false) ↔
      ∀ before e after, es = before ++ e :: after →
        ¬ (e = .userPause false ∧ (session.run before).shouldBeRunning = true) := by
  have hinit : session.initial.management.PausesStopped := by
    intro entry hentry
    cases hentry
  exact Machine.latch (P := fun s : Session => s.management.PausesStopped) hinit
    pausesStopped_step es

/-- The network is there and the VPN runs; the user asks to go on with it. -/
def resumedWhileConnected : List Event :=
  [.constructReceiver, .connectivity (some ⟨1, none, true⟩) true, .userPause false]

/-- The tunnel of a connected VPN is restarted. -/
theorem not_pauses_stopped :
    ¬ ∀ es, ∀ entry ∈ (session.run es).management.log, ∀ reason,
        entry.action = .pause reason → entry.running = false := by
  intro h
  have hrun : (⟨.pause .userPause, true⟩ : LogEntry) ∈
      (session.run resumedWhileConnected).management.log := by decide
  exact absurd (h _ _ hrun _ rfl) (by decide)

/-- In every state of a run OpenVPN has a release scheduled while it waits and the
    VPN should be connected, exactly when no step of the run is a user who goes on
    with a connected VPN while OpenVPN waits. -/
theorem notStuck_iff (es : List Event) :
    (∀ before after, es = before ++ after →
        (session.run before).shouldBeRunning = true →
        (session.run before).management.mWaitingForRelease = true →
        0 < (session.run before).management.mResumeHoldRunnable) ↔
      ∀ before e after, es = before ++ e :: after →
        ¬ ((e = .userPause false ∧ (session.run before).shouldBeRunning = true) ∧
            (session.run before).management.mWaitingForRelease = true) := by
  have hinit : session.initial.NotStuck := fun h => nomatch h
  exact Machine.everyState_iff (P := NotStuck) hinit notStuck_step es

/-- The same while the release of a hold is scheduled. -/
def resumedDuringHold : List Event :=
  [.constructReceiver, .connectivity (some ⟨1, none, true⟩) true, .hold 10, .userPause false]

/-- OpenVPN waits, the VPN should be connected and nothing is scheduled. -/
theorem not_notStuck :
    ¬ ∀ es, (session.run es).shouldBeRunning = true →
        (session.run es).management.mWaitingForRelease = true →
        0 < (session.run es).management.mResumeHoldRunnable := by
  intro h
  have hposted : 0 < (session.run resumedDuringHold).management.mResumeHoldRunnable :=
    h resumedDuringHold (by decide) (by decide)
  exact absurd hposted (by decide)

end Session

end OpenVpnAndroid
