/-
  OpenVpnAndroid/HoldAnswer.lean
  ==============================
  **Each `hold release` answers a hold.**

  The management thread alone, under any sequence of calls and with any answers
  of its pause callback.  A thread that waits owes OpenVPN one release; the sum of
  the releases sent and the one owed is at most the number of holds received
  (`owed_run`).  The delayed runnable releases the hold without asking whether
  there is one, so the bound needs that a posted runnable means an unanswered
  hold (`pendingWaits_run`).
-/
import OpenVpnAndroid.DeviceState

namespace OpenVpnAndroid

/-- A call that the thread receives: a message, an expiry or a method. -/
inductive ManagementCall where
  /-- `>HOLD:Waiting for hold release:waittime` -/
  | hold (waittime : Int)
  | resumeHold
  | pause (reason : PauseReason)
  | resume
  | reconnect
  | networkChange (samenetwork : Bool)
  | signalusr1
deriving DecidableEq, Repr

def ManagementCall.isHold : ManagementCall → Bool
  | .hold _ => true
  | _ => false

namespace OpenVpnManagementThread

/-- A call, with the answer of the pause callback during it. -/
def step (m : OpenVpnManagementThread) : ManagementCall × Bool → OpenVpnManagementThread
  | (.hold _, running) => m.handleHold running
  | (.resumeHold, running) => m.runResumeHoldRunnable running
  | (.pause reason, running) => m.pause running reason
  | (.resume, running) => m.resume running
  | (.reconnect, running) => m.reconnect running
  | (.networkChange samenetwork, running) => m.networkChange running samenetwork
  | (.signalusr1, running) => m.signalusr1 running

/-- How often `hold release` was sent. -/
def releases (m : OpenVpnManagementThread) : Nat :=
  m.log.countP fun entry => entry.action = .command .holdRelease

/-- The releases sent and the one that an open hold asks for. -/
def owed (m : OpenVpnManagementThread) : Nat := m.releases + m.mWaitingForRelease.toNat

/-- A posted runnable has a hold to release. -/
def PendingWaits (m : OpenVpnManagementThread) : Prop :=
  0 < m.mResumeHoldRunnable → m.mWaitingForRelease = true

variable {running : Bool} {m : OpenVpnManagementThread}

/-! ### Releases -/

theorem releases_record {action : Action} :
    (m.record running action).releases =
      m.releases + if action = .command .holdRelease then 1 else 0 := by
  simp [releases, record, List.countP_append, List.countP_singleton]

@[simp] theorem releases_releaseHoldCmd : (m.releaseHoldCmd running).releases = m.releases + 1 := by
  simp only [releaseHoldCmd, managmentCommand, releases_record, if_true, Action.command.injEq,
    reduceCtorEq, if_false]
  rfl

@[simp] theorem releases_releaseHold :
    (m.releaseHold running).releases = m.releases + m.mWaitingForRelease.toNat := by
  by_cases h : m.mWaitingForRelease = true <;> simp [releaseHold, h]

@[simp] theorem releases_resume :
    (m.resume running).releases = m.releases + m.mWaitingForRelease.toNat :=
  releases_releaseHold

@[simp] theorem releases_networkChange {same : Bool} :
    (m.networkChange running same).releases = m.releases + m.mWaitingForRelease.toNat := by
  by_cases h : m.mWaitingForRelease = true
  · simp [networkChange, h]
  · simp [networkChange, managmentCommand, releases_record, h]

@[simp] theorem releases_signalusr1 : (m.signalusr1 running).releases = m.releases := by
  by_cases h : m.mWaitingForRelease = true
  · simp only [signalusr1, h, Bool.not_true, Bool.false_eq_true, if_false, releases_record,
      reduceCtorEq]
    rfl
  · simp only [signalusr1, h, Bool.not_false, if_true, managmentCommand, releases_record,
      Action.command.injEq, reduceCtorEq, if_false]
    rfl

@[simp] theorem releases_pause {reason : PauseReason} :
    (m.pause running reason).releases = m.releases := by
  rw [pause, releases_signalusr1]
  exact releases_record

@[simp] theorem releases_reconnect :
    (m.reconnect running).releases = m.releases + m.mWaitingForRelease.toNat := by
  rw [reconnect, releases_releaseHold, releases_signalusr1, signalusr1_waiting]

@[simp] theorem releases_handleHold : (m.handleHold running).releases = m.releases := by
  cases running with
  | true => rfl
  | false => exact releases_record

/-- The runnable takes it for granted that there is a hold. -/
theorem releases_runResumeHoldRunnable (h : m.PendingWaits) :
    (m.runResumeHoldRunnable running).releases ≤ m.releases + m.mWaitingForRelease.toNat := by
  rcases m with ⟨waiting, reason, _ | posted, log⟩
  · exact Nat.le_add_right _ _
  · cases running with
    | true =>
        obtain rfl : waiting = true := h (Nat.succ_pos posted)
        exact (releases_releaseHoldCmd).le
    | false => exact Nat.le_add_right _ _

/-! ### One call -/

/-- The release of a call answers the hold that is open before it. -/
theorem releases_step (h : m.PendingWaits) (call : ManagementCall) (running : Bool) :
    (m.step (call, running)).releases ≤ m.releases + m.mWaitingForRelease.toNat := by
  cases call with
  | hold waittime => exact (releases_handleHold.trans_le (Nat.le_add_right _ _))
  | resumeHold => exact releases_runResumeHoldRunnable h
  | pause reason => exact (releases_pause.trans_le (Nat.le_add_right _ _))
  | resume => exact releases_resume.le
  | reconnect => exact releases_reconnect.le
  | networkChange samenetwork => exact releases_networkChange.le
  | signalusr1 => exact (releases_signalusr1.trans_le (Nat.le_add_right _ _))

theorem pendingWaits_of_waiting (h : m.mWaitingForRelease = true) : m.PendingWaits := fun _ => h

theorem pendingWaits_of_not_posted (h : m.mResumeHoldRunnable = 0) : m.PendingWaits :=
  fun hposted => absurd h hposted.ne'

theorem pendingWaits_releaseHold (h : m.PendingWaits) : (m.releaseHold running).PendingWaits := by
  rw [releaseHold]
  split
  · exact pendingWaits_of_not_posted rfl
  · exact h

theorem pendingWaits_networkChange (h : m.PendingWaits) {same : Bool} :
    (m.networkChange running same).PendingWaits := by
  rw [networkChange]
  split
  · exact pendingWaits_releaseHold h
  · exact h

theorem pendingWaits_runResumeHoldRunnable (h : m.PendingWaits) :
    (m.runResumeHoldRunnable running).PendingWaits := by
  rcases m with ⟨waiting, reason, _ | posted, log⟩
  · exact h
  · cases running with
    | true => exact pendingWaits_of_not_posted rfl
    | false => exact fun _ => h (Nat.succ_pos posted)

theorem pendingWaits_step (h : m.PendingWaits) (call : ManagementCall) (running : Bool) :
    (m.step (call, running)).PendingWaits := by
  cases call with
  | hold waittime => exact pendingWaits_of_waiting handleHold_waiting
  | resumeHold => exact pendingWaits_runResumeHoldRunnable h
  | pause reason => exact pendingWaits_of_not_posted pause_runnable
  | resume => exact pendingWaits_releaseHold h
  | reconnect => exact pendingWaits_releaseHold (pendingWaits_of_not_posted signalusr1_runnable)
  | networkChange samenetwork => exact pendingWaits_networkChange h
  | signalusr1 => exact pendingWaits_of_not_posted signalusr1_runnable

theorem owed_of_not_waiting (h : m.mWaitingForRelease = false) : m.owed = m.releases := by
  rw [owed, h]
  rfl

theorem owed_handleHold : (m.handleHold running).owed ≤ m.owed + 1 := by
  rw [owed, releases_handleHold, handleHold_waiting]
  exact Nat.add_le_add_right (Nat.le_add_right _ _) 1

theorem owed_signalusr1 : (m.signalusr1 running).owed = m.owed := by
  rw [owed, releases_signalusr1, signalusr1_waiting, owed]

theorem owed_pause {reason : PauseReason} : (m.pause running reason).owed = m.owed := by
  rw [owed, releases_pause, pause_waiting, owed]

theorem owed_runResumeHoldRunnable (h : m.PendingWaits) :
    (m.runResumeHoldRunnable running).owed ≤ m.owed := by
  rcases m with ⟨waiting, reason, _ | posted, log⟩
  · exact Nat.le_refl _
  · cases running with
    | true =>
        have hreleases :
            (runResumeHoldRunnable true ⟨waiting, reason, posted + 1, log⟩).releases ≤ _ :=
          releases_runResumeHoldRunnable h
        exact (owed_of_not_waiting releaseHoldCmd_waiting).trans_le hreleases
    | false => exact Nat.le_refl _

/-- Only a hold makes the thread owe one release more. -/
theorem owed_step (h : m.PendingWaits) (call : ManagementCall) (running : Bool) :
    (m.step (call, running)).owed ≤ m.owed + call.isHold.toNat := by
  cases call with
  | hold waittime => exact owed_handleHold
  | resumeHold => exact owed_runResumeHoldRunnable h
  | pause reason => exact owed_pause.le
  | resume => exact (owed_of_not_waiting resume_waiting).trans_le releases_resume.le
  | reconnect => exact (owed_of_not_waiting reconnect_waiting).trans_le releases_reconnect.le
  | networkChange samenetwork =>
      exact (owed_of_not_waiting networkChange_waiting).trans_le releases_networkChange.le
  | signalusr1 => exact owed_signalusr1.le

end OpenVpnManagementThread

/-! ### Runs -/

/-- The thread with its calls in any order. -/
def managementThread : Machine OpenVpnManagementThread (ManagementCall × Bool) :=
  ⟨.init, OpenVpnManagementThread.step⟩

/-- How many `>HOLD` messages were received. -/
def holds (calls : List (ManagementCall × Bool)) : Nat := calls.countP fun call => call.1.isHold

namespace OpenVpnManagementThread

/-- What holds of the thread after any calls. -/
theorem owed_run (calls : List (ManagementCall × Bool)) :
    (managementThread.run calls).PendingWaits ∧
      (managementThread.run calls).owed ≤ holds calls := by
  induction calls using List.reverseRecOn with
  | nil => exact ⟨pendingWaits_of_not_posted rfl, Nat.le_refl 0⟩
  | append_singleton calls call ih =>
      obtain ⟨hpending, howed⟩ := ih
      have hholds : holds (calls ++ [call]) = holds calls + call.1.isHold.toNat := by
        cases h : call.1.isHold <;> simp [holds, h]
      rw [Machine.run_append_singleton, hholds]
      constructor
      · exact pendingWaits_step hpending call.1 call.2
      · exact (owed_step hpending call.1 call.2).trans (Nat.add_le_add_right howed _)

/-- In every run a posted runnable means that OpenVPN waits, a call sends
    `hold release` only if OpenVPN waited, and there are never more releases than
    holds. -/
theorem holdRelease_answers (calls : List (ManagementCall × Bool)) :
    (0 < (managementThread.run calls).mResumeHoldRunnable →
        (managementThread.run calls).mWaitingForRelease = true) ∧
      (∀ call, (managementThread.run calls).releases <
          (managementThread.run (calls ++ [call])).releases →
        (managementThread.run calls).mWaitingForRelease = true) ∧
      ∀ before after, calls = before ++ after →
        (managementThread.run before).releases ≤ holds before := by
  refine ⟨(owed_run calls).1, ?_, ?_⟩
  · rintro ⟨call, running⟩ hsent
    rw [Machine.run_append_singleton] at hsent
    have hanswered := releases_step (owed_run calls).1 call running
    by_contra hwaiting
    rw [Bool.eq_false_iff.mpr hwaiting] at hanswered
    exact absurd hsent hanswered.not_gt
  · intro before after _
    exact (Nat.le_add_right _ _).trans (owed_run before).2

end OpenVpnManagementThread

end OpenVpnAndroid
