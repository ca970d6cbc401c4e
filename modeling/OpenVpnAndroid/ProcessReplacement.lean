/-
  OpenVpnAndroid/ProcessReplacement.lean
  ======================================
  **Replacing a running OpenVPN process.**

  `startOpenVPN` runs on one handler thread and asks the old process to end before
  it starts the next one.  The thread of the old process ends whenever its process
  does, and its `finally` block ends the service unless `setReplaceConnection` was
  called for it.  Nothing ever assigns a thread to `mOpenVPNThread`, so that call
  is never made (`never_replaced`).

  The service then stays with the newest process exactly if every earlier thread
  is through with its `finally` block when a process is started, and a start does
  not give up while the newest process runs (`safe_of_orderly`).
-/
import OpenVpnAndroid.Machine

namespace OpenVpnAndroid

/-! ### Threads -/

/-- How far `OpenVPNThread.run` has come. -/
inductive ThreadPhase where
  | running
  /-- the process is over, `mNoProcessExitStatus` has not been read -/
  | exited
  /-- in `openvpnStopped`, before `mProcessThread = null` -/
  | stopping
  /-- in `endVpnService`, behind it -/
  | ending
  | done
deriving DecidableEq, Repr

structure OpenVPNThread where
  phase : ThreadPhase
  mNoProcessExitStatus : Bool
deriving DecidableEq, Repr

/-- How far `startOpenVPN` has come on the command handler. -/
inductive Starter where
  | idle
  /-- in `stopOldOpenVPNProcess` -/
  | stopping
  /-- in `forceStopOpenVpnProcess`, with `mProcessLock` -/
  | forceStopping
  | starting
  /-- writing the configuration to the new process -/
  | configuring
  /-- in `endVpnService`, behind `mProcessThread = null` -/
  | ending
deriving DecidableEq, Repr

/-- The service, its threads in the order of their starts, and a record of which
    thread has run a part of `endVpnService` when how many were started. -/
structure ServiceState where
  mProcessThread : Option Nat
  mOpenVPNThread : Option Nat
  /-- `mManagement != null` -/
  mManagement : Bool
  mStarting : Bool
  /-- `mDeviceStateReceiver != null` -/
  mDeviceStateReceiver : Bool
  /-- the posts that will set it -/
  guiHandler : Nat
  /-- how often `stopForeground` was called -/
  stopForeground : Nat
  starter : Starter
  threads : List OpenVPNThread
  ends : List (Nat × Nat)
deriving DecidableEq, Repr

inductive ServiceEvent where
  /-- a posted `startOpenVPN` begins, with a profile to start -/
  | startOpenVPN
  | forceStopOpenVpnProcess
  | forceStopped
  /-- `openManagementInterface` returns false -/
  | managementFails
  /-- the new management and process threads are started -/
  | startProcess
  /-- `writeConfigFileOutput` throws -/
  | configFails
  | configWritten
  /-- the rest of `endVpnService` for one of the two failures -/
  | giveUp
  /-- the post on the thread of the user interface -/
  | registerReceiver
  /-- the process of thread `t` ends -/
  | exit (t : Nat)
  /-- thread `t` reads `mNoProcessExitStatus` -/
  | readExitStatus (t : Nat)
  /-- thread `t` is in `endVpnService`: first the lock, then the rest -/
  | clearProcessThread (t : Nat)
  | endVpnService (t : Nat)
deriving DecidableEq, Repr

namespace ServiceState

variable (s : ServiceState)

def phase (t : Nat) : Option ThreadPhase := s.threads[t]?.map OpenVPNThread.phase

def setPhase (t : Nat) (phase : ThreadPhase) : ServiceState :=
  { s with threads := s.threads.modify t fun r => { r with phase := phase } }

/-- `setReplaceConnection` for the thread in `mOpenVPNThread`. -/
def setReplaceConnection : ServiceState :=
  match s.mOpenVPNThread with
  | some t =>
      { s with threads := s.threads.modify t fun r => { r with mNoProcessExitStatus := true } }
  | none => s

/-- `mNoProcessExitStatus` of thread `t`. -/
def noProcessExitStatus (t : Nat) : Bool :=
  (s.threads[t]?.map OpenVPNThread.mNoProcessExitStatus).getD false

/-- `endVpnService` behind its lock. -/
def restOfEndVpnService : ServiceState :=
  { s with
    mDeviceStateReceiver := false
    mOpenVPNThread := none
    stopForeground := if s.mStarting then s.stopForeground else s.stopForeground + 1 }

/-- Thread `t` has done a part of `endVpnService`. -/
def recordEnd (t : Nat) : ServiceState := { s with ends := s.ends ++ [(t, s.threads.length)] }

def step : ServiceEvent → ServiceState
  | .startOpenVPN =>
      if s.starter = .idle then
        let s := { s with mStarting := true, starter := .stopping }
        if s.mManagement then s.setReplaceConnection else s
      else s
  | .forceStopOpenVpnProcess =>
      if s.starter = .stopping then { s with starter := .forceStopping } else s
  | .forceStopped =>
      if s.starter = .forceStopping then { s with mStarting := false, starter := .starting } else s
  | .managementFails =>
      if s.starter = .starting then { s with mProcessThread := none, starter := .ending } else s
  | .startProcess =>
      if s.starter = .starting then
        { s with
          mManagement := true
          mProcessThread := some s.threads.length
          starter := .configuring
          threads := s.threads ++ [⟨.running, false⟩] }
      else s
  | .configFails =>
      if s.starter = .configuring then { s with mProcessThread := none, starter := .ending } else s
  | .configWritten =>
      if s.starter = .configuring then { s with guiHandler := s.guiHandler + 1, starter := .idle }
      else s
  | .giveUp =>
      if s.starter = .ending then { s.restOfEndVpnService with starter := .idle } else s
  | .registerReceiver =>
      if 0 < s.guiHandler then
        { s with guiHandler := s.guiHandler - 1, mDeviceStateReceiver := true }
      else s
  | .exit t => if s.phase t = some .running then s.setPhase t .exited else s
  | .readExitStatus t =>
      if s.phase t = some .exited then
        s.setPhase t (if s.noProcessExitStatus t then .done else .stopping)
      else s
  | .clearProcessThread t =>
      -- not while `forceStopOpenVpnProcess` has the lock
      if s.phase t = some .stopping ∧ s.starter ≠ .forceStopping then
        ({ s with mProcessThread := none }.recordEnd t).setPhase t .ending
      else s
  | .endVpnService t =>
      if s.phase t = some .ending then (s.restOfEndVpnService.recordEnd t).setPhase t .done else s

/-- The newest process is running. -/
def NewestRunning : Prop := ∃ t, t + 1 = s.threads.length ∧ s.phase t = some .running

/-- The service is that of the newest process while it runs, and no earlier thread
    has run `endVpnService` since the newest one was started. -/
structure Safe : Prop where
  current : ∀ t, t + 1 = s.threads.length → s.phase t = some .running → s.mProcessThread = some t
  ended : ∀ t started, (t, started) ∈ s.ends → t + 1 = started

/-- The step comes when no thread of an earlier process can come after it. -/
def Orderly : ServiceEvent → Prop
  | .startProcess => s.starter = .starting → ∀ t < s.threads.length, s.phase t = some .done
  | .managementFails => s.starter = .starting → ¬ s.NewestRunning
  | .configFails => s.starter = .configuring → ¬ s.NewestRunning
  | _ => True

end ServiceState

/-- The service starts without a process. -/
def openVPNService : Machine ServiceState ServiceEvent :=
  ⟨⟨none, none, false, false, false, 0, 0, .idle, [], []⟩, ServiceState.step⟩

namespace ServiceState

variable {s s' : ServiceState}

/-! ### Phases -/

theorem phase_lt {t : Nat} {p : ThreadPhase} (h : s.phase t = some p) : t < s.threads.length := by
  rw [phase, Option.map_eq_some_iff] at h
  obtain ⟨r, hr, -⟩ := h
  exact (List.getElem?_eq_some_iff.mp hr).1

theorem exists_phase {t : Nat} (h : t < s.threads.length) : ∃ p, s.phase t = some p :=
  ⟨(s.threads[t]).phase, by rw [phase, List.getElem?_eq_getElem h]; rfl⟩

theorem phase_setPhase {t u : Nat} {p : ThreadPhase} :
    (s.setPhase t p).phase u = if t = u then (s.phase u).map fun _ => p else s.phase u := by
  rw [phase, setPhase, List.getElem?_modify, phase]
  by_cases h : t = u
  · simp [h, Function.comp_def]
  · simp [h]

@[simp] theorem setPhase_self {t : Nat} {p q : ThreadPhase} (h : s.phase t = some q) :
    (s.setPhase t p).phase t = some p := by
  rw [phase_setPhase, if_pos rfl, h]
  rfl

@[simp] theorem length_setPhase {t : Nat} {p : ThreadPhase} :
    (s.setPhase t p).threads.length = s.threads.length :=
  List.length_modify _ _ _

theorem phase_setReplaceConnection {t : Nat} : s.setReplaceConnection.phase t = s.phase t := by
  rw [setReplaceConnection]
  split
  · next u _ =>
      rw [phase, phase, List.getElem?_modify]
      by_cases h : u = t <;> simp [h, Function.comp_def]
  · rfl

theorem length_setReplaceConnection :
    s.setReplaceConnection.threads.length = s.threads.length := by
  rw [setReplaceConnection]
  split
  · exact List.length_modify _ _ _
  · rfl

/-! ### Orderly steps -/

/-- Only the newest thread can still do anything. -/
structure Replaced (s : ServiceState) : Prop extends Safe s where
  quiet : ∀ t, t + 1 < s.threads.length → s.phase t = some .done

/-- The thread of a phase other than the last one is the newest. -/
theorem Replaced.newest (h : s.Replaced) {t : Nat} {p : ThreadPhase} (ht : s.phase t = some p)
    (hp : p ≠ .done) : t + 1 = s.threads.length := by
  have hlt : t < s.threads.length := phase_lt ht
  by_contra hne
  have hdone := h.quiet t (by omega)
  rw [ht] at hdone
  exact hp (Option.some.inj hdone)

/-- A step of the starter that starts no process. -/
theorem Replaced.of_phases (h : s.Replaced) (hphase : ∀ t, s'.phase t = s.phase t)
    (hlength : s'.threads.length = s.threads.length) (hends : s'.ends = s.ends)
    (hcurrent : s'.mProcessThread = s.mProcessThread ∨ ¬ s.NewestRunning) : s'.Replaced := by
  constructor
  · constructor
    · intro t hnewest hrunning
      rw [hlength] at hnewest
      rw [hphase] at hrunning
      rcases hcurrent with hsame | hno
      · rw [hsame]
        exact h.current t hnewest hrunning
      · exact absurd ⟨t, hnewest, hrunning⟩ hno
    · rw [hends]
      exact h.ended
  · intro t ht
    rw [hlength] at ht
    rw [hphase]
    exact h.quiet t ht

/-- A step of the newest thread, out of its process. -/
theorem Replaced.of_newest (h : s.Replaced) {t : Nat} {p q : ThreadPhase}
    (ht : s.phase t = some p) (hp : p ≠ .done) (hq : q ≠ .running)
    (hthreads : s'.threads = (s.setPhase t q).threads)
    (hends : s'.ends = s.ends ∨ s'.ends = s.ends ++ [(t, s.threads.length)]) : s'.Replaced := by
  have hnewest : t + 1 = s.threads.length := h.newest ht hp
  have hphase : ∀ u, s'.phase u = (s.setPhase t q).phase u := by
    intro u
    rw [phase, phase, hthreads]
  have hlength : s'.threads.length = s.threads.length := by rw [hthreads, length_setPhase]
  constructor
  · constructor
    · intro u hu hrunning
      obtain rfl : u = t := by omega
      rw [hphase, setPhase_self ht] at hrunning
      exact absurd (Option.some.inj hrunning) hq
    · intro u started hmem
      rcases hends with hends | hends
      · exact h.ended u started (hends ▸ hmem)
      · rw [hends, List.mem_append, List.mem_singleton, Prod.mk.injEq] at hmem
        rcases hmem with hmem | ⟨rfl, rfl⟩
        · exact h.ended u started hmem
        · exact hnewest
  · intro u hu
    rw [hlength] at hu
    rw [hphase, phase_setPhase, if_neg (by omega)]
    exact h.quiet u hu

theorem Replaced.startProcess (h : s.Replaced)
    (hdone : ∀ t < s.threads.length, s.phase t = some .done)
    (hthreads : s'.threads = s.threads ++ [⟨.running, false⟩])
    (hprocess : s'.mProcessThread = some s.threads.length) (hends : s'.ends = s.ends) :
    s'.Replaced := by
  have hlength : s'.threads.length = s.threads.length + 1 := by rw [hthreads]; simp
  constructor
  · constructor
    · intro t hnewest _
      rw [hprocess]
      congr 1
      omega
    · rw [hends]
      exact h.ended
  · intro t ht
    have hlt : t < s.threads.length := by omega
    rw [phase, hthreads, List.getElem?_append_left hlt]
    exact hdone t hlt

theorem replaced_step (e : ServiceEvent) (h : s.Replaced) (horderly : s.Orderly e) :
    (s.step e).Replaced := by
  cases e with
  | startOpenVPN =>
      rw [step]
      split
      · dsimp only
        split
        · apply h.of_phases
          · intro t
            exact phase_setReplaceConnection
          · exact length_setReplaceConnection
          · rw [setReplaceConnection]
            split <;> rfl
          · left
            rw [setReplaceConnection]
            split <;> rfl
        · exact h.of_phases (fun _ => rfl) rfl rfl (.inl rfl)
      · exact h
  | forceStopOpenVpnProcess | forceStopped | configWritten | giveUp | registerReceiver =>
      rw [step]
      split
      · exact h.of_phases (fun _ => rfl) rfl rfl (.inl rfl)
      · exact h
  | managementFails | configFails =>
      rw [step]
      split
      · next hstarter => exact h.of_phases (fun _ => rfl) rfl rfl (.inr (horderly hstarter))
      · exact h
  | startProcess =>
      rw [step]
      split
      · next hstarter => exact h.startProcess (horderly hstarter) rfl rfl rfl
      · exact h
  | exit t =>
      rw [step]
      split
      · next ht => exact h.of_newest ht (by decide) (by decide) rfl (.inl rfl)
      · exact h
  | readExitStatus t =>
      rw [step]
      split
      · next ht =>
          refine h.of_newest ht (by decide) ?_ rfl (.inl rfl)
          split <;> decide
      · exact h
  | clearProcessThread t =>
      rw [step]
      split
      · next ht => exact h.of_newest ht.1 (by decide) (by decide) rfl (.inr rfl)
      · exact h
  | endVpnService t =>
      rw [step]
      split
      · next ht => exact h.of_newest ht (by decide) (by decide) rfl (.inr rfl)
      · exact h

/-- In a run of orderly steps every state is safe. -/
theorem replaced_run {es : List ServiceEvent} (h : openVPNService.EveryStep Orderly es) :
    (openVPNService.run es).Replaced := by
  induction es using List.reverseRecOn with
  | nil =>
      constructor
      · constructor
        · intro t ht
          cases ht
        · intro t started hmem
          cases hmem
      · intro t ht
        cases ht
  | append_singleton es e ih =>
      rw [Machine.run_append_singleton]
      apply replaced_step
      · apply ih
        intro before e' after heq
        exact h before e' (after ++ [e]) (by rw [heq, List.append_assoc]; rfl)
      · exact h es e [] rfl

/-! ### The flag that is never set -/

/-- No thread is asked not to end the service. -/
structure NeverReplaced (s : ServiceState) : Prop where
  mOpenVPNThread : s.mOpenVPNThread = none
  flags : ∀ t, s.noProcessExitStatus t = false

theorem noProcessExitStatus_setPhase {t u : Nat} {p : ThreadPhase} :
    (s.setPhase t p).noProcessExitStatus u = s.noProcessExitStatus u := by
  rw [noProcessExitStatus, setPhase, List.getElem?_modify, noProcessExitStatus]
  by_cases h : t = u <;> simp [h, Function.comp_def]

theorem NeverReplaced.of_flags (h : s.NeverReplaced) (hthread : s'.mOpenVPNThread = none)
    (hflags : ∀ t, s'.noProcessExitStatus t = s.noProcessExitStatus t) : s'.NeverReplaced :=
  ⟨hthread, fun t => (hflags t).trans (h.flags t)⟩

theorem neverReplaced_step (e : ServiceEvent) (h : s.NeverReplaced) : (s.step e).NeverReplaced := by
  obtain hthread := h.mOpenVPNThread
  cases e with
  | startOpenVPN =>
      rw [step]
      split
      · dsimp only
        split
        · rw [setReplaceConnection]
          split
          · next hsome =>
              rw [hthread] at hsome
              cases hsome
          · exact h.of_flags hthread fun _ => rfl
        · exact h.of_flags hthread fun _ => rfl
      · exact h
  | forceStopOpenVpnProcess | forceStopped | configWritten | registerReceiver | managementFails
  | configFails =>
      rw [step]
      split
      · exact h.of_flags hthread fun _ => rfl
      · exact h
  | giveUp =>
      rw [step]
      split
      · exact h.of_flags rfl fun _ => rfl
      · exact h
  | startProcess =>
      rw [step]
      split
      · refine ⟨hthread, fun t => ?_⟩
        have hflag : s.noProcessExitStatus t = false := h.flags t
        rw [noProcessExitStatus] at hflag ⊢
        dsimp only
        rw [List.getElem?_append]
        split
        · exact hflag
        · cases t - s.threads.length <;> rfl
      · exact h
  | exit t | readExitStatus t | clearProcessThread t =>
      rw [step]
      split
      · exact h.of_flags hthread fun _ => noProcessExitStatus_setPhase
      · exact h
  | endVpnService t =>
      rw [step]
      split
      · exact h.of_flags rfl fun _ => noProcessExitStatus_setPhase
      · exact h

/-- `setReplaceConnection` is never called. -/
theorem never_replaced (es : List ServiceEvent) : (openVPNService.run es).NeverReplaced := by
  induction es using List.reverseRecOn with
  | nil => exact ⟨rfl, fun _ => rfl⟩
  | append_singleton es e ih =>
      rw [Machine.run_append_singleton]
      exact neverReplaced_step e ih

/-! ### Late ends -/

/-- The steps can come that make a state unsafe. -/
def Endangered (s : ServiceState) : Prop := ∃ more, ¬ (openVPNService.runFrom s more).Safe

theorem endangered_of_step (e : ServiceEvent) (h : (s.step e).Endangered) : s.Endangered := by
  obtain ⟨more, hmore⟩ := h
  exact ⟨e :: more, hmore⟩

theorem endangered_of_unsafe (h : ¬ s.Safe) : s.Endangered := ⟨[], h⟩

/-- A recorded end of an earlier thread. -/
theorem not_safe_of_end {t : Nat} (h : (t, s.threads.length) ∈ s.ends)
    (ht : t + 1 < s.threads.length) : ¬ s.Safe := by
  intro hsafe
  exact Nat.ne_of_lt ht (hsafe.ended t _ h)

theorem endangered_ending {t : Nat} (hphase : s.phase t = some .ending)
    (ht : t + 1 < s.threads.length) : s.Endangered := by
  apply endangered_of_step (.endVpnService t)
  apply endangered_of_unsafe
  rw [step, if_pos hphase]
  apply not_safe_of_end (t := t)
  · rw [length_setPhase]
    exact List.mem_append_right _ (List.mem_singleton_self _)
  · rw [length_setPhase]
    exact ht

theorem endangered_stopping {t : Nat} (hphase : s.phase t = some .stopping)
    (hlock : s.starter ≠ .forceStopping) (ht : t + 1 < s.threads.length) : s.Endangered := by
  apply endangered_of_step (.clearProcessThread t)
  apply endangered_ending (t := t)
  · rw [step, if_pos ⟨hphase, hlock⟩]
    exact setPhase_self hphase
  · rw [step, if_pos ⟨hphase, hlock⟩, length_setPhase]
    exact ht

theorem endangered_exited {t : Nat} (hphase : s.phase t = some .exited)
    (hflag : s.noProcessExitStatus t = false) (hlock : s.starter ≠ .forceStopping)
    (ht : t + 1 < s.threads.length) : s.Endangered := by
  have hstep : s.step (.readExitStatus t) = s.setPhase t .stopping := by
    rw [step, if_pos hphase, hflag, if_neg Bool.false_ne_true]
  apply endangered_of_step (.readExitStatus t)
  rw [hstep]
  apply endangered_stopping (setPhase_self hphase) hlock
  rw [length_setPhase]
  exact ht

/-- Whatever an earlier thread is doing, it can still end the service. -/
theorem endangered_of_not_done {t : Nat} (hphase : s.phase t ≠ some .done)
    (hflag : s.noProcessExitStatus t = false) (hlock : s.starter ≠ .forceStopping)
    (ht : t + 1 < s.threads.length) : s.Endangered := by
  obtain ⟨p, hp⟩ := exists_phase (Nat.lt_of_succ_lt ht)
  cases p with
  | done => exact absurd hp hphase
  | ending => exact endangered_ending hp ht
  | stopping => exact endangered_stopping hp hlock ht
  | exited => exact endangered_exited hp hflag hlock ht
  | running =>
      have hstep : s.step (.exit t) = s.setPhase t .exited := by rw [step, if_pos hp]
      apply endangered_of_step (.exit t)
      rw [hstep]
      apply endangered_exited (setPhase_self hp)
      · rw [noProcessExitStatus_setPhase]
        exact hflag
      · exact hlock
      · rw [length_setPhase]
        exact ht

/-- Giving up while the newest process runs forgets it. -/
theorem not_safe_of_newestRunning (hrunning : s.NewestRunning) (hprocess : s.mProcessThread = none) :
    ¬ s.Safe := by
  obtain ⟨t, hnewest, ht⟩ := hrunning
  intro hsafe
  have hcurrent := hsafe.current t hnewest ht
  rw [hprocess] at hcurrent
  cases hcurrent

/-- A step that is not orderly leads to an unsafe state. -/
theorem endangered_step {e : ServiceEvent} (h : s.NeverReplaced) (horderly : ¬ s.Orderly e) :
    (s.step e).Endangered := by
  cases e with
  | startProcess =>
      obtain ⟨hstarter, hthreads⟩ := Classical.not_imp.mp horderly
      obtain ⟨t, ht⟩ := not_forall.mp hthreads
      obtain ⟨hlt, hphase⟩ := Classical.not_imp.mp ht
      have hflag := (neverReplaced_step .startProcess h).flags t
      rw [step, if_pos hstarter] at hflag ⊢
      apply endangered_of_not_done (t := t) _ hflag fun hlock => nomatch hlock
      · dsimp only
        rw [List.length_append]
        exact Nat.succ_lt_succ hlt
      · rw [phase] at hphase ⊢
        dsimp only
        rwa [List.getElem?_append_left hlt]
  | managementFails | configFails =>
      obtain ⟨hstarter, hrunning⟩ := Classical.not_imp.mp horderly
      rw [step, if_pos hstarter]
      apply endangered_of_unsafe
      exact not_safe_of_newestRunning (not_not.mp hrunning) rfl
  | _ => exact absurd trivial horderly

/-- Every state of a run is safe if its steps are orderly, and after a step that is
    not orderly the run can be continued to a state that is not safe. -/
theorem safe_of_orderly (es : List ServiceEvent) :
    ((∀ before e after, es = before ++ e :: after → (openVPNService.run before).Orderly e) →
        ∀ before after, es = before ++ after → (openVPNService.run before).Safe) ∧
      ∀ e, ¬ (openVPNService.run es).Orderly e →
        ∃ more, ¬ (openVPNService.run (es ++ e :: more)).Safe := by
  constructor
  · intro h before after heq
    apply Replaced.toSafe
    apply replaced_run
    intro before' e after' hbefore
    exact h before' e (after' ++ after) (by rw [heq, hbefore, List.append_assoc]; rfl)
  · intro e horderly
    obtain ⟨more, hmore⟩ := endangered_step (never_replaced es) horderly
    refine ⟨more, ?_⟩
    rw [Machine.run_append]
    exact hmore

/-- The second process is started before the thread of the first one has ended. -/
def lateExit : List ServiceEvent :=
  [.startOpenVPN, .forceStopOpenVpnProcess, .forceStopped, .startProcess, .configWritten,
    .startOpenVPN, .forceStopOpenVpnProcess, .forceStopped, .startProcess, .configWritten,
    .exit 0, .readExitStatus 0, .clearProcessThread 0]

/-- The new process runs and the service has forgotten it. -/
theorem not_safe : ¬ ∀ es, (openVPNService.run es).Safe := by
  intro h
  have hcurrent := (h lateExit).current 1 (by decide) (by decide)
  exact absurd hcurrent (by decide)

end ServiceState

end OpenVpnAndroid
