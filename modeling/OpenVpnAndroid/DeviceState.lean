/-
  OpenVpnAndroid/DeviceState.lean
  ===============================
  **`DeviceStateReceiver` and `OpenVpnManagementThread` as one machine.**

  The receiver turns broadcasts, byte counts and calls of the user interface
  into calls of the management thread; the thread answers OpenVPN and asks the
  receiver, through the pause callback, whether the VPN should be running.  An
  event is one handler, run to its end.

  A `Handler` is the number of times a runnable is posted on it: `postDelayed`
  adds one, `removeCallbacks` removes them all, and a posted runnable may run
  at any later step.
-/
import OpenVpnAndroid.JavaText
import OpenVpnAndroid.Machine

namespace OpenVpnAndroid

/-! ### The management thread -/

inductive PauseReason where
  | noNetwork
  | userPause
  | screenOff
deriving DecidableEq, Repr

/-- The lines that the thread writes on the management socket here. -/
inductive Command where
  | holdRelease
  | bytecount
  | stateOn
  | networkChange (samenetwork : Bool)
  | signalSIGUSR1
deriving DecidableEq, Repr

/-- The text of a line; `mBytecountInterval` is 2. -/
def Command.line : Command → String
  | .holdRelease => "hold release\n"
  | .bytecount => "bytecount 2\n"
  | .stateOn => "state on\n"
  | .networkChange true => "network-change samenetwork\n"
  | .networkChange false => "network-change\n"
  | .signalSIGUSR1 => "signal SIGUSR1\n"

theorem Command.line_injective : Function.Injective Command.line := by
  intro c d h
  rcases c with _ | _ | _ | (_ | _) | _ <;> rcases d with _ | _ | _ | (_ | _) | _ <;>
    first | rfl | exact absurd h (by decide)

/-- What the thread does that others see. -/
inductive Action where
  /-- `managmentCommand` -/
  | command (cmd : Command)
  /-- `VpnStatus.updateStatePause` -/
  | updateStatePause (reason : PauseReason)
  /-- a call of `pause` that the thread received -/
  | pause (reason : PauseReason)
deriving DecidableEq, Repr

/-- An action and the answer of `shouldBeRunning()` at that moment. -/
structure LogEntry where
  action : Action
  running : Bool
deriving DecidableEq, Repr

structure OpenVpnManagementThread where
  mWaitingForRelease : Bool
  lastPauseReason : PauseReason
  /-- how often `mResumeHoldRunnable` is posted -/
  mResumeHoldRunnable : Nat
  log : List LogEntry
deriving DecidableEq, Repr

namespace OpenVpnManagementThread

/-- The fields as the class initialises them. -/
def init : OpenVpnManagementThread := ⟨false, .noNetwork, 0, []⟩

section Handlers

-- `running` is the answer of `shouldBeRunning()` while the handler runs.
variable (running : Bool) (m : OpenVpnManagementThread)

def record (action : Action) : OpenVpnManagementThread :=
  { m with log := m.log ++ [⟨action, running⟩] }

def managmentCommand (cmd : Command) : OpenVpnManagementThread := m.record running (.command cmd)

/-- The pause of three seconds between two releases is not modelled. -/
def releaseHoldCmd : OpenVpnManagementThread :=
  let m := { m with mResumeHoldRunnable := 0, mWaitingForRelease := false }
  ((m.managmentCommand running .holdRelease).managmentCommand running .bytecount).managmentCommand
    running .stateOn

def releaseHold : OpenVpnManagementThread :=
  if m.mWaitingForRelease then m.releaseHoldCmd running else m

/-- `>HOLD:Waiting for hold release:n`.  The number `n` delays the runnable. -/
def handleHold : OpenVpnManagementThread :=
  let m := { m with mWaitingForRelease := true }
  if running then { m with mResumeHoldRunnable := m.mResumeHoldRunnable + 1 }
  else m.record running (.updateStatePause m.lastPauseReason)

/-- `mResumeHoldRunnable.run()`, for one of the posted runnables. -/
def runResumeHoldRunnable : OpenVpnManagementThread :=
  match m.mResumeHoldRunnable with
  | 0 => m
  | n + 1 =>
      let m := { m with mResumeHoldRunnable := n }
      if running then m.releaseHoldCmd running else m

def networkChange (samenetwork : Bool) : OpenVpnManagementThread :=
  if m.mWaitingForRelease then m.releaseHold running
  else m.managmentCommand running (.networkChange samenetwork)

def signalusr1 : OpenVpnManagementThread :=
  let m := { m with mResumeHoldRunnable := 0 }
  if !m.mWaitingForRelease then m.managmentCommand running .signalSIGUSR1
  else m.record running (.updateStatePause m.lastPauseReason)

def reconnect : OpenVpnManagementThread := (m.signalusr1 running).releaseHold running

def pause (reason : PauseReason) : OpenVpnManagementThread :=
  let m := m.record running (.pause reason)
  { m with lastPauseReason := reason }.signalusr1 running

def resume : OpenVpnManagementThread :=
  { m.releaseHold running with lastPauseReason := .noNetwork }

end Handlers

/-! ### The log -/

variable {running : Bool} {m : OpenVpnManagementThread}

/-- What holds of the log, and of the entry that is added to it. -/
theorem forall_mem_record {P : LogEntry → Prop} {action : Action} :
    (∀ entry ∈ (m.record running action).log, P entry) ↔
      (∀ entry ∈ m.log, P entry) ∧ P ⟨action, running⟩ := by
  simp only [record, List.mem_append, List.mem_singleton]
  constructor
  · intro h
    exact ⟨fun entry hentry => h entry (.inl hentry), h ⟨action, running⟩ (.inr rfl)⟩
  · rintro ⟨hm, hlast⟩ entry (hentry | rfl)
    · exact hm entry hentry
    · exact hlast

/-! ### The hold after each handler -/

@[simp] theorem releaseHoldCmd_waiting : (m.releaseHoldCmd running).mWaitingForRelease = false := rfl

@[simp] theorem releaseHoldCmd_runnable : (m.releaseHoldCmd running).mResumeHoldRunnable = 0 := rfl

@[simp] theorem releaseHold_waiting : (m.releaseHold running).mWaitingForRelease = false := by
  by_cases h : m.mWaitingForRelease = true <;> simp [releaseHold, h]

@[simp] theorem resume_waiting : (m.resume running).mWaitingForRelease = false :=
  releaseHold_waiting

@[simp] theorem reconnect_waiting : (m.reconnect running).mWaitingForRelease = false :=
  releaseHold_waiting

@[simp] theorem networkChange_waiting {same : Bool} :
    (m.networkChange running same).mWaitingForRelease = false := by
  by_cases h : m.mWaitingForRelease = true
  · simp [networkChange, h]
  · simp [networkChange, managmentCommand, record, h]

@[simp] theorem signalusr1_waiting :
    (m.signalusr1 running).mWaitingForRelease = m.mWaitingForRelease := by
  by_cases h : m.mWaitingForRelease = true <;>
    simp [signalusr1, managmentCommand, record, h]

/-- The runnable is out of the queue. -/
@[simp] theorem signalusr1_runnable : (m.signalusr1 running).mResumeHoldRunnable = 0 := by
  by_cases h : m.mWaitingForRelease = true <;>
    simp [signalusr1, managmentCommand, record, h]

@[simp] theorem pause_waiting {reason : PauseReason} :
    (m.pause running reason).mWaitingForRelease = m.mWaitingForRelease :=
  signalusr1_waiting

@[simp] theorem pause_runnable {reason : PauseReason} :
    (m.pause running reason).mResumeHoldRunnable = 0 :=
  signalusr1_runnable

@[simp] theorem handleHold_waiting : (m.handleHold running).mWaitingForRelease = true := by
  cases running <;> rfl

end OpenVpnManagementThread

/-! ### The receiver -/

inductive ConnectState where
  | shouldbeconnected
  | pendingdisconnect
  | disconnected
deriving DecidableEq, Repr

structure Datapoint where
  timestamp : Int
  data : Int
deriving DecidableEq, Repr

/-- `NetworkInfo`, as far as it decides something; `connected` is
    `getState() == State.CONNECTED`. -/
structure NetworkInfo where
  type : Int
  extraInfo : Option Text
  connected : Bool
deriving DecidableEq, Repr

structure DeviceStateReceiver where
  network : ConnectState
  screen : ConnectState
  userpause : ConnectState
  lastConnectedNetwork : Option NetworkInfo
  trafficdata : List Datapoint
  /-- how often `mDelayDisconnectRunnable` is posted -/
  mDelayDisconnectRunnable : Nat
deriving DecidableEq, Repr

namespace DeviceStateReceiver

/-- The fields as the class initialises them. -/
def init : DeviceStateReceiver := ⟨.disconnected, .shouldbeconnected, .shouldbeconnected, none, [], 0⟩

/-- Window time in ms. -/
def TRAFFIC_WINDOW : Int := 60 * 1000

/-- Data traffic limit in bytes. -/
def TRAFFIC_LIMIT : Int := 64 * 1024

variable (d : DeviceStateReceiver)

def shouldBeConnected : Bool :=
  d.screen == .shouldbeconnected && d.userpause == .shouldbeconnected
    && d.network == .shouldbeconnected

def getPauseReason : PauseReason :=
  if d.userpause = .disconnected then .userPause
  else if d.screen = .disconnected then .screenOff
  else if d.network = .disconnected then .noNetwork
  else .userPause

def fillTrafficData (now : Int) : DeviceStateReceiver :=
  { d with trafficdata := d.trafficdata ++ [⟨now, TRAFFIC_LIMIT⟩] }

/-- The networks have the same type and the same extra info. -/
def sameNetwork (networkInfo : NetworkInfo) : Bool :=
  match d.lastConnectedNetwork with
  | none => false
  | some last => last.type == networkInfo.type && last.extraInfo == networkInfo.extraInfo

/-- The `while` loop of `updateByteCount`; `clock n` is the time it reads in its
    round `n`.  `none` is the exception of `getFirst` on the empty list. -/
def removeOld (clock : Nat → Int) (n : Nat) : List Datapoint → Option (List Datapoint)
  | [] => none
  | p :: ps =>
      if p.timestamp ≤ long (clock n - TRAFFIC_WINDOW) then removeOld clock (n + 1) ps
      else some (p :: ps)

def windowtraffic (ps : List Datapoint) : Int := ps.foldl (fun sum p => long (sum + p.data)) 0

end DeviceStateReceiver

/-! ### The two together -/

/-- A management thread and, once its constructor has run, the receiver that is
    its pause callback. -/
structure Session where
  receiver : Option DeviceStateReceiver
  management : OpenVpnManagementThread
deriving DecidableEq, Repr

/-- One handler, with the values it reads from outside. -/
inductive Event where
  /-- `new DeviceStateReceiver(mManagement)`, which sets the pause callback -/
  | constructReceiver
  /-- `networkStateChange`, with the active network and `netchangereconnect` -/
  | connectivity (networkInfo : Option NetworkInfo) (sendusr1 : Bool)
  /-- `ACTION_SCREEN_OFF`, with the preference `screenoff` -/
  | screenOff (screenOffPause : Bool) (now : Int)
  | screenOn
  | userPause (pause : Bool)
  /-- with the time of the new data point and the times the loop reads -/
  | updateByteCount (diffIn diffOut now : Int) (clock : Nat → Int)
  /-- a posted `mDelayDisconnectRunnable` runs -/
  | delayDisconnect
  /-- `>HOLD:` from OpenVPN -/
  | hold (waittime : Int)
  /-- a posted `mResumeHoldRunnable` runs -/
  | resumeHold
  /-- the method of `OpenVPNManagement`, called from elsewhere -/
  | networkChange (samenetwork : Bool)

namespace DeviceStateReceiver

open ConnectState

-- `d` is `this` and `m` is `mManagement`.
variable (d : DeviceStateReceiver) (m : OpenVpnManagementThread)

/-- `mManagement.pause(getPauseReason())` -/
def callPause : Session := ⟨some d, m.pause d.shouldBeConnected d.getPauseReason⟩

/-- `mManagement.resume()` -/
def callResume : Session := ⟨some d, m.resume d.shouldBeConnected⟩

/-- `mManagement.networkChange(samenetwork)` -/
def callNetworkChange (samenetwork : Bool) : Session :=
  ⟨some d, m.networkChange d.shouldBeConnected samenetwork⟩

/-- `mDelayDisconnectRunnable.run()`, for one of the posted runnables. -/
def runDelayDisconnectRunnable : Session :=
  match d.mDelayDisconnectRunnable with
  | 0 => ⟨some d, m⟩
  | n + 1 =>
      let d := { d with mDelayDisconnectRunnable := n }
      if d.network ≠ pendingdisconnect then ⟨some d, m⟩
      else
        let d := { d with network := disconnected }
        let d := if d.screen = pendingdisconnect then { d with screen := disconnected } else d
        d.callPause m

def updateByteCount (diffIn diffOut now : Int) (clock : Nat → Int) : Session :=
  if d.screen ≠ pendingdisconnect then ⟨some d, m⟩
  else
    let total := long (diffIn + diffOut)
    match removeOld clock 0 (d.trafficdata ++ [⟨now, total⟩]) with
    | none => ⟨some { d with trafficdata := [] }, m⟩
    | some trafficdata =>
        let d := { d with trafficdata := trafficdata }
        if windowtraffic trafficdata < TRAFFIC_LIMIT then
          { d with screen := disconnected }.callPause m
        else ⟨some d, m⟩

def userPause (pause : Bool) : Session :=
  if pause then { d with userpause := disconnected }.callPause m
  else
    let wereConnected := d.shouldBeConnected
    let d := { d with userpause := shouldbeconnected }
    if d.shouldBeConnected && !wereConnected then d.callResume m
    -- update the reason why we are currently paused
    else d.callPause m

def screenOff (screenOffPause : Bool) (now : Int) : Session :=
  if screenOffPause then
    let d := { d with screen := pendingdisconnect }.fillTrafficData now
    if d.network = disconnected ∨ d.userpause = disconnected then
      ⟨some { d with screen := disconnected }, m⟩
    else ⟨some d, m⟩
  else ⟨some d, m⟩

def screenOn : Session :=
  let connected := d.shouldBeConnected
  let d := { d with screen := shouldbeconnected, mDelayDisconnectRunnable := 0 }
  if d.shouldBeConnected != connected then d.callResume m
  else if !d.shouldBeConnected then d.callPause m
  else ⟨some d, m⟩

/-- The branch of `networkStateChange` for a different network or a connection
    that is not established anymore. -/
def otherNetwork (networkInfo : NetworkInfo) (pendingDisconnect sameNetwork : Bool) : Session :=
  let d := { d with
    screen := if d.screen = pendingdisconnect then disconnected else d.screen
    lastConnectedNetwork := some networkInfo }
  if d.shouldBeConnected then
    let d := { d with mDelayDisconnectRunnable := 0 }
    if pendingDisconnect || !sameNetwork then d.callNetworkChange m sameNetwork
    else d.callResume m
  else ⟨some d, m⟩

/-- `networkStateChange`, after it has read the active network and the
    preference. -/
def networkStateChange (networkInfo : Option NetworkInfo) (sendusr1 : Bool) : Session :=
  match networkInfo with
  | none =>
      if sendusr1 then
        ⟨some { d with
          network := pendingdisconnect
          mDelayDisconnectRunnable := d.mDelayDisconnectRunnable + 1 }, m⟩
      else ⟨some d, m⟩
  | some networkInfo =>
      if networkInfo.connected then
        let pendingDisconnect := d.network == pendingdisconnect
        let sameNetwork := d.sameNetwork networkInfo
        let d := { d with network := shouldbeconnected }
        -- same network, connection still established
        if pendingDisconnect && sameNetwork then
          { d with mDelayDisconnectRunnable := 0 }.callNetworkChange m true
        else d.otherNetwork m networkInfo pendingDisconnect sameNetwork
      else ⟨some d, m⟩

/-- Turning the screen on removes the timer and leaves the network. -/
theorem screenOn_receiver : (d.screenOn m).receiver =
    some { d with screen := shouldbeconnected, mDelayDisconnectRunnable := 0 } := by
  rw [screenOn]
  split
  · rfl
  · split <;> rfl

end DeviceStateReceiver

namespace Session

/-- `shouldBeRunning` of the thread: false as long as there is no callback. -/
def shouldBeRunning (s : Session) : Bool :=
  match s.receiver with
  | none => false
  | some d => d.shouldBeConnected

/-- One event.  The handlers of the receiver do nothing before it exists. -/
def step (s : Session) : Event → Session
  | .constructReceiver => { s with receiver := some (s.receiver.getD .init) }
  | .hold _ => { s with management := s.management.handleHold s.shouldBeRunning }
  | .resumeHold => { s with management := s.management.runResumeHoldRunnable s.shouldBeRunning }
  | .networkChange same =>
      { s with management := s.management.networkChange s.shouldBeRunning same }
  | .connectivity networkInfo sendusr1 =>
      s.receiver.elim s fun d => d.networkStateChange s.management networkInfo sendusr1
  | .screenOff screenOffPause now =>
      s.receiver.elim s fun d => d.screenOff s.management screenOffPause now
  | .screenOn => s.receiver.elim s fun d => d.screenOn s.management
  | .userPause pause => s.receiver.elim s fun d => d.userPause s.management pause
  | .updateByteCount diffIn diffOut now clock =>
      s.receiver.elim s fun d => d.updateByteCount s.management diffIn diffOut now clock
  | .delayDisconnect => s.receiver.elim s fun d => d.runDelayDisconnectRunnable s.management

end Session

/-- The management thread starts alone; its receiver is constructed later. -/
def session : Machine Session Event := ⟨⟨none, .init⟩, Session.step⟩

end OpenVpnAndroid
