/-
  OpenVpnAndroid/TrafficWindow.lean
  =================================
  **When does low traffic pause the VPN?**

  Turning the screen off puts one data point of 64 KiB into the list of
  `updateByteCount`.  The list holds what lies in the window of 60 seconds
  (`removeOld_run`), so there is no pause while that point is in the window.  The list
  is never cleared when the screen goes on, and points that were left in it only make a
  pause later.

  The sum of the window is a `long`, and so is the beginning of the window.  As long as
  neither wraps around no pause is early (`lowTrafficPause_late`).
-/
import OpenVpnAndroid.DeviceState

namespace OpenVpnAndroid

open ConnectState DeviceStateReceiver

/-! ### A list that is sorted by time -/

/-- From a sorted list the loop takes what is too old. -/
theorem dropWhile_le_eq_filter {α : Type*} {time : α → Int} {ps : List α}
    (h : (ps.map time).Pairwise (· ≤ ·)) (bound : Int) :
    ps.dropWhile (fun p => decide (time p ≤ bound)) =
      ps.filter fun p => decide (bound < time p) := by
  induction ps with
  | nil => rfl
  | cons p ps ih =>
      rw [List.map_cons, List.pairwise_cons] at h
      by_cases hp : time p ≤ bound
      · rw [List.dropWhile_cons_of_pos (by simpa using hp),
          List.filter_cons_of_neg (by simpa using hp)]
        exact ih h.2
      · rw [List.dropWhile_cons_of_neg (by simpa using hp), Eq.comm, List.filter_eq_self]
        intro q hq
        have hle : time p ≤ time q := by
          rcases List.mem_cons.mp hq with rfl | hq
          · exact le_rfl
          · exact h.1 _ (List.mem_map_of_mem hq)
        exact decide_eq_true (by omega)

namespace Datapoint

/-- The point with its data as a `long`. -/
def wrapped (p : Datapoint) : Datapoint := { p with data := long p.data }

def total (ps : List Datapoint) : Int := (ps.map Datapoint.data).sum

/-- The points in the 60 seconds up to `t`. -/
def window (t : Int) (ps : List Datapoint) : List Datapoint :=
  ps.filter fun p => decide (t - TRAFFIC_WINDOW < p.timestamp) && decide (p.timestamp ≤ t)

theorem mem_window {t : Int} {ps : List Datapoint} {p : Datapoint} :
    p ∈ window t ps ↔ p ∈ ps ∧ t - TRAFFIC_WINDOW < p.timestamp ∧ p.timestamp ≤ t := by
  simp [window]

theorem long_add_long (a b : Int) : long (long a + long b) = long (a + b) := by
  rw [long, long, long, long, Int.bmod_add_bmod, Int.add_bmod_bmod]

/-- The sum of the loop wraps around, whatever wrapped around before. -/
theorem windowtraffic_map_wrapped (ps : List Datapoint) :
    windowtraffic (ps.map wrapped) = long (total ps) := by
  have hfold : ∀ (ps : List Datapoint) (a : Int),
      (ps.map wrapped).foldl (fun sum p => long (sum + p.data)) (long a) =
        long (a + total ps) := by
    intro ps
    induction ps with
    | nil => intro a; simp [total]
    | cons p ps ih =>
        intro a
        rw [List.map_cons, List.foldl_cons, wrapped, long_add_long, ih]
        simp [total, add_assoc]
  have h := hfold ps 0
  rwa [zero_add] at h

end Datapoint

open Datapoint

/-! ### What the list is given -/

/-- The time that the handler reads. -/
def Event.time : Event → Option Int
  | .screenOff true now => some now
  | .updateByteCount _ _ now _ => some now
  | _ => none

namespace Session

variable (s : Session)

/-- The screen state is `PENDINGDISCONNECT`. -/
def screenPending : Bool :=
  match s.receiver with
  | none => false
  | some d => d.screen == pendingdisconnect

def trafficdata : List Datapoint :=
  match s.receiver with
  | none => []
  | some d => d.trafficdata

/-- The byte difference that a call reports while the screen state is
    `PENDINGDISCONNECT`. -/
def reported : Event → List Datapoint
  | .updateByteCount diffIn diffOut now _ =>
      if s.screenPending then [⟨now, diffIn + diffOut⟩] else []
  | _ => []

/-- The point of a `SCREEN_OFF` that is handled. -/
def filled : Event → List Datapoint
  | .screenOff true now => if s.receiver.isSome then [⟨now, TRAFFIC_LIMIT⟩] else []
  | _ => []

def added (e : Event) : List Datapoint := s.reported e ++ s.filled e

end Session

namespace DeviceStateReceiver

variable {d : DeviceStateReceiver} {m : OpenVpnManagementThread}

/-- The handler leaves the list alone, and does not begin to wait for low traffic. -/
def KeepsTraffic (d : DeviceStateReceiver) (s : Session) : Prop :=
  s.trafficdata = d.trafficdata ∧ (s.screenPending = true → d.screen = pendingdisconnect)

theorem keepsTraffic_some (d' : DeviceStateReceiver) (m' : OpenVpnManagementThread)
    (hdata : d'.trafficdata = d.trafficdata)
    (hscreen : d'.screen = pendingdisconnect → d.screen = pendingdisconnect) :
    d.KeepsTraffic ⟨some d', m'⟩ :=
  ⟨hdata, fun h => hscreen (beq_iff_eq.mp h)⟩

theorem keepsTraffic_self : d.KeepsTraffic ⟨some d, m⟩ := keepsTraffic_some d m rfl id

theorem keepsTraffic_runDelayDisconnectRunnable :
    d.KeepsTraffic (d.runDelayDisconnectRunnable m) := by
  rw [runDelayDisconnectRunnable]
  split
  · exact keepsTraffic_self
  · dsimp only
    split_ifs with hnetwork hscreen
    · exact keepsTraffic_some _ _ rfl id
    · exact keepsTraffic_some _ _ rfl fun h => by cases h
    · exact keepsTraffic_some _ _ rfl id

theorem keepsTraffic_userPause {pause : Bool} : d.KeepsTraffic (d.userPause m pause) := by
  rw [userPause]
  dsimp only
  split_ifs <;> exact keepsTraffic_some _ _ rfl id

theorem keepsTraffic_otherNetwork {info : NetworkInfo} {pending same : Bool} :
    d.KeepsTraffic (d.otherNetwork m info pending same) := by
  have hscreen : (if d.screen = pendingdisconnect then disconnected else d.screen) =
      pendingdisconnect → d.screen = pendingdisconnect := by
    split_ifs with h
    · exact fun _ => h
    · exact id
  rw [otherNetwork]
  generalize (if d.screen = pendingdisconnect then disconnected else d.screen) = screen
    at hscreen ⊢
  dsimp only
  split_ifs <;> exact keepsTraffic_some _ _ rfl hscreen

theorem keepsTraffic_networkStateChange {networkInfo : Option NetworkInfo} {sendusr1 : Bool} :
    d.KeepsTraffic (d.networkStateChange m networkInfo sendusr1) := by
  cases networkInfo with
  | none =>
      rw [networkStateChange]
      split_ifs <;> exact keepsTraffic_some _ _ rfl id
  | some info =>
      rw [networkStateChange]
      dsimp only
      split_ifs
      · exact keepsTraffic_some _ _ rfl id
      · exact @keepsTraffic_otherNetwork { d with network := shouldbeconnected } m _ _ _
      · exact keepsTraffic_self

/-- The loop with a clock that stands still. -/
theorem removeOld_const (t : Int) (n : Nat) (ps : List Datapoint) :
    removeOld (fun _ => t) n ps =
      match ps.dropWhile (fun p => decide (p.timestamp ≤ long (t - TRAFFIC_WINDOW))) with
      | [] => none
      | q :: qs => some (q :: qs) := by
  induction ps generalizing n with
  | nil => rfl
  | cons p ps ih =>
      by_cases hp : p.timestamp ≤ long (t - TRAFFIC_WINDOW)
      · rw [removeOld, if_pos hp, ih, List.dropWhile_cons_of_pos (by simpa using hp)]
      · rw [removeOld, if_neg hp, List.dropWhile_cons_of_neg (by simpa using hp)]

/-- A call while the screen state is `PENDINGDISCONNECT`, with such a clock. -/
theorem trafficdata_updateByteCount (hscreen : d.screen = pendingdisconnect)
    (diffIn diffOut t : Int) :
    (d.updateByteCount m diffIn diffOut t fun _ => t).trafficdata =
      (d.trafficdata ++ [Datapoint.mk t (long (diffIn + diffOut))]).dropWhile
        fun p => decide (p.timestamp ≤ long (t - TRAFFIC_WINDOW)) := by
  rw [updateByteCount, if_neg (not_not.mpr hscreen)]
  dsimp only
  rw [removeOld_const]
  generalize (d.trafficdata ++ [Datapoint.mk t (long (diffIn + diffOut))]).dropWhile _ = rest
  cases rest with
  | nil => rfl
  | cons q qs =>
      dsimp only
      split_ifs <;> rfl

end DeviceStateReceiver

/-! ### One step -/

/-- The clock reads the same within the handler. -/
def Event.Steady : Event → Prop
  | .updateByteCount _ _ now clock => ∀ n, clock n = now
  | _ => True

namespace Session

variable {s : Session}

/-- What a step takes from the list, after it has added its points. -/
def Expires (s : Session) (e : Event) (old : List Datapoint) : Prop :=
  s.trafficdata ++ (s.added e).map wrapped = old ++ (s.step e).trafficdata ∧
    ∀ p ∈ old, ∃ t ∈ e.time, p.timestamp ≤ long (t - TRAFFIC_WINDOW)

theorem expires_nil {e : Event} (hadded : s.added e = [])
    (hdata : (s.step e).trafficdata = s.trafficdata) : s.Expires e [] :=
  ⟨by rw [hadded, hdata, List.map_nil, List.append_nil, List.nil_append], fun _ h => nomatch h⟩

theorem exists_expires (s : Session) {e : Event} (he : e.Steady) : ∃ old, s.Expires e old := by
  rcases s with ⟨_ | d, m⟩
  · refine ⟨[], expires_nil ?_ ?_⟩
    · cases e <;> simp [added, reported, filled, screenPending]
      rename_i screenOffPause now
      cases screenOffPause <;> rfl
    · cases e <;> rfl
  cases e with
  | constructReceiver | hold _ | resumeHold | networkChange _ => exact ⟨[], expires_nil rfl rfl⟩
  | connectivity networkInfo sendusr1 =>
      exact ⟨[], expires_nil rfl keepsTraffic_networkStateChange.1⟩
  | userPause pause => exact ⟨[], expires_nil rfl keepsTraffic_userPause.1⟩
  | delayDisconnect => exact ⟨[], expires_nil rfl keepsTraffic_runDelayDisconnectRunnable.1⟩
  | screenOn =>
      refine ⟨[], expires_nil rfl ?_⟩
      rw [trafficdata, step, Option.elim, screenOn_receiver]
      rfl
  | screenOff screenOffPause now =>
      cases screenOffPause with
      | false => exact ⟨[], expires_nil rfl rfl⟩
      | true =>
          refine ⟨[], ?_, fun _ h => nomatch h⟩
          have hlimit : wrapped ⟨now, TRAFFIC_LIMIT⟩ = ⟨now, TRAFFIC_LIMIT⟩ := by
            have hlong : long TRAFFIC_LIMIT = TRAFFIC_LIMIT := by decide
            rw [wrapped, hlong]
          simp only [added, reported, filled, Option.isSome_some, if_true, List.nil_append,
            List.map_cons, List.map_nil, hlimit, step, Option.elim, screenOff]
          split_ifs <;> rfl
  | updateByteCount diffIn diffOut now clock =>
      obtain rfl : clock = fun _ => now := funext he
      by_cases hscreen : d.screen = pendingdisconnect
      · refine ⟨(d.trafficdata ++ [Datapoint.mk now (long (diffIn + diffOut))]).takeWhile
          fun p => decide (p.timestamp ≤ long (now - TRAFFIC_WINDOW)), ?_, fun p hp => ?_⟩
        · have hstep := @trafficdata_updateByteCount d m hscreen diffIn diffOut now
          simp only [step, Option.elim, hstep, List.takeWhile_append_dropWhile]
          simp [added, reported, filled, screenPending, hscreen, wrapped, trafficdata]
        · exact ⟨now, rfl, by simpa using List.mem_takeWhile_imp hp⟩
      · refine ⟨[], expires_nil ?_ ?_⟩
        · simp [added, reported, filled, screenPending, hscreen]
        · rw [step, Option.elim, updateByteCount, if_pos hscreen]

/-- The screen state is `PENDINGDISCONNECT` since the last `SCREEN_OFF`. -/
theorem screenPending_step {e : Event} (h : (s.step e).screenPending = true) :
    ((∃ t, e = .screenOff true t) ∧ s.receiver.isSome = true) ∨
      s.screenPending = true ∧ e ≠ .screenOn ∧ ∀ t, e ≠ .screenOff true t := by
  rcases s with ⟨_ | d, m⟩
  · cases e <;> simp [step, screenPending, DeviceStateReceiver.init] at h
  have hkeep : ∀ {s' : Session}, d.KeepsTraffic s' → s'.screenPending = true →
      (Session.mk (some d) m).screenPending = true :=
    fun hkeeps h => beq_iff_eq.mpr (hkeeps.2 h)
  cases e with
  | constructReceiver | hold _ | resumeHold | networkChange _ =>
      exact Or.inr ⟨h, by simp, by simp⟩
  | connectivity networkInfo sendusr1 =>
      exact Or.inr ⟨hkeep keepsTraffic_networkStateChange h, by simp, by simp⟩
  | userPause pause => exact Or.inr ⟨hkeep keepsTraffic_userPause h, by simp, by simp⟩
  | delayDisconnect =>
      exact Or.inr ⟨hkeep keepsTraffic_runDelayDisconnectRunnable h, by simp, by simp⟩
  | screenOn =>
      rw [screenPending, step, Option.elim, screenOn_receiver] at h
      cases h
  | screenOff screenOffPause now =>
      cases screenOffPause with
      | false => exact Or.inr ⟨h, by simp, by simp⟩
      | true => exact Or.inl ⟨⟨now, rfl⟩, rfl⟩
  | updateByteCount diffIn diffOut now clock =>
      refine Or.inr ⟨?_, by simp, by simp⟩
      by_contra hscreen
      have hnot : d.screen ≠ pendingdisconnect := by simpa [screenPending] using hscreen
      rw [step, Option.elim, updateByteCount, if_pos hnot] at h
      exact hscreen h

end Session

/-! ### Runs -/

/-- The clock does not go back and reads the same within a handler; its readings are
    `long` values. -/
structure Clocked (es : List Event) : Prop where
  monotone : (es.filterMap Event.time).Pairwise (· ≤ ·)
  steady : ∀ e ∈ es, e.Steady
  range : ∀ t ∈ es.filterMap Event.time, -2 ^ 63 ≤ t ∧ t < 2 ^ 63

def NonNegative (es : List Event) : Prop :=
  ∀ diffIn diffOut now clock, Event.updateByteCount diffIn diffOut now clock ∈ es →
    0 ≤ diffIn ∧ 0 ≤ diffOut

/-- The beginning of the window is a `long`. -/
def WindowFits (es : List Event) : Prop :=
  ∀ t ∈ es.filterMap Event.time, -2 ^ 63 + TRAFFIC_WINDOW ≤ t

theorem filterMap_time_append (es : List Event) (e : Event) :
    (es ++ [e]).filterMap Event.time = es.filterMap Event.time ++ e.time.toList := by
  rw [List.filterMap_append]
  cases h : e.time <;> simp [h]

theorem Clocked.init {es : List Event} {e : Event} (h : Clocked (es ++ [e])) : Clocked es := by
  obtain ⟨hmonotone, hsteady, hrange⟩ := h
  rw [filterMap_time_append] at hmonotone hrange
  refine ⟨(List.pairwise_append.mp hmonotone).1, fun e' he' => ?_, fun t ht => ?_⟩
  · exact hsteady e' (List.mem_append_left _ he')
  · exact hrange t (List.mem_append_left _ ht)

theorem WindowFits.init {es : List Event} {e : Event} (h : WindowFits (es ++ [e])) :
    WindowFits es := by
  intro t ht
  refine h t ?_
  rw [filterMap_time_append]
  exact List.mem_append_left _ ht

/-- The beginning of the window does not wrap around. -/
theorem long_sub_window {es : List Event} (hclock : Clocked es) (hwindow : WindowFits es)
    {t : Int} (ht : t ∈ es.filterMap Event.time) :
    long (t - TRAFFIC_WINDOW) = t - TRAFFIC_WINDOW := by
  have hlow := hwindow t ht
  have hhigh := (hclock.range t ht).2
  have hpos : 0 ≤ TRAFFIC_WINDOW := by decide
  exact long_of_range (by omega) (by omega)

/-- A point has the time of its step. -/
theorem times_added (es : List Event) :
    ((session.outputs Session.added es).map Datapoint.timestamp).Sublist
      (es.filterMap Event.time) := by
  have hstep : ∀ (s : Session) (e : Event),
      ((s.added e).map Datapoint.timestamp).Sublist e.time.toList := by
    intro s e
    rw [Session.added, Session.reported.eq_def, Session.filled.eq_def]
    split <;> split <;> (try split) <;> simp_all [Event.time]
  induction es using List.reverseRecOn with
  | nil => exact List.Sublist.refl []
  | append_singleton es e ih =>
      rw [Machine.outputs_append_singleton, List.map_append, filterMap_time_append]
      exact ih.append (hstep _ e)

/-- The list of the receiver has all the points but some that have left the window. -/
theorem trafficdata_run (es : List Event) (hclock : Clocked es) (hwindow : WindowFits es) :
    ∃ old new, session.outputs Session.added es = old ++ new ∧
      (session.run es).trafficdata = new.map wrapped ∧
      ∀ p ∈ old, ∃ t ∈ es.filterMap Event.time, p.timestamp ≤ t - TRAFFIC_WINDOW := by
  induction es using List.reverseRecOn with
  | nil => exact ⟨[], [], rfl, rfl, fun _ h => nomatch h⟩
  | append_singleton es e ih =>
      obtain ⟨old, new, hadded, hdata, hold⟩ := ih hclock.init hwindow.init
      obtain ⟨expired, hexpires, hexpired⟩ :=
        Session.exists_expires (session.run es) (hclock.steady e (by simp))
      rw [hdata, ← List.map_append, List.map_eq_append_iff] at hexpires
      obtain ⟨expired', new', hnew, rfl, hnew'⟩ := hexpires
      refine ⟨old ++ expired', new', ?_, ?_, fun p hp => ?_⟩
      · rw [Machine.outputs_append_singleton, hadded, List.append_assoc, List.append_assoc, hnew]
      · rw [Machine.run_append_singleton]
        exact hnew'.symm
      · rw [filterMap_time_append]
        rcases List.mem_append.mp hp with hp | hp
        · obtain ⟨t, ht, hle⟩ := hold p hp
          exact ⟨t, List.mem_append_left _ ht, hle⟩
        · obtain ⟨t, ht, hle⟩ := hexpired _ (List.mem_map_of_mem hp)
          have hmem : t ∈ es.filterMap Event.time ++ e.time.toList :=
            List.mem_append_right _ (Option.mem_toList.mpr ht)
          rw [← filterMap_time_append] at hmem
          rw [long_sub_window hclock hwindow hmem] at hle
          rw [← filterMap_time_append]
          exact ⟨t, hmem, hle⟩

/-! ### One call of `updateByteCount` -/

section Call

variable {before : List Event} {diffIn diffOut t : Int} {clock : Nat → Int}
  {d : DeviceStateReceiver}

theorem outputs_added_call (hd : (session.run before).receiver = some d)
    (hscreen : d.screen = pendingdisconnect) :
    session.outputs Session.added (before ++ [.updateByteCount diffIn diffOut t clock]) =
      session.outputs Session.added before ++ [Datapoint.mk t (diffIn + diffOut)] := by
  have hpoint : (session.run before).added (.updateByteCount diffIn diffOut t clock) =
      [Datapoint.mk t (diffIn + diffOut)] := by
    simp [Session.added, Session.reported, Session.filled, Session.screenPending, hd, hscreen]
  rw [Machine.outputs_append_singleton, hpoint]

/-- No point is later than the call. -/
theorem timestamp_le_call
    (hclock : Clocked (before ++ [.updateByteCount diffIn diffOut t clock])) :
    (∀ t' ∈ before.filterMap Event.time, t' ≤ t) ∧
      ∀ p ∈ session.outputs Session.added before, p.timestamp ≤ t := by
  have hmonotone := hclock.monotone
  rw [filterMap_time_append, List.pairwise_append] at hmonotone
  have hlast : ∀ t' ∈ before.filterMap Event.time, t' ≤ t :=
    fun t' ht' => hmonotone.2.2 t' ht' t (by simp [Event.time])
  refine ⟨hlast, fun p hp => hlast _ ((times_added before).subset ?_)⟩
  exact List.mem_map_of_mem hp

/-- The points that the receiver still has, and the point of the call, are sorted, and the
    window is among them. -/
theorem window_added
    (hclock : Clocked (before ++ [.updateByteCount diffIn diffOut t clock]))
    (hwindow : WindowFits (before ++ [.updateByteCount diffIn diffOut t clock]))
    (hd : (session.run before).receiver = some d) (hscreen : d.screen = pendingdisconnect) :
    ∃ new, d.trafficdata = new.map wrapped ∧
      ((new ++ [Datapoint.mk t (diffIn + diffOut)]).map Datapoint.timestamp).Pairwise (· ≤ ·) ∧
      window t (session.outputs Session.added
          (before ++ [.updateByteCount diffIn diffOut t clock])) =
        (new ++ [Datapoint.mk t (diffIn + diffOut)]).filter
          fun p => decide (t - TRAFFIC_WINDOW < p.timestamp) := by
  obtain ⟨old, new, hadded, hdata, hold⟩ := trafficdata_run before hclock.init hwindow.init
  obtain ⟨hlast, hle⟩ := timestamp_le_call hclock
  have hsublist := times_added (before ++ [.updateByteCount diffIn diffOut t clock])
  rw [outputs_added_call hd hscreen, hadded, List.append_assoc] at hsublist ⊢
  rw [Session.trafficdata, hd] at hdata
  refine ⟨new, hdata, ?_, ?_⟩
  · rw [List.map_append] at hsublist
    exact hclock.monotone.sublist ((List.sublist_append_right _ _).trans hsublist)
  · have hgone : window t old = [] := by
      rw [List.eq_nil_iff_forall_not_mem]
      intro p hp
      obtain ⟨hp, hlow, -⟩ := mem_window.mp hp
      obtain ⟨t', ht', hexpired⟩ := hold p hp
      have := hlast t' ht'
      omega
    rw [window, List.filter_append, ← window, hgone, List.nil_append]
    refine List.filter_congr fun p hp => ?_
    have hpt : p.timestamp ≤ t := by
      rcases List.mem_append.mp hp with hp | hp
      · exact hle p (by rw [hadded]; exact List.mem_append_right _ hp)
      · rw [List.mem_singleton.mp hp]
    rw [decide_eq_true hpt, Bool.and_true]

/-- What the loop leaves is the window, with the point of the call itself. -/
theorem removeOld_run
    (hclock : Clocked (before ++ [.updateByteCount diffIn diffOut t clock]))
    (hwindow : WindowFits (before ++ [.updateByteCount diffIn diffOut t clock]))
    (hd : (session.run before).receiver = some d) (hscreen : d.screen = pendingdisconnect) :
    removeOld clock 0 (d.trafficdata ++ [⟨t, long (diffIn + diffOut)⟩]) =
      some ((window t (session.outputs Session.added
        (before ++ [.updateByteCount diffIn diffOut t clock]))).map wrapped) := by
  obtain ⟨new, hdata, hsorted, hpoints⟩ := window_added hclock hwindow hd hscreen
  have hsteady : clock = fun _ => t :=
    funext (hclock.steady (.updateByteCount diffIn diffOut t clock) (by simp))
  have hmem : t ∈ (before ++ [Event.updateByteCount diffIn diffOut t clock]).filterMap
      Event.time := by
    rw [filterMap_time_append]
    exact List.mem_append_right _ (by simp [Event.time])
  have hdrop : (d.trafficdata ++ [Datapoint.mk t (long (diffIn + diffOut))]).dropWhile
      (fun p => decide (p.timestamp ≤ long (t - TRAFFIC_WINDOW))) =
        ((new ++ [Datapoint.mk t (diffIn + diffOut)]).filter
          fun p => decide (t - TRAFFIC_WINDOW < p.timestamp)).map wrapped := by
    have hlist : d.trafficdata ++ [Datapoint.mk t (long (diffIn + diffOut))] =
        (new ++ [Datapoint.mk t (diffIn + diffOut)]).map wrapped := by
      rw [hdata, List.map_append]
      rfl
    rw [← dropWhile_le_eq_filter hsorted, long_sub_window hclock hwindow hmem, hlist,
      List.dropWhile_map]
    rfl
  rw [hpoints, hsteady, removeOld_const, hdrop]
  have hself : t - TRAFFIC_WINDOW < t := by
    have : 0 < TRAFFIC_WINDOW := by decide
    omega
  rw [List.filter_append, List.filter_cons_of_pos (by simpa using hself)]
  generalize new.filter _ = kept
  cases kept <;> rfl

end Call

/-! ### Pauses -/

namespace Session

/-- `getFirst` is called on the empty list. -/
def FindsEmpty (s : Session) : Event → Prop
  | .updateByteCount diffIn diffOut now clock => ∃ d ∈ s.receiver,
      d.screen = pendingdisconnect ∧
        removeOld clock 0 (d.trafficdata ++ [⟨now, long (diffIn + diffOut)⟩]) = none
  | _ => False

/-- The step calls `pause`. -/
def Pauses (s : Session) (e : Event) : Prop :=
  ∃ reason running rest,
    (s.step e).management.log = s.management.log ++ ⟨.pause reason, running⟩ :: rest

/-- A call that pauses has found little traffic. -/
theorem lowTraffic_of_pauses {d : DeviceStateReceiver} {m : OpenVpnManagementThread}
    {diffIn diffOut t : Int} {clock : Nat → Int}
    (h : (Session.mk (some d) m).Pauses (.updateByteCount diffIn diffOut t clock)) :
    d.screen = pendingdisconnect ∧ ∀ rest,
      removeOld clock 0 (d.trafficdata ++ [⟨t, long (diffIn + diffOut)⟩]) = some rest →
        windowtraffic rest < TRAFFIC_LIMIT := by
  obtain ⟨reason, running, log, hlog⟩ := h
  have hgrows : m.log ≠ m.log ++ ⟨.pause reason, running⟩ :: log := by simp
  by_cases hscreen : d.screen = pendingdisconnect
  · refine ⟨hscreen, fun rest hrest => ?_⟩
    by_contra hlimit
    rw [step, Option.elim, updateByteCount, if_neg (not_not.mpr hscreen)] at hlog
    simp only [hrest, if_neg hlimit] at hlog
    exact hgrows hlog
  · rw [step, Option.elim, updateByteCount, if_pos hscreen] at hlog
    exact absurd hlog hgrows

end Session

/-- The last `SCREEN_OFF` with the option was handled at `latest` or before, and no
    `SCREEN_ON` since. -/
def ScreenOffSince (before : List Event) (latest : Int) : Prop :=
  ∃ earlier t later, before = earlier ++ .screenOff true t :: later ∧
    (session.run earlier).receiver.isSome = true ∧ t ≤ latest ∧
    ∀ e ∈ later, e ≠ .screenOn ∧ ∀ t', e ≠ .screenOff true t'

theorem data_nonneg {es : List Event} (hbytes : NonNegative es) :
    ∀ p ∈ session.outputs Session.added es, 0 ≤ p.data := by
  refine Machine.forall_mem_outputs fun s e he p hp => ?_
  rcases List.mem_append.mp hp with hp | hp
  · rw [Session.reported.eq_def] at hp
    split at hp
    · obtain ⟨hin, hout⟩ := hbytes _ _ _ _ he
      split at hp
      · rw [List.mem_singleton.mp hp]
        exact Int.add_nonneg hin hout
      · cases hp
    · cases hp
  · rw [Session.filled.eq_def] at hp
    split at hp
    · split at hp
      · rw [List.mem_singleton.mp hp]
        exact (by decide : (0 : Int) ≤ TRAFFIC_LIMIT)
      · cases hp
    · cases hp

/-- With a sum that fits there is no early pause. -/
theorem screenOffSince_of_total {before : List Event} {t : Int} {points : List Datapoint}
    (hpending : (session.run before).screenPending = true)
    (hpoints : session.outputs Session.added before ⊆ points)
    (hle : ∀ p ∈ session.outputs Session.added before, p.timestamp ≤ t)
    (hnonneg : ∀ p ∈ points, 0 ≤ p.data) (hlimit : total (window t points) < TRAFFIC_LIMIT) :
    ScreenOffSince before (t - TRAFFIC_WINDOW) := by
  obtain ⟨earlier, e, later, rfl, ⟨⟨t', rfl⟩, hsome⟩, hlater⟩ :=
    @Machine.given _ _ session (fun s => s.screenPending = true)
      (fun s e => (∃ t, e = .screenOff true t) ∧ s.receiver.isSome = true)
      (fun e => e ≠ .screenOn ∧ ∀ t, e ≠ .screenOff true t)
      (by decide) (fun s e => Session.screenPending_step) before hpending
  refine ⟨earlier, t', later, rfl, hsome, ?_, hlater⟩
  by_contra hearly
  have hfilled : (⟨t', TRAFFIC_LIMIT⟩ : Datapoint) ∈
      (session.run earlier).added (.screenOff true t') := by
    simp [Session.added, Session.reported, Session.filled, hsome]
  have hadded := Machine.mem_outputs hfilled later
  have hmem : (⟨t', TRAFFIC_LIMIT⟩ : Datapoint) ∈ window t points :=
    mem_window.mpr ⟨hpoints hadded, by simpa using hearly, hle _ hadded⟩
  have hsum : TRAFFIC_LIMIT ≤ total (window t points) := by
    refine List.single_le_sum (fun x hx => ?_) _ (List.mem_map_of_mem hmem)
    obtain ⟨p, hp, rfl⟩ := List.mem_map.mp hx
    exact hnonneg p (mem_window.mp hp).1
  omega

/-- What was reported is at most what was added. -/
theorem total_reported_le {es : List Event} (hbytes : NonNegative es) (t : Int) :
    total (window t (session.outputs Session.reported es)) ≤
      total (window t (session.outputs Session.added es)) := by
  have hsublist : (session.outputs Session.reported es).Sublist
      (session.outputs Session.added es) :=
    Machine.outputs_sublist (fun _ _ => List.sublist_append_left _ _) es
  refine ((hsublist.filter _).map Datapoint.data).sum_le_sum fun x hx => ?_
  obtain ⟨p, hp, rfl⟩ := List.mem_map.mp hx
  exact data_nonneg hbytes p (List.mem_of_mem_filter hp)

/-- A call finds the list with a point.  When the sum of the window fits, it pauses the VPN
    only when the screen has been off for 60 seconds and little was reported in them. -/
theorem lowTrafficPause_late {before : List Event} {diffIn diffOut t : Int}
    {clock : Nat → Int}
    (hclock : Clocked (before ++ [.updateByteCount diffIn diffOut t clock]))
    (hbytes : NonNegative (before ++ [.updateByteCount diffIn diffOut t clock]))
    (hwindow : WindowFits (before ++ [.updateByteCount diffIn diffOut t clock])) :
    ¬(session.run before).FindsEmpty (.updateByteCount diffIn diffOut t clock) ∧
      (total (window t (session.outputs Session.added
          (before ++ [.updateByteCount diffIn diffOut t clock]))) < 2 ^ 63 →
        (session.run before).Pauses (.updateByteCount diffIn diffOut t clock) →
        ScreenOffSince before (t - TRAFFIC_WINDOW) ∧
          total (window t (session.outputs Session.reported
            (before ++ [.updateByteCount diffIn diffOut t clock]))) < TRAFFIC_LIMIT) := by
  refine ⟨?_, fun hfits hpauses => ?_⟩
  · rintro ⟨d, hd, hscreen, hempty⟩
    rw [removeOld_run hclock hwindow hd hscreen] at hempty
    cases hempty
  · obtain ⟨d, hd⟩ : ∃ d, (session.run before).receiver = some d := by
      refine Option.ne_none_iff_exists'.mp fun hnone => ?_
      obtain ⟨reason, running, log, hlog⟩ := hpauses
      simp [Session.step, hnone] at hlog
    have hsession : session.run before = ⟨some d, (session.run before).management⟩ := by
      rw [← hd]
    rw [hsession] at hpauses
    obtain ⟨hscreen, hlow⟩ := Session.lowTraffic_of_pauses hpauses
    have hlimit := hlow _ (removeOld_run hclock hwindow hd hscreen)
    have hnonneg := data_nonneg hbytes
    have hpositive : 0 ≤ total (window t (session.outputs Session.added
        (before ++ [.updateByteCount diffIn diffOut t clock]))) := by
      refine List.sum_nonneg fun x hx => ?_
      obtain ⟨p, hp, rfl⟩ := List.mem_map.mp hx
      exact hnonneg p (mem_window.mp hp).1
    rw [windowtraffic_map_wrapped, long_of_range (by omega) hfits] at hlimit
    refine ⟨screenOffSince_of_total ?_ ?_ (timestamp_le_call hclock).2 hnonneg hlimit, ?_⟩
    · rw [Session.screenPending, hd]
      exact beq_iff_eq.mpr hscreen
    · rw [Machine.outputs_append_singleton]
      exact List.subset_append_left _ _
    · exact lt_of_le_of_lt (total_reported_le hbytes t) hlimit

theorem lowTrafficPause_late_minute :
    let wifi : NetworkInfo := ⟨1, some "home", true⟩
    let before : List Event := [.constructReceiver, .connectivity (some wifi) true,
      .screenOff true 1000, .updateByteCount 500 500 2000 fun _ => 2000]
    let call : Event := .updateByteCount 100 0 61000 fun _ => 61000
    (session.run before).Pauses call ∧ ¬(session.run before).FindsEmpty call ∧
      ScreenOffSince before (61000 - TRAFFIC_WINDOW) ∧
        total (window 61000 (session.outputs Session.reported (before ++ [call])))
          < TRAFFIC_LIMIT := by
  intro wifi before call
  have hpauses : (session.run before).Pauses call :=
    ⟨.screenOff, false, [⟨.command .signalSIGUSR1, false⟩], by decide⟩
  have hclock : Clocked (before ++ [call]) :=
    ⟨by decide, by simp [before, call, Event.Steady], by decide⟩
  have hbytes : NonNegative (before ++ [call]) := by
    intro diffIn diffOut now clock h
    simp only [before, call, List.cons_append, List.nil_append, List.mem_cons, reduceCtorEq,
      Event.updateByteCount.injEq, List.not_mem_nil, or_false, false_or] at h
    omega
  have hwindow : WindowFits (before ++ [call]) := by
    unfold WindowFits
    decide
  obtain ⟨hfound, hlate⟩ := lowTrafficPause_late hclock hbytes hwindow
  exact ⟨hpauses, hfound, hlate (by decide) hpauses⟩

/-- A sum that does not fit pauses the VPN two seconds after the screen went off, and a
    window that begins before all `long` values empties the list. -/
theorem lowTrafficPause_not_late :
    let wifi : NetworkInfo := ⟨1, some "home", true⟩
    let start : List Event := [.constructReceiver, .connectivity (some wifi) true]
    let before := start ++ [.screenOff true 0]
    let call : Event := .updateByteCount (2 ^ 63 - 1) 0 2000 fun _ => 2000
    let before' := start ++ [.screenOff true (-2 ^ 63)]
    let call' : Event := .updateByteCount 0 0 (-2 ^ 63) fun _ => -2 ^ 63
    (Clocked (before ++ [call]) ∧ NonNegative (before ++ [call]) ∧
        (session.run before).Pauses call ∧ ¬ScreenOffSince before (2000 - TRAFFIC_WINDOW)) ∧
      Clocked (before' ++ [call']) ∧ NonNegative (before' ++ [call']) ∧
        (session.run before').FindsEmpty call' := by
  intro wifi start before call before' call'
  refine ⟨⟨⟨by decide, by simp [before, start, call, Event.Steady], by decide⟩, ?_, ?_, ?_⟩,
    ⟨by decide, by simp [before', start, call', Event.Steady], by decide⟩, ?_, ?_⟩
  · intro diffIn diffOut now clock h
    simp [before, start, call] at h
    omega
  · exact ⟨.screenOff, false, [⟨.command .signalSIGUSR1, false⟩], by decide⟩
  · rintro ⟨earlier, t, later, heq, -, ht, -⟩
    have hmem : Event.screenOff true t ∈ before := by rw [heq]; simp
    have ht' : t = 0 := by simpa [before, start] using hmem
    rw [ht'] at ht
    exact absurd ht (by decide)
  · intro diffIn diffOut now clock h
    simp [before', start, call'] at h
    omega
  · exact ⟨_, rfl, rfl, by decide⟩

end OpenVpnAndroid
