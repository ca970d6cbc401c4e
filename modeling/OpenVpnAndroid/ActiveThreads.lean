/-
  OpenVpnAndroid/ActiveThreads.lean
  =================================
  **The vector `active` and the result of `stopOpenVPN`.**

  `run` of the management thread puts its thread into `active` and takes it out
  again behind the read loop.  The loop is left by an exception, which `run`
  catches, and by the `return` at the end of the stream, which passes the removal
  by; so does the second exception that an `IOException` without a message raises
  in the handler.  `stopOpenVPN` writes to every thread of `active` and returns
  what the last write returned.

  Both are right in exactly the runs in which no thread ends the second way and
  the last write decides (`active_stopOpenVPN_iff`).
-/
import OpenVpnAndroid.JavaText
import OpenVpnAndroid.Machine

namespace OpenVpnAndroid

/-- One run of a management thread. -/
structure ManagementRun where
  /-- `mSocket != null`: the client has connected -/
  mSocket : Bool
  /-- `run` has been left -/
  ended : Bool
deriving DecidableEq, Repr

/-- All threads so far, in the order of their starts, and the static vector. -/
structure ManagementRuns where
  runs : List ManagementRun
  active : List Nat
deriving DecidableEq, Repr

/-- A step of one of the threads, or a call of `stopOpenVPN`. -/
inductive ManagementRunEvent where
  /-- `run` of a new thread, up to `accept` -/
  | start
  /-- `accept` returns -/
  | accept (t : Nat)
  /-- `read` returns -1 -/
  | endOfStream (t : Nat)
  /-- the exception leaves the loop; its message may be `null` -/
  | ioException (t : Nat) (message : Option Text)
  /-- with the threads on whose socket a write goes through now -/
  | stopOpenVPN (written : Nat → Bool)

namespace ManagementRuns

variable (s : ManagementRuns)

/-- `managmentCommand` of thread `t`. -/
def managmentCommand (written : Nat → Bool) (t : Nat) : Bool :=
  match s.runs[t]? with
  | some r => r.mSocket && written t
  | none => false

/-- The loop of `stopOpenVPN`.  What the closed sockets change is in the answers to
    the next writes. -/
def stopOpenVPN (written : Nat → Bool) : Bool :=
  s.active.foldl (fun _ mt => s.managmentCommand written mt) false

/-- Thread `t` leaves `run`. -/
def leaveRun (t : Nat) : ManagementRuns :=
  { s with runs := s.runs.modify t fun r => { r with ended := true } }

def step : ManagementRunEvent → ManagementRuns
  | .start => ⟨s.runs ++ [⟨false, false⟩], s.active ++ [s.runs.length]⟩
  | .accept t =>
      match s.runs[t]? with
      | some ⟨false, false⟩ =>
          { s with runs := s.runs.modify t fun r => { r with mSocket := true } }
      | _ => s
  | .endOfStream t =>
      match s.runs[t]? with
      | some ⟨true, false⟩ => s.leaveRun t
      | _ => s
  | .ioException t message =>
      match s.runs[t]? with
      | some ⟨_, false⟩ =>
          match message with
          | some _ => { s.leaveRun t with active := s.active.erase t }
          -- `e.getMessage().equals` on `null`
          | none => s.leaveRun t
      | _ => s
  | .stopOpenVPN _ => s

/-- The run of thread `t` has started and not ended. -/
def Running (t : Nat) : Prop := ∃ r ∈ s.runs[t]?, r.ended = false

/-- The vector contains exactly the running threads, each once. -/
structure ActiveExact : Prop where
  nodup : s.active.Nodup
  mem_iff : ∀ t, t ∈ s.active ↔ s.Running t

/-- The result says whether the command was written to a running thread. -/
def StopExact (written : Nat → Bool) : Prop :=
  s.stopOpenVPN written = true ↔ ∃ t, s.Running t ∧ s.managmentCommand written t = true

/-- The event ends a thread that stays in the vector. -/
def Leaks : ManagementRunEvent → Prop
  | .endOfStream t => s.runs[t]? = some ⟨true, false⟩
  | .ioException t none => s.Running t
  | _ => False

/-- A write went through, but not the last one. -/
def LastWriteFails : ManagementRunEvent → Prop
  | .stopOpenVPN written =>
      (∃ t, s.Running t ∧ s.managmentCommand written t = true) ∧
        ∀ mt ∈ s.active.getLast?, s.managmentCommand written mt = false
  | _ => False

variable {s}

/-! ### The loop -/

/-- Only the last round of the loop counts. -/
theorem foldl_last {α β : Type*} (f : α → β) (ts : List α) (b : β) :
    ts.foldl (fun _ t => f t) b = (ts.getLast?.map f).getD b := by
  induction ts using List.reverseRecOn with
  | nil => rfl
  | append_singleton ts t _ => simp

theorem stopOpenVPN_eq_true {written : Nat → Bool} :
    s.stopOpenVPN written = true ↔
      ∃ mt ∈ s.active.getLast?, s.managmentCommand written mt = true := by
  rw [stopOpenVPN, foldl_last]
  cases s.active.getLast? with
  | none => simp
  | some mt => simp

theorem stopExact_iff (h : s.ActiveExact) (written : Nat → Bool) :
    s.StopExact written ↔ ¬ s.LastWriteFails (.stopOpenVPN written) := by
  rw [StopExact, stopOpenVPN_eq_true, LastWriteFails]
  constructor
  · rintro hexact ⟨hsome, hlast⟩
    obtain ⟨mt, hmt, hsent⟩ := hexact.mpr hsome
    rw [hlast mt hmt] at hsent
    cases hsent
  · intro hno
    constructor
    · rintro ⟨mt, hmt, hsent⟩
      exact ⟨mt, (h.mem_iff mt).mp (List.mem_of_getLast? hmt), hsent⟩
    · intro hsome
      by_contra hlast
      refine hno ⟨hsome, fun mt hmt => ?_⟩
      by_contra hsent
      exact hlast ⟨mt, hmt, by simpa using hsent⟩

/-! ### The vector -/

theorem running_iff {t : Nat} : s.Running t ↔ ∃ r, s.runs[t]? = some r ∧ r.ended = false := Iff.rfl

theorem running_start {t : Nat} :
    (s.step .start).Running t ↔ s.Running t ∨ t = s.runs.length := by
  rw [running_iff, running_iff, step]
  rcases Nat.lt_trichotomy t s.runs.length with h | h | h
  · simp [List.getElem?_append_left h, h.ne]
  · simp [h]
  · have hnone : (s.runs ++ [⟨false, false⟩])[t]? = none :=
      List.getElem?_eq_none (by rw [List.length_append]; exact h)
    rw [hnone, List.getElem?_eq_none h.le]
    simp [h.ne']

theorem running_accept {t u : Nat} : (s.step (.accept t)).Running u ↔ s.Running u := by
  rw [step]
  split
  · rw [running_iff, running_iff, List.getElem?_modify]
    by_cases h : t = u <;> simp [h]
  · rfl

theorem running_leaveRun {t u : Nat} : (s.leaveRun t).Running u ↔ s.Running u ∧ u ≠ t := by
  rw [running_iff, running_iff, leaveRun, List.getElem?_modify]
  by_cases h : t = u
  · simp [h]
  · simp [h, Ne.symm h]

/-- A thread that has started has its place in the list. -/
theorem Running.lt {t : Nat} (h : s.Running t) : t < s.runs.length := by
  obtain ⟨r, hr, -⟩ := h
  exact (List.getElem?_eq_some_iff.mp hr).1

theorem activeExact_start (h : s.ActiveExact) : (s.step .start).ActiveExact := by
  constructor
  · have hnew : s.runs.length ∉ s.active := fun hmem => ((h.mem_iff _).mp hmem).lt.ne rfl
    exact List.Nodup.append h.nodup (List.nodup_singleton _) (List.disjoint_singleton.mpr hnew)
  · intro t
    rw [running_start, ← h.mem_iff]
    simp [step]

theorem activeExact_accept (h : s.ActiveExact) (t : Nat) : (s.step (.accept t)).ActiveExact := by
  have hactive : (s.step (.accept t)).active = s.active := by
    rw [step]
    split <;> rfl
  constructor
  · rw [hactive]
    exact h.nodup
  · intro u
    rw [hactive, running_accept]
    exact h.mem_iff u

/-- A thread that is left in the vector makes it wrong. -/
theorem not_activeExact_leaveRun (h : s.ActiveExact) {t : Nat} (ht : s.Running t) :
    ¬ (s.leaveRun t).ActiveExact := by
  intro hleft
  have hmem : t ∈ (s.leaveRun t).active := (h.mem_iff t).mpr ht
  exact (running_leaveRun.mp ((hleft.mem_iff t).mp hmem)).2 rfl

theorem activeExact_remove (h : s.ActiveExact) (t : Nat) :
    ActiveExact { s.leaveRun t with active := s.active.erase t } := by
  constructor
  · exact h.nodup.erase t
  · intro u
    apply (h.nodup.mem_erase_iff).trans
    rw [h.mem_iff, and_comm]
    exact running_leaveRun.symm

/-- What one event does to the vector. -/
theorem activeExact_step (s : ManagementRuns) (e : ManagementRunEvent) (h : s.ActiveExact) :
    (s.step e).ActiveExact ↔ ¬ s.Leaks e := by
  cases e with
  | start => exact iff_of_true (activeExact_start h) id
  | accept t => exact iff_of_true (activeExact_accept h t) id
  | stopOpenVPN written => exact iff_of_true h id
  | endOfStream t =>
      rw [step, Leaks]
      split
      · next hreading =>
          apply iff_of_false (not_activeExact_leaveRun h ⟨_, hreading, rfl⟩)
          exact not_not_intro hreading
      · next hother => exact iff_of_true h hother
  | ioException t message =>
      cases message with
      | some text =>
          refine iff_of_true ?_ id
          rw [step]
          split
          · exact activeExact_remove h t
          · exact h
      | none =>
          rw [step, Leaks]
          split
          · next socket hrunning =>
              have ht : s.Running t := ⟨_, hrunning, rfl⟩
              exact iff_of_false (not_activeExact_leaveRun h ht) (not_not_intro ht)
          · next hother =>
              apply iff_of_true h
              rintro ⟨⟨socket, ended⟩, hr, rfl⟩
              exact hother socket hr

end ManagementRuns

/-! ### Runs -/

/-- Any number of threads, in any order of their steps. -/
def managementRuns : Machine ManagementRuns ManagementRunEvent := ⟨⟨[], []⟩, ManagementRuns.step⟩

namespace ManagementRuns

/-- In every state of a run the vector is exact, and every call of `stopOpenVPN`
    returns whether the command was written to a running thread, exactly when no
    thread of the run ends without being removed and no call finds that a write
    but not its last one goes through. -/
theorem active_stopOpenVPN_iff (es : List ManagementRunEvent) :
    ((∀ before after, es = before ++ after → (managementRuns.run before).ActiveExact) ∧
        ∀ before written after, es = before ++ .stopOpenVPN written :: after →
          (managementRuns.run before).StopExact written) ↔
      ∀ before e after, es = before ++ e :: after →
        ¬ (managementRuns.run before).Leaks e ∧ ¬ (managementRuns.run before).LastWriteFails e := by
  have hinit : managementRuns.initial.ActiveExact := by
    constructor
    · exact List.nodup_nil
    · intro t
      simp [managementRuns, Running]
  have hactive := Machine.everyState_iff hinit activeExact_step es
  constructor
  · rintro ⟨hexact, hstop⟩ before e after heq
    refine ⟨hactive.mp hexact before e after heq, ?_⟩
    cases e with
    | stopOpenVPN written =>
        exact (stopExact_iff (hexact before _ heq) written).mp (hstop before written after heq)
    | _ => exact id
  · intro h
    have hexact := hactive.mpr fun before e after heq => (h before e after heq).1
    refine ⟨hexact, ?_⟩
    intro before written after heq
    exact (stopExact_iff (hexact before _ heq) written).mpr (h before _ after heq).2

/-- A thread that ends with its stream stays in the vector, and of two threads the
    second one decides what `stopOpenVPN` returns. -/
theorem not_active_stopOpenVPN :
    (¬ ∀ es, (managementRuns.run es).ActiveExact) ∧
      ¬ ∀ es written, (managementRuns.run es).StopExact written := by
  constructor
  · intro h
    have hleft : 0 ∈ (managementRuns.run [.start, .accept 0, .endOfStream 0]).active := by decide
    obtain ⟨r, hr, hrunning⟩ := ((h _).mem_iff 0).mp hleft
    have hended : (managementRuns.run [.start, .accept 0, .endOfStream 0]).runs[0]? =
        some ⟨true, true⟩ := by decide
    rw [hended] at hr
    cases hr
    cases hrunning
  · intro h
    have hstop := h [.start, .accept 0, .start, .accept 1] fun t => t == 0
    have hwritten := hstop.mpr ⟨0, ⟨⟨true, false⟩, by decide, rfl⟩, by decide⟩
    exact absurd hwritten (by decide)

end ManagementRuns

end OpenVpnAndroid
