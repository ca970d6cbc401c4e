/-
  OpenVpnAndroid/LogDelivery.lean
  ===============================
  **The log items that a registering client gets.**

  `newLogItem` gives each item to the listeners, and `OpenVPNStatusService` puts it
  into the queue of its handler, which broadcasts it to the registered clients.  A
  registration takes a snapshot of the buffer first and registers the callback last,
  without the lock that `newLogItem` holds.

  An item whose message is handled in between is in neither, and one that is in the
  snapshot and still in the queue is in both.  Each item arrives once in exactly the
  runs in which the registration finds the snapshot and the queue to be complements
  (`exactlyOnce_iff`).
-/
import OpenVpnAndroid.LogBuffer

namespace OpenVpnAndroid

/-- How far `registerStatusCallback` has come for the client, with its snapshot. -/
inductive Registration where
  | called
  | snapshot (logbuffer : List LogObject)
  | updated (logbuffer : List LogObject)
  | registered (logbuffer : List LogObject)
deriving DecidableEq, Repr

/-- The snapshot, empty before it is taken. -/
def Registration.logbuffer : Registration → List LogObject
  | called => []
  | snapshot logbuffer => logbuffer
  | updated logbuffer => logbuffer
  | registered logbuffer => logbuffer

structure StatusService where
  /-- every item that was logged -/
  logged : List LogObject
  logbuffer : List LogObject
  /-- the service is among the log listeners -/
  listening : Bool
  /-- the `SEND_NEW_LOGITEM` messages of the handler -/
  queue : List LogObject
  registration : Registration
  /-- the calls of `newLogItem` of the client -/
  delivered : List LogObject
deriving DecidableEq, Repr

inductive StatusEvent where
  /-- `VpnStatus.newLogItem` with a new item -/
  | newLogItem (item : LogItem) (cachedLine enforceUnique : Bool)
  | clearLog
  /-- `onCreate` of the service -/
  | onCreate
  /-- `handleMessage` for the next message -/
  | handleMessage
  /-- `VpnStatus.getlogbuffer()` of the registration -/
  | getlogbuffer
  | sendUpdate
  /-- `mCallbacks.register(cb)` -/
  | register
deriving DecidableEq, Repr

namespace StatusService

variable (s : StatusService)

/-- The listeners are called behind the insertion, also if it found an equal item. -/
def newLogItem (item : LogItem) (cachedLine enforceUnique : Bool) : StatusService :=
  let logItem : LogObject := ⟨s.logged.length, item⟩
  match VpnStatus.newLogItem s.logbuffer logItem cachedLine enforceUnique with
  | .error _ => s
  | .ok inserted =>
      { s with
        logged := s.logged ++ [logItem]
        logbuffer := inserted.logbuffer
        queue := if s.listening then s.queue ++ [logItem] else s.queue }

def handleMessage : StatusService :=
  match s.queue with
  | [] => s
  | logItem :: queue =>
      { s with
        queue := queue
        delivered :=
          match s.registration with
          | .registered _ => s.delivered ++ [logItem]
          | _ => s.delivered }

def getlogbuffer : StatusService :=
  match s.registration with
  | .called => if s.listening then { s with registration := .snapshot s.logbuffer } else s
  | _ => s

def sendUpdate : StatusService :=
  match s.registration with
  | .snapshot logbuffer => { s with registration := .updated logbuffer }
  | _ => s

def register : StatusService :=
  match s.registration with
  | .updated logbuffer => { s with registration := .registered logbuffer }
  | _ => s

def step : StatusEvent → StatusService
  | .newLogItem item cachedLine enforceUnique => s.newLogItem item cachedLine enforceUnique
  | .clearLog => { s with logbuffer := [] }
  | .onCreate => { s with listening := true }
  | .handleMessage => s.handleMessage
  | .getlogbuffer => s.getlogbuffer
  | .sendUpdate => s.sendUpdate
  | .register => s.register

/-- How often the client got the item. -/
def deliveries (o : LogObject) : Nat :=
  match s.registration with
  | .registered logbuffer => (logbuffer ++ s.delivered).count o
  | _ => s.delivered.count o

/-- The client is registered and no message is left. -/
def Settled : Prop := s.queue = [] ∧ ∃ logbuffer, s.registration = .registered logbuffer

def ExactlyOnce : Prop := ∀ o ∈ s.logged, s.deliveries o = 1

instance : Decidable s.ExactlyOnce := inferInstanceAs (Decidable (∀ o ∈ _, _))

/-- Where the client is registered, the items so far are either in the snapshot or in
    the queue. -/
def RegistersComplement : StatusEvent → Prop
  | .register => ∀ logbuffer, s.registration = .updated logbuffer →
      ∀ o ∈ s.logged, o ∈ logbuffer ↔ o ∉ s.queue
  | _ => True

end StatusService

/-- Nothing was logged, and the client has called. -/
def statusServices : Machine StatusService StatusEvent where
  initial := ⟨[], [], false, [], .called, []⟩
  step := StatusService.step

namespace StatusService

variable {s : StatusService}

/-! ### Every item has one place -/

/-- What the steps keep. -/
structure Consistent (s : StatusService) : Prop where
  numbered : ∀ o ∈ s.logged, o.number < s.logged.length
  logbuffer : s.logbuffer.Nodup ∧ ∀ o ∈ s.logbuffer, o ∈ s.logged
  queue : s.queue.Nodup ∧ ∀ o ∈ s.queue, o ∈ s.logged
  snapshot : s.registration.logbuffer.Nodup ∧ ∀ o ∈ s.registration.logbuffer, o ∈ s.logged
  delivered : ∀ o ∈ s.delivered, o ∈ s.logged
  unregistered : (∀ logbuffer, s.registration ≠ .registered logbuffer) → s.delivered = []
  listening : s.registration ≠ .called → s.listening = true

/-- The object of a new item is in none of the lists. -/
theorem Consistent.fresh (h : Consistent s) (item : LogItem) : ⟨s.logged.length, item⟩ ∉ s.logged :=
  fun hmem => absurd (h.numbered _ hmem) (Nat.lt_irrefl _)

theorem Consistent.newLogItem (h : Consistent s) (item : LogItem)
    (cachedLine enforceUnique : Bool) :
    Consistent (s.newLogItem item cachedLine enforceUnique) := by
  have hfresh := h.fresh item
  rw [StatusService.newLogItem]
  split
  · exact h
  · rename_i inserted hinserted
    have hkeep : ∀ o ∈ s.logged, o ∈ s.logged ++ [⟨s.logged.length, item⟩] :=
      fun o ho => List.mem_append_left _ ho
    refine ⟨fun o ho => ?_, ⟨?_, fun o ho => ?_⟩, ?_, ⟨h.snapshot.1, fun o ho =>
      hkeep o (h.snapshot.2 o ho)⟩, fun o ho => hkeep o (h.delivered o ho), h.unregistered,
      h.listening⟩
    · rw [List.length_append]
      rcases List.mem_append.mp ho with ho | ho
      · exact Nat.lt_succ_of_lt (h.numbered o ho)
      · rw [List.mem_singleton.mp ho]
        exact Nat.lt_succ_self _
    · exact VpnStatus.nodup_newLogItem hinserted (fun hmem => hfresh (h.logbuffer.2 _ hmem))
        h.logbuffer.1
    · rcases VpnStatus.mem_newLogItem hinserted ho with ho | rfl
      · exact hkeep o (h.logbuffer.2 o ho)
      · exact List.mem_append_right _ List.mem_cons_self
    · dsimp only
      split
      · refine ⟨?_, fun o ho => ?_⟩
        · rw [List.nodup_append_comm, List.singleton_append, List.nodup_cons]
          exact ⟨fun hmem => hfresh (h.queue.2 _ hmem), h.queue.1⟩
        · rcases List.mem_append.mp ho with ho | ho
          · exact hkeep o (h.queue.2 o ho)
          · exact List.mem_append_right _ ho
      · exact ⟨h.queue.1, fun o ho => hkeep o (h.queue.2 o ho)⟩

theorem Consistent.handleMessage (h : Consistent s) : Consistent s.handleMessage := by
  rw [StatusService.handleMessage]
  split
  · exact h
  · rename_i logItem queue hqueue
    obtain ⟨hnodup, hmem⟩ := h.queue
    rw [hqueue] at hnodup hmem
    refine ⟨h.numbered, h.logbuffer, ⟨(List.nodup_cons.mp hnodup).2, fun o ho =>
      hmem o (List.mem_cons_of_mem _ ho)⟩, h.snapshot, fun o ho => ?_, fun hnot => ?_, h.listening⟩
    · dsimp only at ho
      split at ho
      · rcases List.mem_append.mp ho with ho | ho
        · exact h.delivered o ho
        · rw [List.mem_singleton.mp ho]
          exact hmem logItem List.mem_cons_self
      · exact h.delivered o ho
    · dsimp only at hnot ⊢
      split
      · rename_i hregistered
        exact absurd hregistered (hnot _)
      · exact h.unregistered hnot

theorem Consistent.step (h : Consistent s) (e : StatusEvent) : Consistent (s.step e) := by
  cases e with
  | newLogItem item cachedLine enforceUnique => exact h.newLogItem item cachedLine enforceUnique
  | clearLog =>
      exact { h with logbuffer := ⟨List.nodup_nil, fun _ ho => nomatch ho⟩ }
  | onCreate => exact { h with listening := fun _ => rfl }
  | handleMessage => exact h.handleMessage
  | getlogbuffer =>
      rw [StatusService.step, getlogbuffer]
      cases hreg : s.registration with
      | called =>
          dsimp only
          split
          · rename_i hlistening
            refine { h with snapshot := h.logbuffer, unregistered := fun _ => ?_,
                            listening := fun _ => hlistening }
            exact h.unregistered fun b => by rw [hreg]; exact nofun
          · exact h
      | snapshot b => exact h
      | updated b => exact h
      | registered b => exact h
  | sendUpdate =>
      rw [StatusService.step, sendUpdate]
      cases hreg : s.registration with
      | snapshot b =>
          have hsnapshot := h.snapshot
          rw [hreg] at hsnapshot
          refine { h with snapshot := hsnapshot, unregistered := fun _ => ?_,
                          listening := fun _ => h.listening (by rw [hreg]; exact nofun) }
          exact h.unregistered fun b => by rw [hreg]; exact nofun
      | called => exact h
      | updated b => exact h
      | registered b => exact h
  | register =>
      rw [StatusService.step, register]
      cases hreg : s.registration with
      | updated b =>
          have hsnapshot := h.snapshot
          rw [hreg] at hsnapshot
          exact { h with snapshot := hsnapshot, unregistered := fun hnot => absurd rfl (hnot b),
                         listening := fun _ => h.listening (by rw [hreg]; exact nofun) }
      | called => exact h
      | snapshot b => exact h
      | registered b => exact h

theorem consistent_run (es : List StatusEvent) : Consistent (statusServices.run es) :=
  Machine.invariant
    ⟨fun _ ho => (nomatch ho), ⟨List.nodup_nil, fun _ ho => nomatch ho⟩,
      ⟨List.nodup_nil, fun _ ho => nomatch ho⟩, ⟨List.nodup_nil, fun _ ho => nomatch ho⟩,
      fun _ ho => (nomatch ho), fun _ => rfl, fun h => absurd rfl h⟩
    (fun _ e h => h.step e) es

/-! ### Snapshot, callbacks and queue -/

/-- Each item is once in the snapshot, among the callbacks or in the queue. -/
def Balanced (s : StatusService) : Prop :=
  ∀ logbuffer, s.registration = .registered logbuffer →
    ∀ o ∈ s.logged, (logbuffer ++ s.delivered ++ s.queue).count o = 1

theorem balanced_of_ne (h : ∀ logbuffer, s.registration ≠ .registered logbuffer) : Balanced s :=
  fun logbuffer hreg => absurd hreg (h logbuffer)

theorem balanced_newLogItem (h : Consistent s) (item : LogItem) (cachedLine enforceUnique : Bool) :
    Balanced (s.newLogItem item cachedLine enforceUnique) ↔ Balanced s := by
  have hfresh := h.fresh item
  rw [StatusService.newLogItem]
  split
  · exact Iff.rfl
  · constructor
    · intro hbalanced b hreg o ho
      have hlistening : s.listening = true := h.listening (by rw [hreg]; exact nofun)
      have hcount := hbalanced b hreg o (List.mem_append_left _ ho)
      have hne : ⟨s.logged.length, item⟩ ≠ o := fun heq => hfresh (heq ▸ ho)
      dsimp only at hcount
      rw [if_pos hlistening, ← List.append_assoc, List.count_append,
        List.count_singleton, if_neg (by simpa using hne)] at hcount
      exact hcount
    · intro hbalanced b hreg o ho
      have hlistening : s.listening = true := h.listening (by
        rw [show s.registration = .registered b from hreg]
        exact nofun)
      dsimp only
      rw [if_pos hlistening, ← List.append_assoc, List.count_append, List.count_singleton]
      rcases List.mem_append.mp ho with ho | ho
      · have hne : ⟨s.logged.length, item⟩ ≠ o := fun heq => hfresh (heq ▸ ho)
        rw [if_neg (by simpa using hne)]
        exact hbalanced b hreg o ho
      · obtain rfl := List.mem_singleton.mp ho
        have hsnapshot := h.snapshot.2
        rw [show s.registration = .registered b from hreg] at hsnapshot
        have hnone : ⟨s.logged.length, item⟩ ∉ b ++ s.delivered ++ s.queue := by
          intro hmem
          rcases List.mem_append.mp hmem with hmem | hmem
          · rcases List.mem_append.mp hmem with hmem | hmem
            · exact hfresh (hsnapshot _ hmem)
            · exact hfresh (h.delivered _ hmem)
          · exact hfresh (h.queue.2 _ hmem)
        rw [List.count_eq_zero_of_not_mem hnone]
        simp

theorem balanced_handleMessage : Balanced s.handleMessage ↔ Balanced s := by
  rw [handleMessage]
  split
  · exact Iff.rfl
  · rename_i logItem queue hqueue
    refine forall_congr' fun b => ?_
    dsimp only
    refine forall_congr' fun hreg => ?_
    rw [hreg, hqueue]
    simp only [List.append_assoc, List.cons_append, List.nil_append]

theorem balanced_register (h : Consistent s) :
    Balanced s.register ↔ Balanced s ∧ s.RegistersComplement .register := by
  rw [register]
  cases hreg : s.registration with
  | updated b =>
      have hne : ∀ b', s.registration ≠ .registered b' := fun b' => by rw [hreg]; exact nofun
      have hsnapshot : b.Nodup := by
        have hnodup := h.snapshot.1
        rwa [hreg] at hnodup
      have hcount : ∀ o, (b ++ s.delivered ++ s.queue).count o = 1 ↔ (o ∈ b ↔ o ∉ s.queue) := by
        intro o
        rw [h.unregistered hne, List.append_nil, List.count_append, hsnapshot.count,
          h.queue.1.count]
        by_cases hb : o ∈ b <;> by_cases hq : o ∈ s.queue <;> simp [hb, hq]
      rw [and_iff_right (balanced_of_ne hne), RegistersComplement]
      constructor
      · intro hbalanced b' hb' o ho
        obtain rfl : b = b' := Registration.updated.inj (hreg.symm.trans hb')
        exact (hcount o).mp (hbalanced b rfl o ho)
      · intro hcomplement b' hb' o ho
        obtain rfl := Registration.registered.inj hb'
        exact (hcount o).mpr (hcomplement b hreg o ho)
  | called => exact (and_iff_left fun b hb => by rw [hreg] at hb; cases hb).symm
  | snapshot b => exact (and_iff_left fun b hb => by rw [hreg] at hb; cases hb).symm
  | registered b => exact (and_iff_left fun b hb => by rw [hreg] at hb; cases hb).symm

theorem balanced_step (h : Consistent s) (e : StatusEvent) :
    Balanced (s.step e) ↔ Balanced s ∧ s.RegistersComplement e := by
  cases e with
  | newLogItem item cachedLine enforceUnique =>
      exact (balanced_newLogItem h item cachedLine enforceUnique).trans
        (and_iff_left trivial).symm
  | clearLog => exact (and_iff_left trivial).symm
  | onCreate => exact (and_iff_left trivial).symm
  | handleMessage => exact balanced_handleMessage.trans (and_iff_left trivial).symm
  | getlogbuffer =>
      rw [step, getlogbuffer]
      cases hreg : s.registration with
      | called =>
          have hne : ∀ b', s.registration ≠ .registered b' := fun b' => by rw [hreg]; exact nofun
          refine iff_of_true ?_ ⟨balanced_of_ne hne, trivial⟩
          dsimp only
          split
          · exact balanced_of_ne fun b' => nofun
          · exact balanced_of_ne hne
      | snapshot b => exact (and_iff_left trivial).symm
      | updated b => exact (and_iff_left trivial).symm
      | registered b => exact (and_iff_left trivial).symm
  | sendUpdate =>
      rw [step, sendUpdate]
      cases hreg : s.registration with
      | snapshot b =>
          have hne : ∀ b', s.registration ≠ .registered b' := fun b' => by rw [hreg]; exact nofun
          exact iff_of_true (balanced_of_ne fun b' => nofun) ⟨balanced_of_ne hne, trivial⟩
      | called => exact (and_iff_left trivial).symm
      | updated b => exact (and_iff_left trivial).symm
      | registered b => exact (and_iff_left trivial).symm
  | register => exact balanced_register h

theorem exactlyOnce_eq (h : s.Settled) : s.ExactlyOnce ↔ Balanced s := by
  obtain ⟨hqueue, b, hreg⟩ := h
  constructor
  · intro hexactly b' hb' o ho
    have hdeliveries := hexactly o ho
    rw [deliveries, hb'] at hdeliveries
    rw [hqueue, List.append_nil]
    exact hdeliveries
  · intro hbalanced o ho
    have hcount := hbalanced b hreg o ho
    rw [hqueue, List.append_nil] at hcount
    rw [deliveries, hreg]
    exact hcount

end StatusService

open StatusService in
/-- When all messages are handled, the client got each item once if it was registered
    where the snapshot and the queue were complements. -/
theorem exactlyOnce_iff (es : List StatusEvent) (h : (statusServices.run es).Settled) :
    (statusServices.run es).ExactlyOnce ↔ statusServices.EveryStep RegistersComplement es := by
  rw [exactlyOnce_eq h]
  exact Machine.latch_of_invariant consistent_run
    (balanced_of_ne fun _ => nofun) (fun _ e hs => balanced_step hs e) es

/-- An item is logged, and the client registers before its message is handled. -/
def registersEarly : List StatusEvent :=
  [.onCreate,
    .newLogItem ⟨none, some (JavaString.ofText "line"), 0, some .INFO, 1000, -1⟩ false false,
    .getlogbuffer, .sendUpdate, .register, .handleMessage]

/-- An item is logged behind the snapshot, and its message is handled before the client
    is registered. -/
def registersLate : List StatusEvent :=
  [.onCreate, .getlogbuffer,
    .newLogItem ⟨none, some (JavaString.ofText "line"), 0, some .INFO, 1000, -1⟩ false false,
    .handleMessage, .sendUpdate, .register]

theorem exactlyOnce_iff_registersEarly :
    (statusServices.run registersEarly).ExactlyOnce ↔
      statusServices.EveryStep StatusService.RegistersComplement registersEarly :=
  exactlyOnce_iff registersEarly ⟨by decide, _, rfl⟩

/-- The first client gets the item twice, the second one never. -/
theorem not_exactlyOnce :
    ((statusServices.run registersEarly).Settled ∧
        ¬ (statusServices.run registersEarly).ExactlyOnce) ∧
      (statusServices.run registersLate).Settled ∧
        ¬ (statusServices.run registersLate).ExactlyOnce :=
  ⟨⟨⟨by decide, _, rfl⟩, by decide⟩, ⟨⟨by decide, _, rfl⟩, by decide⟩⟩

end OpenVpnAndroid
