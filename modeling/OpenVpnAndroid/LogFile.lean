/-
  OpenVpnAndroid/LogFile.lean
  ===========================
  **The log file of a running `LogFileHandler`.**

  `newLogItem` inserts an item into the buffer and sends it to the handler, which
  writes it to the file.  When the buffer was trimmed or cleared, the handler gets a
  message to empty the file and to write the buffer anew.

  It writes the buffer as it is when the message is handled.  Items whose own messages
  are behind it are written twice, and an item that `getMarschaledBytes` refuses ends
  the rewriting, so the items behind it are lost.  When the queue is empty the file
  mirrors the buffer exactly if the last rewriting did neither (`mirrors_iff`).
-/
import OpenVpnAndroid.LogBuffer

namespace OpenVpnAndroid

inductive LogFileMessage where
  | LOG_MESSAGE (logItem : LogObject)
  | TRIM_LOG_FILE
deriving DecidableEq, Repr

/-- The item that a message is about. -/
def LogFileMessage.logItem : LogFileMessage → Option LogObject
  | LOG_MESSAGE logItem => some logItem
  | TRIM_LOG_FILE => none

/-- What the handler finds when it reports an exception: the times of the two items,
    the number of the string and the stack trace. -/
structure LogFileReport where
  now : Int64
  now' : Int64
  unhandled_exception : Int32
  stackTrace : JavaString
deriving DecidableEq, Repr

structure LogFile where
  /-- the number of the next item -/
  next : Nat
  logbuffer : List LogObject
  queue : List LogFileMessage
  /-- the items whose records are in the file -/
  file : List LogObject
deriving DecidableEq, Repr

inductive LogFileEvent where
  /-- `VpnStatus.newLogItem` with a new item that is not from the cache -/
  | newLogItem (item : LoggedItem) (enforceUnique : Bool)
  | clearLog
  /-- the handler processes its next message -/
  | handleMessage (report : LogFileReport)

/-- `writeLogItemToDisk` does not throw.  The items have levels, so it is
    `BufferOverflowException` if it does. -/
def LogObject.Fits (o : LogObject) : Prop := o.item.getMarschaledBytes.isOk

instance (o : LogObject) : Decidable o.Fits := inferInstanceAs (Decidable (_ = true))

namespace LogFile

variable (s : LogFile)

def newLogItem (item : LogItem) (enforceUnique : Bool) : LogFile :=
  match VpnStatus.newLogItem s.logbuffer ⟨s.next, item⟩ false enforceUnique with
  | .error _ => s
  | .ok inserted =>
      { s with
        next := s.next + 1
        logbuffer := inserted.logbuffer
        queue := s.queue ++ [.LOG_MESSAGE ⟨s.next, item⟩]
          ++ if inserted.removed.isEmpty then [] else [.TRIM_LOG_FILE] }

def clearLog : LogFile :=
  { s with
    logbuffer := []
    queue := s.queue ++ [.TRIM_LOG_FILE] }

/-- The `catch` of `handleMessage`; the exception has no message. -/
def report (what : Nat) (r : LogFileReport) : LogFile :=
  (s.newLogItem ⟨none, some (JavaString.ofText (("Error during log cache: " : Text)
      ++ decimal what)), 0, some .ERROR, r.now, -1⟩ false).newLogItem
    ⟨some [.null, .string r.stackTrace], none, r.unhandled_exception, some .ERROR, r.now', -1⟩
    false

/-- The file is emptied, and the items are written up to the first one that throws. -/
def trimLogFile : LogFile :=
  { s with file := s.logbuffer.takeWhile fun o => o.Fits }

def handleMessage (r : LogFileReport) : LogFile :=
  match s.queue with
  | [] => s
  | .LOG_MESSAGE logItem :: queue =>
      if logItem.Fits then { s with queue := queue, file := s.file ++ [logItem] }
      else { s with queue := queue }.report 103 r
  | .TRIM_LOG_FILE :: queue =>
      if ∀ o ∈ s.logbuffer, o.Fits then { s with queue := queue }.trimLogFile
      else ({ s with queue := queue }.trimLogFile).report 100 r

def step : LogFileEvent → LogFile
  | .newLogItem item enforceUnique => s.newLogItem item.item enforceUnique
  | .clearLog => s.clearLog
  | .handleMessage r => s.handleMessage r

/-- The file has every item of the buffer that fits into a record, and none twice. -/
def Mirrors : Prop := (∀ o ∈ s.logbuffer, o.Fits → o ∈ s.file) ∧ s.file.Nodup

instance : Decidable s.Mirrors := inferInstanceAs (Decidable ((∀ o ∈ _, _ → _) ∧ _))

/-- The next step handles `TRIM_LOG_FILE`. -/
def Rewrites : LogFileEvent → Prop
  | .handleMessage _ => s.queue.head? = some .TRIM_LOG_FILE
  | _ => False

/-- No item that is rewritten has its message still to come, and every item that
    fits and is not rewritten has. -/
def RewritesExactly (_e : LogFileEvent) : Prop :=
  (∀ o ∈ s.logbuffer.takeWhile fun o => o.Fits, .LOG_MESSAGE o ∉ s.queue) ∧
    ∀ o ∈ s.logbuffer, o.Fits →
      (o ∈ s.logbuffer.takeWhile fun o => o.Fits) ∨ .LOG_MESSAGE o ∈ s.queue

end LogFile

/-- The handler is initialised, and buffer and file are empty. -/
def logFiles : Machine LogFile LogFileEvent where
  initial := ⟨0, [], [], []⟩
  step := LogFile.step

namespace LogFile

variable {s : LogFile}

/-! ### The messages about items -/

def pending (s : LogFile) : List LogObject := s.queue.filterMap LogFileMessage.logItem

theorem mem_pending {o : LogObject} : o ∈ s.pending ↔ .LOG_MESSAGE o ∈ s.queue := by
  rw [pending, List.mem_filterMap]
  constructor
  · rintro ⟨m, hm, hitem⟩
    cases m with
    | LOG_MESSAGE o' =>
        obtain rfl := Option.some.inj hitem
        exact hm
    | TRIM_LOG_FILE => cases hitem
  · exact fun h => ⟨_, h, rfl⟩

theorem pending_log {o : LogObject} {queue : List LogFileMessage}
    (h : s.queue = .LOG_MESSAGE o :: queue) :
    s.pending = o :: queue.filterMap LogFileMessage.logItem := by
  rw [pending, h]
  rfl

theorem pending_trim {queue : List LogFileMessage} (h : s.queue = .TRIM_LOG_FILE :: queue) :
    s.pending = queue.filterMap LogFileMessage.logItem := by
  rw [pending, h]
  rfl

/-- What the steps keep. -/
structure Consistent (s : LogFile) : Prop where
  numbered : ∀ o, o ∈ s.logbuffer ∨ o ∈ s.pending ∨ o ∈ s.file → o.number < s.next
  logbuffer : s.logbuffer.Nodup
  pending : s.pending.Nodup
  file : ∀ o ∈ s.file, o.Fits

/-- The file and the messages have every item that fits, and none twice. -/
structure Synced (s : LogFile) : Prop where
  covers : ∀ o ∈ s.logbuffer, o.Fits → o ∈ s.file ∨ o ∈ s.pending
  nodup : (s.file ++ s.pending).Nodup

/-- No rewriting is ahead. -/
def Untrimmed (s : LogFile) : Prop := .TRIM_LOG_FILE ∉ s.queue

/-! ### A new item -/

theorem newLogItem_error {item : LogItem} {enforceUnique : Bool} {e : LogItemException}
    (h : VpnStatus.newLogItem s.logbuffer ⟨s.next, item⟩ false enforceUnique = .error e) :
    s.newLogItem item enforceUnique = s := by
  rw [newLogItem, h]

section

variable {item : LogItem} {enforceUnique : Bool} {inserted : VpnStatus.Inserted}
  (h : VpnStatus.newLogItem s.logbuffer ⟨s.next, item⟩ false enforceUnique = .ok inserted)

include h

theorem logbuffer_newLogItem :
    (s.newLogItem item enforceUnique).logbuffer = inserted.logbuffer := by
  rw [newLogItem, h]

theorem file_newLogItem : (s.newLogItem item enforceUnique).file = s.file := by
  rw [newLogItem, h]

theorem next_newLogItem : (s.newLogItem item enforceUnique).next = s.next + 1 := by
  rw [newLogItem, h]

theorem queue_newLogItem :
    (s.newLogItem item enforceUnique).queue = s.queue ++ [.LOG_MESSAGE ⟨s.next, item⟩]
      ++ if inserted.removed.isEmpty then [] else [.TRIM_LOG_FILE] := by
  rw [newLogItem, h]

theorem pending_newLogItem :
    (s.newLogItem item enforceUnique).pending = s.pending ++ [⟨s.next, item⟩] := by
  rw [pending, queue_newLogItem h, List.filterMap_append, List.filterMap_append]
  split <;> simp [pending, LogFileMessage.logItem]

end

/-- What is ahead stays ahead. -/
theorem queue_newLogItem_subset (item : LogItem) (enforceUnique : Bool) :
    s.queue ⊆ (s.newLogItem item enforceUnique).queue := by
  cases h : VpnStatus.newLogItem s.logbuffer ⟨s.next, item⟩ false enforceUnique with
  | error e =>
      rw [newLogItem_error h]
      exact List.Subset.refl _
  | ok inserted =>
      rw [queue_newLogItem h, List.append_assoc]
      exact List.subset_append_left _ _

theorem Consistent.newLogItem (hs : Consistent s) (item : LogItem) (enforceUnique : Bool) :
    Consistent (s.newLogItem item enforceUnique) := by
  cases h : VpnStatus.newLogItem s.logbuffer ⟨s.next, item⟩ false enforceUnique with
  | error e =>
      rw [newLogItem_error h]
      exact hs
  | ok inserted =>
      have hfresh : ∀ o, o ∈ s.logbuffer ∨ o ∈ s.pending ∨ o ∈ s.file → o ≠ ⟨s.next, item⟩ := by
        rintro o ho rfl
        exact absurd (hs.numbered _ ho) (Nat.lt_irrefl _)
      constructor
      · intro o ho
        rw [logbuffer_newLogItem h, pending_newLogItem h, file_newLogItem h] at ho
        rw [next_newLogItem h]
        have hcases : (o ∈ s.logbuffer ∨ o ∈ s.pending ∨ o ∈ s.file) ∨ o = ⟨s.next, item⟩ := by
          rcases ho with ho | ho | ho
          · rcases VpnStatus.mem_newLogItem h ho with ho | ho
            · exact Or.inl (Or.inl ho)
            · exact Or.inr ho
          · rcases List.mem_append.mp ho with ho | ho
            · exact Or.inl (Or.inr (Or.inl ho))
            · exact Or.inr (List.mem_singleton.mp ho)
          · exact Or.inl (Or.inr (Or.inr ho))
        rcases hcases with ho | rfl
        · exact Nat.lt_succ_of_lt (hs.numbered o ho)
        · exact Nat.lt_succ_self _
      · rw [logbuffer_newLogItem h]
        exact VpnStatus.nodup_newLogItem h (fun hmem => hfresh _ (Or.inl hmem) rfl) hs.logbuffer
      · rw [pending_newLogItem h, List.nodup_append_comm, List.singleton_append, List.nodup_cons]
        exact ⟨fun hmem => hfresh _ (Or.inr (Or.inl hmem)) rfl, hs.pending⟩
      · rw [file_newLogItem h]
        exact hs.file

/-- A new item is in a message of its own.  Items that leave the buffer leave a message
    to rewrite the file. -/
theorem synced_newLogItem (hs : Consistent s) (item : LogItem) (enforceUnique : Bool)
    (huntrimmed : Untrimmed (s.newLogItem item enforceUnique)) :
    Synced (s.newLogItem item enforceUnique) ↔ Synced s := by
  cases h : VpnStatus.newLogItem s.logbuffer ⟨s.next, item⟩ false enforceUnique with
  | error e => rw [newLogItem_error h]
  | ok inserted =>
      have hfresh : (⟨s.next, item⟩ : LogObject) ∉ s.file ++ s.pending := by
        intro hmem
        have ho : (⟨s.next, item⟩ : LogObject) ∈ s.pending ∨ ⟨s.next, item⟩ ∈ s.file :=
          (List.mem_append.mp hmem).symm
        exact absurd (hs.numbered _ (Or.inr ho)) (Nat.lt_irrefl _)
      have hnodup : (s.file ++ (s.pending ++ [(⟨s.next, item⟩ : LogObject)])).Nodup ↔
          (s.file ++ s.pending).Nodup := by
        rw [← List.append_assoc, List.nodup_append_comm, List.singleton_append, List.nodup_cons]
        exact and_iff_right hfresh
      have hremoved : inserted.removed = [] := by
        by_contra hne
        apply huntrimmed
        rw [queue_newLogItem h, if_neg (by simpa using hne)]
        exact List.mem_append_right _ List.mem_cons_self
      have hmem : ∀ o ∈ s.logbuffer, o ∈ inserted.logbuffer :=
        VpnStatus.subset_newLogItem h hremoved
      constructor
      · rintro ⟨hcovers, hdup⟩
        rw [logbuffer_newLogItem h, pending_newLogItem h, file_newLogItem h] at hcovers
        rw [pending_newLogItem h, file_newLogItem h] at hdup
        refine ⟨fun o ho hfits => ?_, hnodup.mp hdup⟩
        rcases hcovers o (hmem o ho) hfits with hfile | hpending
        · exact Or.inl hfile
        · rcases List.mem_append.mp hpending with hpending | hnew
          · exact Or.inr hpending
          · obtain rfl := List.mem_singleton.mp hnew
            exact absurd (hs.numbered _ (Or.inl ho)) (Nat.lt_irrefl _)
      · rintro ⟨hcovers, hdup⟩
        constructor
        · rw [logbuffer_newLogItem h, pending_newLogItem h, file_newLogItem h]
          intro o ho hfits
          rcases VpnStatus.mem_newLogItem h ho with ho | rfl
          · rcases hcovers o ho hfits with hfile | hpending
            · exact Or.inl hfile
            · exact Or.inr (List.mem_append_left _ hpending)
          · exact Or.inr (List.mem_append_right _ List.mem_cons_self)
        · rw [pending_newLogItem h, file_newLogItem h]
          exact hnodup.mpr hdup

/-! ### The report of an exception -/

theorem queue_report_subset (what : Nat) (r : LogFileReport) :
    s.queue ⊆ (s.report what r).queue :=
  List.Subset.trans (queue_newLogItem_subset _ _) (queue_newLogItem_subset _ _)

theorem Consistent.report (hs : Consistent s) (what : Nat) (r : LogFileReport) :
    Consistent (s.report what r) :=
  (hs.newLogItem _ _).newLogItem _ _

theorem synced_report (hs : Consistent s) (what : Nat) (r : LogFileReport)
    (huntrimmed : Untrimmed (s.report what r)) : Synced (s.report what r) ↔ Synced s :=
  (synced_newLogItem (hs.newLogItem _ _) _ _ huntrimmed).trans
    (synced_newLogItem hs _ _ fun hmem => huntrimmed (queue_newLogItem_subset _ _ hmem))

/-! ### The messages -/

/-- An item was written. -/
theorem Consistent.written (hs : Consistent s) {o : LogObject} {queue : List LogFileMessage}
    (hqueue : s.queue = .LOG_MESSAGE o :: queue) (hfits : o.Fits) :
    Consistent { s with queue := queue, file := s.file ++ [o] } := by
  have hpending := pending_log hqueue
  refine ⟨fun o' ho' => ?_, hs.logbuffer, ?_, fun o' ho' => ?_⟩
  · apply hs.numbered o'
    rcases ho' with ho' | ho' | ho'
    · exact Or.inl ho'
    · exact Or.inr (Or.inl (hpending ▸ List.mem_cons_of_mem o ho'))
    · rcases List.mem_append.mp ho' with ho' | ho'
      · exact Or.inr (Or.inr ho')
      · rw [List.mem_singleton.mp ho']
        exact Or.inr (Or.inl (hpending ▸ List.mem_cons_self))
  · exact (List.nodup_cons.mp (hpending ▸ hs.pending)).2
  · rcases List.mem_append.mp ho' with ho' | ho'
    · exact hs.file o' ho'
    · rwa [List.mem_singleton.mp ho']

theorem synced_written {o : LogObject} {queue : List LogFileMessage}
    (hqueue : s.queue = .LOG_MESSAGE o :: queue) :
    Synced { s with queue := queue, file := s.file ++ [o] } ↔ Synced s := by
  have hpending := pending_log hqueue
  have hlist : s.file ++ s.pending =
      s.file ++ [o] ++ queue.filterMap LogFileMessage.logItem := by
    rw [hpending, List.append_assoc, List.singleton_append]
  have hmem : ∀ o' : LogObject, o' ∈ s.file ∨ o' ∈ s.pending ↔
      o' ∈ s.file ++ [o] ∨ o' ∈ queue.filterMap LogFileMessage.logItem := by
    intro o'
    rw [← List.mem_append, hlist, List.mem_append]
  constructor
  · rintro ⟨hcovers, hdup⟩
    exact ⟨fun o' ho' hfits => (hmem o').mpr (hcovers o' ho' hfits), hlist ▸ hdup⟩
  · rintro ⟨hcovers, hdup⟩
    exact ⟨fun o' ho' hfits => (hmem o').mp (hcovers o' ho' hfits), hlist ▸ hdup⟩

/-- An item was refused. -/
theorem Consistent.refused (hs : Consistent s) {o : LogObject} {queue : List LogFileMessage}
    (hqueue : s.queue = .LOG_MESSAGE o :: queue) : Consistent { s with queue := queue } := by
  have hpending := pending_log hqueue
  refine ⟨fun o' ho' => ?_, hs.logbuffer, ?_, hs.file⟩
  · apply hs.numbered o'
    rcases ho' with ho' | ho' | ho'
    · exact Or.inl ho'
    · exact Or.inr (Or.inl (hpending ▸ List.mem_cons_of_mem o ho'))
    · exact Or.inr (Or.inr ho')
  · exact (List.nodup_cons.mp (hpending ▸ hs.pending)).2

theorem synced_refused (hs : Consistent s) {o : LogObject} {queue : List LogFileMessage}
    (hqueue : s.queue = .LOG_MESSAGE o :: queue) (hfits : ¬ o.Fits) :
    Synced { s with queue := queue } ↔ Synced s := by
  have hpending := pending_log hqueue
  have hnodup : (s.file ++ s.pending).Nodup ↔
      (s.file ++ queue.filterMap LogFileMessage.logItem).Nodup := by
    have hhead := (List.nodup_cons.mp (hpending ▸ hs.pending)).1
    rw [hpending, List.nodup_middle, List.nodup_cons, List.mem_append, not_or]
    exact and_iff_right ⟨fun hmem => hfits (hs.file o hmem), hhead⟩
  have hmem : ∀ o' : LogObject, o'.Fits → (o' ∈ s.pending ↔
      o' ∈ queue.filterMap LogFileMessage.logItem) := by
    intro o' hfits'
    rw [hpending, List.mem_cons]
    exact or_iff_right fun heq => hfits (heq ▸ hfits')
  constructor
  · rintro ⟨hcovers, hdup⟩
    exact ⟨fun o' ho' hf => (hcovers o' ho' hf).imp_right (hmem o' hf).mpr, hnodup.mpr hdup⟩
  · rintro ⟨hcovers, hdup⟩
    exact ⟨fun o' ho' hf => (hcovers o' ho' hf).imp_right (hmem o' hf).mp, hnodup.mp hdup⟩

/-- The file was rewritten. -/
theorem Consistent.trimLogFile (hs : Consistent s) {queue : List LogFileMessage}
    (hqueue : s.queue = .TRIM_LOG_FILE :: queue) :
    Consistent { s with queue := queue }.trimLogFile := by
  have hpending := pending_trim hqueue
  have hmem : ∀ o ∈ queue.filterMap LogFileMessage.logItem, o ∈ s.pending :=
    fun o ho => hpending ▸ ho
  have hnodup := hs.pending
  rw [hpending] at hnodup
  refine ⟨fun o ho => ?_, hs.logbuffer, hnodup, fun o ho => ?_⟩
  · apply hs.numbered o
    rcases ho with ho | ho | ho
    · exact Or.inl ho
    · exact Or.inr (Or.inl (hmem o ho))
    · exact Or.inl (List.takeWhile_subset _ ho)
  · have hwritten : o ∈ s.logbuffer.takeWhile fun o => o.Fits := ho
    have hdecide : decide o.Fits = true :=
      List.mem_takeWhile_imp (p := fun o : LogObject => decide o.Fits) hwritten
    exact of_decide_eq_true hdecide

theorem synced_trimLogFile (hs : Consistent s) {queue : List LogFileMessage}
    (hqueue : s.queue = .TRIM_LOG_FILE :: queue) (e : LogFileEvent) :
    Synced { s with queue := queue }.trimLogFile ↔ s.RewritesExactly e := by
  have hpending : { s with queue := queue }.trimLogFile.pending = s.pending :=
    (pending_trim hqueue).symm
  have hrewritten : (s.logbuffer.takeWhile fun o => o.Fits).Nodup :=
    hs.logbuffer.sublist (List.takeWhile_sublist _)
  have hnodup : ((s.logbuffer.takeWhile fun o => o.Fits) ++ s.pending).Nodup ↔
      ∀ o ∈ s.logbuffer.takeWhile fun o => o.Fits, .LOG_MESSAGE o ∉ s.queue := by
    rw [List.nodup_append', and_iff_right hrewritten, and_iff_right hs.pending]
    exact forall₂_congr fun o _ => not_congr mem_pending
  rw [RewritesExactly, ← hnodup]
  constructor
  · rintro ⟨hcovers, hdup⟩
    rw [hpending] at hcovers hdup
    exact ⟨hdup, fun o ho hfits => (hcovers o ho hfits).imp_right mem_pending.mp⟩
  · rintro ⟨hdup, hcovers⟩
    constructor
    · rw [hpending]
      exact fun o ho hfits => (hcovers o ho hfits).imp_right mem_pending.mpr
    · rw [hpending]
      exact hdup

/-! ### Runs -/

theorem Consistent.handleMessage (hs : Consistent s) (r : LogFileReport) :
    Consistent (s.handleMessage r) := by
  rw [LogFile.handleMessage]
  split
  · exact hs
  · rename_i logItem queue hqueue
    split
    · rename_i hfits
      exact hs.written hqueue hfits
    · exact (hs.refused hqueue).report 103 r
  · rename_i queue hqueue
    split
    · exact hs.trimLogFile hqueue
    · exact (hs.trimLogFile hqueue).report 100 r

theorem Consistent.step (hs : Consistent s) (e : LogFileEvent) : Consistent (s.step e) := by
  cases e with
  | newLogItem item enforceUnique => exact hs.newLogItem item.item enforceUnique
  | handleMessage r => exact hs.handleMessage r
  | clearLog =>
      have hpending : s.clearLog.pending = s.pending := by
        rw [LogFile.pending, clearLog, List.filterMap_append]
        exact List.append_nil _
      refine ⟨fun o ho => hs.numbered o ?_, List.nodup_nil, ?_, hs.file⟩
      · rcases ho with ho | ho | ho
        · cases ho
        · exact Or.inr (Or.inl (hpending ▸ ho))
        · exact Or.inr (Or.inr ho)
      · show s.clearLog.pending.Nodup
        rw [hpending]
        exact hs.pending

theorem consistent_run (es : List LogFileEvent) : Consistent (logFiles.run es) := by
  refine Machine.invariant ?_ (fun _ e h => h.step e) es
  refine ⟨fun o ho => ?_, List.nodup_nil, List.nodup_nil, fun _ ho => nomatch ho⟩
  rcases ho with ho | ho | ho <;> cases ho

/-- A message to rewrite the file stays until it is handled. -/
theorem untrimmed_of_step (e : LogFileEvent) (hnot : ¬ s.Rewrites e)
    (h : Untrimmed (s.step e)) : Untrimmed s := by
  intro hmem
  apply h
  cases e with
  | newLogItem item enforceUnique => exact queue_newLogItem_subset _ _ hmem
  | clearLog => exact List.mem_append_left _ hmem
  | handleMessage r =>
      rw [step, handleMessage]
      split
      · exact hmem
      · rename_i logItem queue hqueue
        have hrest : .TRIM_LOG_FILE ∈ queue := by
          rw [hqueue] at hmem
          rcases List.mem_cons.mp hmem with heq | hmem
          · cases heq
          · exact hmem
        split
        · exact hrest
        · exact queue_report_subset 103 r hrest
      · rename_i queue hqueue
        exact absurd (by rw [Rewrites, hqueue]; rfl) hnot

/-- The other steps keep file and messages as good as they are. -/
theorem synced_step (hs : Consistent s) (e : LogFileEvent) (hnot : ¬ s.Rewrites e)
    (h : Untrimmed (s.step e)) : Synced (s.step e) ↔ Synced s := by
  cases e with
  | newLogItem item enforceUnique => exact synced_newLogItem hs item.item enforceUnique h
  | clearLog => exact absurd (List.mem_append_right _ List.mem_cons_self) h
  | handleMessage r =>
      rw [step, handleMessage] at h ⊢
      split at h
      · exact Iff.rfl
      · rename_i logItem queue hqueue
        split at h
        · rename_i hfits
          rw [if_pos hfits]
          exact synced_written hqueue
        · rename_i hfits
          rw [if_neg hfits]
          exact (synced_report (hs.refused hqueue) 103 r h).trans (synced_refused hs hqueue hfits)
      · rename_i queue hqueue
        exact absurd (by rw [Rewrites, hqueue]; rfl) hnot

theorem synced_rewrites (hs : Consistent s) (e : LogFileEvent) (hrewrites : s.Rewrites e)
    (h : Untrimmed (s.step e)) : Synced (s.step e) ↔ s.RewritesExactly e := by
  cases e with
  | newLogItem item enforceUnique => exact hrewrites.elim
  | clearLog => exact hrewrites.elim
  | handleMessage r =>
      obtain ⟨queue, hqueue⟩ : ∃ queue, s.queue = .TRIM_LOG_FILE :: queue :=
        List.head?_eq_some_iff.mp hrewrites
      rw [← synced_trimLogFile hs hqueue]
      rw [step, handleMessage, hqueue] at h ⊢
      dsimp only at h ⊢
      split at h
      · rename_i hall
        rw [if_pos hall]
      · rename_i hall
        rw [if_neg hall]
        exact synced_report (hs.trimLogFile hqueue) 100 r h

theorem mirrors_eq (h : s.queue = []) : s.Mirrors ↔ Synced s := by
  have hpending : s.pending = [] := by
    rw [pending, h]
    rfl
  constructor
  · rintro ⟨hcovers, hdup⟩
    refine ⟨fun o ho hfits => Or.inl (hcovers o ho hfits), ?_⟩
    rwa [hpending, List.append_nil]
  · rintro ⟨hcovers, hdup⟩
    rw [hpending] at hcovers hdup
    rw [List.append_nil] at hdup
    exact ⟨fun o ho hfits => (hcovers o ho hfits).resolve_right List.not_mem_nil, hdup⟩

end LogFile

/-- A line. -/
def shortLine : LoggedItem where
  item := ⟨none, some (JavaString.ofText "line"), 0, some .INFO, 1000, -1⟩
  level := .INFO
  hasLevel := rfl

/-- The buffer is cleared, and an item is logged before the handler gets to it. -/
def clearAndLog : List LogFileEvent :=
  [.clearLog, .newLogItem shortLine false, .handleMessage ⟨2000, 2000, 1, []⟩,
    .handleMessage ⟨2000, 2000, 1, []⟩]

end OpenVpnAndroid
