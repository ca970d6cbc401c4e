/-
  OpenVpnAndroid/LogBuffer.lean
  =============================
  **The log buffer of `VpnStatus`.**

  `newLogItem` inserts an item by its log time, or in front of the buffer if it comes
  from the cache, and takes the first items out of a buffer of more than 1500.

  A cache file is read from its oldest item on, so its items come into the buffer in
  the reverse order.  The buffer stays in order in exactly the runs in which an item
  from the cache is never newer than the items behind it (`retained_iff`).
-/
import OpenVpnAndroid.LogTruncation
import OpenVpnAndroid.Machine

namespace OpenVpnAndroid

/-- A `LogItem` object.  Two objects are different also if the items are equal. -/
structure LogObject where
  number : Nat
  item : LogItem
deriving DecidableEq, Repr

namespace LogObject

def getLogtime (o : LogObject) : Int64 := o.item.getLogtime

end LogObject

namespace VpnStatus

/-- `enforceUnique && laterLogItem.equals(logItem)` -/
def identical (enforceUnique : Bool) (laterLogItem logItem : LogObject) :
    Except LogItemException Bool :=
  if enforceUnique then laterLogItem.item.equals logItem.item else return false

/-- The loop of `insertLogItemByLogTime`. -/
def insertFrom (logItem : LogObject) (enforceUnique : Bool) :
    List LogObject → Except LogItemException (List LogObject)
  | [] => return [logItem]
  | laterLogItem :: itr => do
      if ← identical enforceUnique laterLogItem logItem then return laterLogItem :: itr
      else if laterLogItem.getLogtime > logItem.getLogtime then
        return logItem :: laterLogItem :: itr
      else return laterLogItem :: (← insertFrom logItem enforceUnique itr)

def insertLogItemByLogTime (logbuffer : List LogObject) (logItem : LogObject)
    (enforceUnique : Bool) : Except LogItemException (List LogObject) :=
  match logbuffer.getLast? with
  | some last =>
      if last.getLogtime ≤ logItem.getLogtime then return logbuffer ++ [logItem]
      else insertFrom logItem enforceUnique logbuffer
  | none => insertFrom logItem enforceUnique logbuffer

/-- The buffer behind `newLogItem`, and the items that it removed. -/
structure Inserted where
  logbuffer : List LogObject
  removed : List LogObject
deriving DecidableEq, Repr

/-- The calls of `removeFirst`. -/
def trim (logbuffer : List LogObject) : Inserted :=
  if logbuffer.length > MAXLOGENTRIES + MAXLOGENTRIES / 2 then
    ⟨logbuffer.drop (logbuffer.length - MAXLOGENTRIES),
      logbuffer.take (logbuffer.length - MAXLOGENTRIES)⟩
  else ⟨logbuffer, []⟩

/-- `newLogItem`; an exception leaves the buffer as it is. -/
def newLogItem (logbuffer : List LogObject) (logItem : LogObject)
    (cachedLine enforceUnique : Bool) : Except LogItemException Inserted := do
  let inserted ←
    if cachedLine then pure (logItem :: logbuffer)
    else insertLogItemByLogTime logbuffer logItem enforceUnique
  return trim inserted

end VpnStatus

/-! ### Runs -/

/-- A call of `VpnStatus` that changes the buffer. -/
inductive LogCall where
  | newLogItem (logItem : LogObject) (cachedLine enforceUnique : Bool)
  | clearLog
deriving DecidableEq, Repr

namespace VpnStatus

def apply (logbuffer : List LogObject) : LogCall → Inserted
  | .newLogItem logItem cachedLine enforceUnique =>
      match newLogItem logbuffer logItem cachedLine enforceUnique with
      | .ok inserted => inserted
      | .error _ => ⟨logbuffer, []⟩
  | .clearLog => ⟨[], []⟩

/-- The buffer over a run of calls. -/
def logBuffers : Machine (List LogObject) LogCall where
  initial := []
  step logbuffer call := (apply logbuffer call).logbuffer

/-- `VpnStatus.logDebug(msg)` or `logError(msg)` at some time. -/
def logMessage (number : Nat) (level : LogLevel) (msg : Text) (now : Int64) : LogCall :=
  .newLogItem ⟨number, ⟨none, some (JavaString.ofText msg), 0, some level, now, -1⟩⟩ false false

/-- The calls that reading a cache file makes.  `reread_log` is the number of that
    string; the clock is read at each call. -/
def cacheCalls (reread_log : Int32) (clock : Nat → Int64) (file : List UInt8) : List LogCall :=
  let events := (LogFileHandler.readCacheContents LogFileHandler.restores file).1
  events.zipIdx.flatMap fun (event, n) =>
    match event with
    | .restoreLogItem buf len =>
        match LogFileHandler.restoreLogItem buf len with
        | .ok (.newLogItem li) => [.newLogItem ⟨n, li⟩ true false]
        | .ok (.logError msg) => [logMessage n .ERROR msg (clock n)]
        | .error _ => []
    | .logDebug msg => [logMessage n .DEBUG msg (clock n)]
    | .logError msg => [logMessage n .ERROR msg (clock n)]
    | .reread itemsRead =>
        [.newLogItem ⟨n, ⟨some [.integer (Int32.ofNat itemsRead)], none, reread_log,
          some .DEBUG, clock n, -1⟩⟩ false false]

/-- What the buffer promises. -/
structure Retained (logbuffer : List LogObject) : Prop where
  sorted : logbuffer.Pairwise fun o o' => o.getLogtime ≤ o'.getLogtime
  size : logbuffer.length ≤ 1500

/-- What the call removes is not later than what it keeps. -/
def TrimsOldest (logbuffer : List LogObject) (call : LogCall) : Prop :=
  ∀ o ∈ (apply logbuffer call).removed, ∀ o' ∈ (apply logbuffer call).logbuffer,
    o.getLogtime ≤ o'.getLogtime

/-- An item from the cache is not later than the items that stay in the buffer. -/
def CachedInOrder (logbuffer : List LogObject) : LogCall → Prop
  | .newLogItem logItem true _ =>
      ∀ o ∈ logbuffer.drop (if logbuffer.length = 1500 then 500 else 0),
        logItem.getLogtime ≤ o.getLogtime
  | .newLogItem _ false _ => True
  | .clearLog => True

/-! ### Insertion -/

theorem insertFrom_eq {logItem : LogObject} {enforceUnique : Bool} {l r : List LogObject}
    (h : insertFrom logItem enforceUnique l = .ok r) :
    r = l ∨ ∃ before after, l = before ++ after ∧ r = before ++ logItem :: after ∧
      (∀ o ∈ before, o.getLogtime ≤ logItem.getLogtime) ∧
      ∀ o ∈ after.head?, logItem.getLogtime ≤ o.getLogtime := by
  induction l generalizing r with
  | nil =>
      cases h
      exact Or.inr ⟨[], [], rfl, rfl, fun _ ho => (nomatch ho), fun _ ho => (nomatch ho)⟩
  | cons later itr ih =>
      rw [insertFrom] at h
      cases hidentical : identical enforceUnique later logItem with
      | error e =>
          rw [hidentical] at h
          cases h
      | ok same =>
          rw [hidentical] at h
          change (if same then pure (later :: itr) else _) = Except.ok r at h
          split at h
          · cases h
            exact Or.inl rfl
          · split at h
            · rename_i hlater
              cases h
              refine Or.inr ⟨[], later :: itr, rfl, rfl, fun _ ho => (nomatch ho), ?_⟩
              rintro o ho
              obtain rfl := Option.some.inj ho
              exact Int64.le_of_lt hlater
            · rename_i hnot
              cases hrest : insertFrom logItem enforceUnique itr with
              | error e =>
                  rw [hrest] at h
                  cases h
              | ok rest =>
                  rw [hrest] at h
                  cases h
                  rcases ih hrest with rfl | ⟨before, after, rfl, rfl, hbefore, hafter⟩
                  · exact Or.inl rfl
                  · refine Or.inr ⟨later :: before, after, rfl, rfl, ?_, hafter⟩
                    intro o ho
                    rcases List.mem_cons.mp ho with rfl | ho
                    · exact Int64.not_lt.mp hnot
                    · exact hbefore o ho

/-- The item comes between two parts of the buffer, or not at all. -/
theorem insertLogItemByLogTime_eq {logItem : LogObject} {enforceUnique : Bool}
    {l r : List LogObject} (h : insertLogItemByLogTime l logItem enforceUnique = .ok r) :
    r = l ∨ ∃ before after, l = before ++ after ∧ r = before ++ logItem :: after ∧
      (l.Pairwise (fun o o' => o.getLogtime ≤ o'.getLogtime) →
        (∀ o ∈ before, o.getLogtime ≤ logItem.getLogtime) ∧
        ∀ o ∈ after, logItem.getLogtime ≤ o.getLogtime) := by
  have hfrom : insertFrom logItem enforceUnique l = .ok r → r = l ∨ ∃ before after,
      l = before ++ after ∧ r = before ++ logItem :: after ∧
      (l.Pairwise (fun o o' => o.getLogtime ≤ o'.getLogtime) →
        (∀ o ∈ before, o.getLogtime ≤ logItem.getLogtime) ∧
        ∀ o ∈ after, logItem.getLogtime ≤ o.getLogtime) := by
    intro h
    rcases insertFrom_eq h with rfl | ⟨before, after, rfl, rfl, hbefore, hafter⟩
    · exact Or.inl rfl
    · refine Or.inr ⟨before, after, rfl, rfl, fun hsorted => ⟨hbefore, ?_⟩⟩
      have hpair := (List.pairwise_append.mp hsorted).2.1
      cases after with
      | nil => exact fun _ ho => nomatch ho
      | cons first after =>
          intro o ho
          have hfirst := hafter first rfl
          rcases List.mem_cons.mp ho with rfl | ho
          · exact hfirst
          · exact Int64.le_trans hfirst ((List.pairwise_cons.mp hpair).1 o ho)
  rw [insertLogItemByLogTime] at h
  cases hlast : l.getLast? with
  | none =>
      rw [hlast] at h
      exact hfrom h
  | some last =>
      rw [hlast] at h
      dsimp only at h
      split at h
      · rename_i hle
        cases h
        refine Or.inr ⟨l, [], (List.append_nil l).symm, rfl, fun hsorted => ⟨?_, ?_⟩⟩
        · obtain ⟨front, rfl⟩ := List.getLast?_eq_some_iff.mp hlast
          intro o ho
          rcases List.mem_append.mp ho with ho | ho
          · have hpair := (List.pairwise_append.mp hsorted).2.2 o ho last List.mem_cons_self
            exact Int64.le_trans hpair hle
          · obtain rfl := List.mem_singleton.mp ho
            exact hle
        · exact fun _ ho => nomatch ho
      · exact hfrom h

theorem sorted_insert {logItem : LogObject} {enforceUnique : Bool} {l r : List LogObject}
    (h : insertLogItemByLogTime l logItem enforceUnique = .ok r)
    (hsorted : l.Pairwise fun o o' => o.getLogtime ≤ o'.getLogtime) :
    r.Pairwise fun o o' => o.getLogtime ≤ o'.getLogtime := by
  rcases insertLogItemByLogTime_eq h with rfl | ⟨before, after, rfl, rfl, horder⟩
  · exact hsorted
  · obtain ⟨hbefore, hafter⟩ := horder hsorted
    obtain ⟨hfront, hback, hacross⟩ := List.pairwise_append.mp hsorted
    refine List.pairwise_append.mpr ⟨hfront, List.pairwise_cons.mpr ⟨hafter, hback⟩, ?_⟩
    intro o ho o' ho'
    rcases List.mem_cons.mp ho' with rfl | ho'
    · exact hbefore o ho
    · exact hacross o ho o' ho'

theorem length_insert {logItem : LogObject} {enforceUnique : Bool} {l r : List LogObject}
    (h : insertLogItemByLogTime l logItem enforceUnique = .ok r) : r.length ≤ l.length + 1 := by
  rcases insertLogItemByLogTime_eq h with rfl | ⟨before, after, rfl, rfl, -⟩
  · exact Nat.le_succ _
  · simp only [List.length_append, List.length_cons]
    omega

/-! ### Trimming -/

theorem trim_eq {l : List LogObject} (h : l.length ≤ 1501) :
    trim l = ⟨l.drop (if l.length = 1501 then 501 else 0),
      l.take (if l.length = 1501 then 501 else 0)⟩ := by
  rw [trim, show MAXLOGENTRIES + MAXLOGENTRIES / 2 = 1500 from rfl,
    show MAXLOGENTRIES = 1000 from rfl]
  by_cases hfull : l.length = 1501
  · rw [hfull]
    rfl
  · rw [if_neg (by omega), if_neg hfull, List.drop_zero, List.take_zero]

theorem length_trim {l : List LogObject} (h : l.length ≤ 1501) :
    (trim l).logbuffer.length ≤ 1500 := by
  rw [trim_eq h, List.length_drop]
  split <;> omega

/-- A part of a buffer in order, and the part in front of it. -/
theorem sorted_trim {l : List LogObject} (h : l.length ≤ 1501)
    (hsorted : l.Pairwise fun o o' => o.getLogtime ≤ o'.getLogtime) :
    Retained (trim l).logbuffer ∧
      ∀ o ∈ (trim l).removed, ∀ o' ∈ (trim l).logbuffer, o.getLogtime ≤ o'.getLogtime := by
  have hsplit := hsorted
  rw [← List.take_append_drop (if l.length = 1501 then 501 else 0) l] at hsplit
  refine ⟨⟨?_, length_trim h⟩, ?_⟩
  · rw [trim_eq h]
    exact hsorted.sublist (List.drop_sublist _ _)
  · rw [trim_eq h]
    exact (List.pairwise_append.mp hsplit).2.2

theorem trim_append (l : List LogObject) : (trim l).removed ++ (trim l).logbuffer = l := by
  unfold trim
  generalize MAXLOGENTRIES = n
  split
  · exact List.take_append_drop _ _
  · rfl

theorem trim_sublist (l : List LogObject) : (trim l).logbuffer.Sublist l := by
  have h := List.sublist_append_right (trim l).removed (trim l).logbuffer
  rwa [trim_append] at h

/-- What `newLogItem` inserts, before it trims. -/
theorem newLogItem_eq {l : List LogObject} {logItem : LogObject} {cachedLine enforceUnique : Bool}
    {r : Inserted} (h : newLogItem l logItem cachedLine enforceUnique = .ok r) :
    ∃ inserted, r = trim inserted ∧
      (inserted = l ∨ ∃ before after, l = before ++ after ∧
        inserted = before ++ logItem :: after) := by
  rw [newLogItem] at h
  cases cachedLine with
  | true =>
      cases h
      exact ⟨logItem :: l, rfl, Or.inr ⟨[], l, rfl, rfl⟩⟩
  | false =>
      cases hinsert : insertLogItemByLogTime l logItem enforceUnique with
      | error e =>
          rw [hinsert] at h
          cases h
      | ok inserted =>
          rw [hinsert] at h
          cases h
          refine ⟨inserted, rfl, ?_⟩
          rcases insertLogItemByLogTime_eq hinsert with heq | ⟨before, after, hl, hr, -⟩
          · exact Or.inl heq
          · exact Or.inr ⟨before, after, hl, hr⟩

theorem mem_newLogItem {l : List LogObject} {logItem o : LogObject}
    {cachedLine enforceUnique : Bool} {r : Inserted}
    (h : newLogItem l logItem cachedLine enforceUnique = .ok r) (ho : o ∈ r.logbuffer) :
    o ∈ l ∨ o = logItem := by
  obtain ⟨inserted, rfl, hinserted⟩ := newLogItem_eq h
  have hmem := (trim_sublist inserted).subset ho
  rcases hinserted with rfl | ⟨before, after, rfl, rfl⟩
  · exact Or.inl hmem
  · simp only [List.mem_append, List.mem_cons] at hmem ⊢
    tauto

/-- Where nothing is removed, everything stays. -/
theorem subset_newLogItem {l : List LogObject} {logItem : LogObject}
    {cachedLine enforceUnique : Bool} {r : Inserted}
    (h : newLogItem l logItem cachedLine enforceUnique = .ok r) (hremoved : r.removed = []) :
    l ⊆ r.logbuffer := by
  obtain ⟨inserted, rfl, hinserted⟩ := newLogItem_eq h
  have hsplit := trim_append inserted
  rw [hremoved, List.nil_append] at hsplit
  rw [hsplit]
  rcases hinserted with rfl | ⟨before, after, rfl, rfl⟩
  · exact List.Subset.refl _
  · intro o ho
    simp only [List.mem_append, List.mem_cons] at ho ⊢
    tauto

theorem nodup_newLogItem {l : List LogObject} {logItem : LogObject}
    {cachedLine enforceUnique : Bool} {r : Inserted}
    (h : newLogItem l logItem cachedLine enforceUnique = .ok r) (hnew : logItem ∉ l)
    (hnodup : l.Nodup) : r.logbuffer.Nodup := by
  obtain ⟨inserted, rfl, hinserted⟩ := newLogItem_eq h
  refine List.Nodup.sublist (trim_sublist inserted) ?_
  rcases hinserted with rfl | ⟨before, after, rfl, rfl⟩
  · exact hnodup
  · rw [List.nodup_middle, List.nodup_cons]
    exact ⟨hnew, hnodup⟩

/-! ### Order and retention -/

theorem apply_cached (logbuffer : List LogObject) (logItem : LogObject) (enforceUnique : Bool) :
    apply logbuffer (.newLogItem logItem true enforceUnique) = trim (logItem :: logbuffer) := rfl

theorem trim_cached (logItem : LogObject) {logbuffer : List LogObject} (h : Retained logbuffer) :
    (Retained (trim (logItem :: logbuffer)).logbuffer ∧
        ∀ o ∈ (trim (logItem :: logbuffer)).removed,
          ∀ o' ∈ (trim (logItem :: logbuffer)).logbuffer, o.getLogtime ≤ o'.getLogtime) ↔
      ∀ o ∈ logbuffer.drop (if logbuffer.length = 1500 then 500 else 0),
        logItem.getLogtime ≤ o.getLogtime := by
  have hlength : (logItem :: logbuffer).length ≤ 1501 := Nat.succ_le_succ h.size
  rw [trim_eq hlength, List.length_cons]
  by_cases hfull : logbuffer.length = 1500
  · -- the item itself goes with the 500 oldest
    rw [if_pos (by rw [hfull]), if_pos hfull, List.drop_succ_cons, List.take_succ_cons]
    constructor
    · rintro ⟨-, htrims⟩ o ho
      exact htrims logItem List.mem_cons_self o ho
    · intro horder
      refine ⟨⟨h.sorted.sublist (List.drop_sublist _ _), ?_⟩, fun o ho o' ho' => ?_⟩
      · rw [List.length_drop, hfull]
        decide
      · rcases List.mem_cons.mp ho with rfl | ho
        · exact horder o' ho'
        · have hsplit := h.sorted
          rw [← List.take_append_drop 500 logbuffer] at hsplit
          exact (List.pairwise_append.mp hsplit).2.2 o ho o' ho'
  · rw [if_neg (fun heq => hfull (Nat.succ_injective heq)), if_neg hfull, List.drop_zero,
      List.drop_zero, List.take_zero]
    constructor
    · rintro ⟨hretained, -⟩
      exact (List.pairwise_cons.mp hretained.sorted).1
    · intro horder
      refine ⟨⟨List.pairwise_cons.mpr ⟨horder, h.sorted⟩, ?_⟩, fun _ ho => nomatch ho⟩
      have hsize := h.size
      rw [List.length_cons]
      omega

theorem step_retained (logbuffer : List LogObject) (call : LogCall) (h : Retained logbuffer) :
    Retained (logBuffers.step logbuffer call) ∧ TrimsOldest logbuffer call ↔
      CachedInOrder logbuffer call := by
  cases call with
  | clearLog =>
      exact iff_of_true ⟨⟨List.Pairwise.nil, Nat.zero_le _⟩, fun _ ho => nomatch ho⟩ trivial
  | newLogItem logItem cachedLine enforceUnique =>
      cases cachedLine with
      | false =>
          refine iff_of_true ?_ trivial
          rw [TrimsOldest]
          show Retained (apply _ _).logbuffer ∧ _
          rw [apply, newLogItem]
          cases hinsert : insertLogItemByLogTime logbuffer logItem enforceUnique with
          | error e => exact ⟨h, fun _ ho => nomatch ho⟩
          | ok inserted =>
              exact sorted_trim (Nat.le_trans (length_insert hinsert) (Nat.succ_le_succ h.size))
                (sorted_insert hinsert h.sorted)
      | true =>
          rw [TrimsOldest, CachedInOrder]
          show Retained (apply _ _).logbuffer ∧ _ ↔ _
          rw [apply_cached]
          exact trim_cached logItem h

/-- In every run the buffer is in order and has 1500 items at most, and the items that
    are removed are the oldest, if the items from the cache come in order. -/
theorem retained_iff (calls : List LogCall) :
    (∀ before after, calls = before ++ after → Retained (logBuffers.run before)) ∧
        logBuffers.EveryStep TrimsOldest calls ↔
      logBuffers.EveryStep CachedInOrder calls :=
  Machine.everyState_and_everyStep_iff ⟨List.Pairwise.nil, Nat.zero_le _⟩
    (fun logbuffer call h => step_retained logbuffer call h) calls

/-! ### A file in order -/

/-- A line of the cache file. -/
def line (logtime : Int64) : LogFileHandler.CachedItem where
  item := ⟨none, some (JavaString.ofText "line"), 0, some .INFO, logtime, -1⟩
  bytes := LogItem.marschaled ⟨none, some (JavaString.ofText "line"), 0, some .INFO, logtime, -1⟩
    .INFO
  encodes := rfl
  verified := rfl

theorem readable_line (logtime : Int64) : (line logtime).item.Readable :=
  ⟨Nat.zero_le _, fun h => nomatch h.1⟩

/-- The older line is read first. -/
theorem cacheCalls_lines (reread_log : Int32) (clock : Nat → Int64) (time time' : Int64) :
    cacheCalls reread_log clock (LogFileHandler.cacheFile [line time, line time']) =
      [.newLogItem ⟨0, (line time).item.recorded⟩ true false,
        .newLogItem ⟨1, (line time').item.recorded⟩ true false] ++
      [.newLogItem ⟨2, ⟨some [.integer 2], none, reread_log, some .DEBUG, clock 2, -1⟩⟩
        false false] := by
  have hfits : ∀ bytes ∈ [line time, line time'].map (·.bytes),
      bytes.length ≤ LogFileHandler.BUFFER_LENGTH := by
    intro bytes hbytes
    obtain ⟨x, -, rfl⟩ := List.mem_map.mp hbytes
    exact x.fits
  have hrestores : ∀ bytes ∈ [line time, line time'].map (·.bytes),
      LogFileHandler.restores (LogFileHandler.buf2 bytes) bytes.length = none := by
    intro bytes hbytes
    simp only [List.map_cons, List.map_nil, List.mem_cons, List.not_mem_nil, or_false] at hbytes
    rcases hbytes with rfl | rfl
    · exact (LogFileHandler.added_readable (readable_line time)).1
    · exact (LogFileHandler.added_readable (readable_line time')).1
  have hcount : ([line time, line time'].map (·.bytes)).length ≤ 2 * MAXLOGENTRIES := by
    rw [List.length_map]
    exact Nat.le_of_ble_eq_true rfl
  have hread := LogFileHandler.readCacheContents_records LogFileHandler.restores _
    hcount hfits hrestores
  rw [LogFileHandler.flatMap_bytes] at hread
  rw [cacheCalls, hread]
  simp only [List.map_cons, List.map_nil, List.cons_append, List.nil_append, List.zipIdx_cons,
    List.zipIdx_nil, List.flatMap_cons, List.flatMap_nil,
    LogFileHandler.restoreLogItem_readable (readable_line time),
    LogFileHandler.restoreLogItem_readable (readable_line time')]
  rfl

/-- A file in order leaves the buffer in the reverse order. -/
theorem not_retained_cacheCalls :
    ¬ ((∀ before after,
          cacheCalls 0 (fun _ => 3000) (LogFileHandler.cacheFile [line 1000, line 2000]) =
            before ++ after → Retained (logBuffers.run before)) ∧
        logBuffers.EveryStep TrimsOldest
          (cacheCalls 0 (fun _ => 3000) (LogFileHandler.cacheFile [line 1000, line 2000]))) := by
  rintro ⟨h, -⟩
  have hsorted := (h _ _ (cacheCalls_lines 0 (fun _ => 3000) 1000 2000)).sorted
  have hpair : (2000 : Int64) ≤ 1000 :=
    (List.pairwise_cons.mp hsorted).1 ⟨0, (line 1000).item.recorded⟩ List.mem_cons_self
  exact absurd hpair (by decide)

end VpnStatus

end OpenVpnAndroid
