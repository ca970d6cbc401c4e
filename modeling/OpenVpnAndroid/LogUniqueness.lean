/-
  OpenVpnAndroid/LogUniqueness.lean
  =================================
  **`newLogItemIfUnique`.**

  The loop of `insertLogItemByLogTime` compares the new item with the items of the
  buffer up to the first later one, and leaves the buffer alone if one is equal.
  Items that are not older than the last one of the buffer never come to the loop:
  they are appended whether they are in the buffer or not.  The comparison itself
  calls a method on the message of the item in the buffer, which may be `null`.

  `uniquelyInserted_iff` says in which buffers an item is inserted once.
-/
import OpenVpnAndroid.LogBuffer

namespace OpenVpnAndroid

namespace LogItem

/-- All fields are equal, arrays and arguments by their `equals`. -/
def FieldEqual (li other : LogItem) : Prop :=
  argsEqual li.mArgs other.mArgs = true ∧ li.mMessage = other.mMessage ∧
    li.mRessourceId = other.mRessourceId ∧ li.mLevel = other.mLevel ∧
    li.mVerbosityLevel = other.mVerbosityLevel ∧ li.logtime = other.logtime

instance (li other : LogItem) : Decidable (FieldEqual li other) :=
  inferInstanceAs (Decidable (_ ∧ _))

/-- `li.equals(other)` comes to a call on `null`. -/
def NullCompared (li other : LogItem) : Prop :=
  argsEqual li.mArgs other.mArgs = true ∧
    (li.mMessage = none ∧ other.mMessage ≠ none ∨
      li.mMessage = other.mMessage ∧ li.mRessourceId = other.mRessourceId ∧
        li.mLevel ≠ none ∧ other.mLevel = none)

instance (li other : LogItem) : Decidable (NullCompared li other) :=
  inferInstanceAs (Decidable (_ ∧ _))

theorem equals_eq (li other : LogItem) :
    li.equals other =
      if NullCompared li other then .error .nullPointer
      else .ok (decide (FieldEqual li other)) := by
  obtain ⟨args, message, resource, level, time, verbosity⟩ := li
  obtain ⟨args', message', resource', level', time', verbosity'⟩ := other
  by_cases hargs : argsEqual args args' = true
  · by_cases hresource : resource = resource'
    · cases message <;> cases message' <;> cases level <;> cases level' <;>
        simp [equals, NullCompared, FieldEqual, hargs, hresource] <;> grind
    · cases message <;> cases message' <;>
        simp [equals, NullCompared, FieldEqual, hargs, hresource]
  · simp [equals, NullCompared, FieldEqual, hargs]

theorem not_nullCompared_of_fieldEqual {li other : LogItem} (h : FieldEqual li other) :
    ¬ NullCompared li other := by
  obtain ⟨-, hmessage, -, hlevel, -, -⟩ := h
  rintro ⟨-, ⟨hnone, hsome⟩ | ⟨-, -, hsome, hnone⟩⟩
  · exact hsome (hmessage ▸ hnone)
  · exact hsome (hlevel.trans hnone)

end LogItem

open LogItem (FieldEqual NullCompared)

namespace VpnStatus

def newLogItemIfUnique (logbuffer : List LogObject) (li : LogObject) :
    Except LogItemException Inserted :=
  newLogItem logbuffer li false true

/-- The item is not older than the last one of the buffer. -/
def Appends (l : List LogObject) (o : LogObject) : Prop :=
  ∃ last ∈ l.getLast?, last.getLogtime ≤ o.getLogtime

def Contains (l : List LogObject) (o : LogObject) : Prop :=
  ∃ o' ∈ l, FieldEqual o'.item o.item

/-- The items that the loop comes to if none is equal. -/
def walked (o : LogObject) : List LogObject → List LogObject
  | [] => []
  | later :: itr =>
      if later.getLogtime > o.getLogtime then [later] else later :: walked o itr

/-- Those in front of the first equal one. -/
def compared (o : LogObject) (l : List LogObject) : List LogObject :=
  (walked o l).takeWhile fun later => !decide (FieldEqual later.item o.item)

/-- What `newLogItemIfUnique` is for. -/
def UniquelyInserted (l : List LogObject) (o : LogObject) : Prop :=
  ∃ r, newLogItemIfUnique l o = .ok r ∧
    r.logbuffer.Pairwise (fun o o' => o.getLogtime ≤ o'.getLogtime) ∧
    (Contains l o → r.logbuffer = l) ∧
    (¬ Contains l o → ∃ before after, l = before ++ after ∧ r.logbuffer = before ++ o :: after)

/-- The buffers in which it is. -/
structure Insertable (l : List LogObject) (o : LogObject) : Prop where
  /-- nothing is trimmed -/
  room : l.length < 1500 ∨ l.length = 1500 ∧ Contains l o
  /-- the shortcut is not taken for an item of the buffer -/
  appended : Appends l o → ¬ Contains l o
  /-- the loop does not come to a call on `null` -/
  compared : ¬ Appends l o → ∀ later ∈ compared o l, ¬ NullCompared later.item o.item

/-! ### The loop -/

theorem insertFrom_cons (o later : LogObject) (itr : List LogObject) :
    insertFrom o true (later :: itr) =
      if NullCompared later.item o.item then .error .nullPointer
      else if FieldEqual later.item o.item then .ok (later :: itr)
      else if later.getLogtime > o.getLogtime then .ok (o :: later :: itr)
      else (insertFrom o true itr).map (later :: ·) := by
  rw [insertFrom, identical, if_pos rfl, LogItem.equals_eq]
  by_cases hnull : NullCompared later.item o.item
  · simp only [if_pos hnull]
    rfl
  · by_cases hequal : FieldEqual later.item o.item
    · simp only [if_neg hnull, hequal, decide_true]
      rfl
    · simp only [if_neg hnull, hequal, decide_false]
      cases insertFrom o true itr <;> rfl

theorem compared_cons (o later : LogObject) (itr : List LogObject) :
    compared o (later :: itr) =
      if FieldEqual later.item o.item then []
      else if later.getLogtime > o.getLogtime then [later] else later :: compared o itr := by
  by_cases hequal : FieldEqual later.item o.item <;>
    by_cases hlater : later.getLogtime > o.getLogtime <;>
    simp [compared, walked, hequal, hlater]

/-- The loop in the order of its checks. -/
theorem insertFrom_unique (o : LogObject) (l : List LogObject) :
    (insertFrom o true l = .error .nullPointer ∧
        ∃ later ∈ compared o l, NullCompared later.item o.item) ∨
      (∀ later ∈ compared o l, ¬ NullCompared later.item o.item) ∧
        (insertFrom o true l = .ok l ∧ (∃ later ∈ walked o l, FieldEqual later.item o.item) ∨
          (∀ later ∈ walked o l, ¬ FieldEqual later.item o.item) ∧
            ∃ before after, l = before ++ after ∧
              insertFrom o true l = .ok (before ++ o :: after)) := by
  induction l with
  | nil =>
      refine Or.inr ⟨fun _ h => (nomatch h), Or.inr ⟨fun _ h => (nomatch h), [], [], rfl, rfl⟩⟩
  | cons later itr ih =>
      rw [insertFrom_cons, compared_cons, walked]
      by_cases hequal : FieldEqual later.item o.item
      · have hnull := LogItem.not_nullCompared_of_fieldEqual hequal
        refine Or.inr ⟨by simp [hequal], Or.inl ⟨by simp [hnull, hequal], later, ?_, hequal⟩⟩
        split <;> exact List.mem_cons_self
      by_cases hlater : later.getLogtime > o.getLogtime
      · by_cases hnull : NullCompared later.item o.item
        · exact Or.inl (by simp [hnull, hequal, hlater])
        · refine Or.inr ⟨by simp [hnull, hequal, hlater], Or.inr ⟨by simp [hequal, hlater], ?_⟩⟩
          exact ⟨[], later :: itr, rfl, by simp [hnull, hequal, hlater]⟩
      by_cases hnull : NullCompared later.item o.item
      · exact Or.inl ⟨by simp [hnull], later, by simp [hequal, hlater], hnull⟩
      simp only [hnull, hequal, hlater, if_false, List.forall_mem_cons,
        List.exists_mem_cons_iff, not_false_eq_true, true_and, false_or]
      rcases ih with ⟨herror, hfound⟩ | ⟨hnone, ⟨hok, hfound⟩ | ⟨hnew, before, after, rfl, hok⟩⟩
      · exact Or.inl ⟨by simp [herror, Except.map], hfound⟩
      · exact Or.inr ⟨hnone, Or.inl ⟨by simp [hok, Except.map], hfound⟩⟩
      · exact Or.inr ⟨hnone, Or.inr ⟨hnew, later :: before, after, rfl, by simp [hok, Except.map]⟩⟩

/-- In a buffer in order the loop comes to every item of the same time. -/
theorem mem_walked {o o' : LogObject} {l : List LogObject}
    (hsorted : l.Pairwise fun o o' => o.getLogtime ≤ o'.getLogtime) (hmem : o' ∈ l)
    (hle : o'.getLogtime ≤ o.getLogtime) : o' ∈ walked o l := by
  induction l with
  | nil => exact hmem
  | cons later itr ih =>
      obtain ⟨hfirst, hitr⟩ := List.pairwise_cons.mp hsorted
      rcases List.mem_cons.mp hmem with rfl | hmem
      · rw [walked, if_neg (Int64.not_lt.mpr hle)]
        exact List.mem_cons_self
      · rw [walked, if_neg (Int64.not_lt.mpr (Int64.le_trans (hfirst o' hmem) hle))]
        exact List.mem_cons_of_mem _ (ih hitr hmem)

theorem walked_subset (o : LogObject) (l : List LogObject) : walked o l ⊆ l := by
  induction l with
  | nil => exact List.Subset.refl _
  | cons later itr ih =>
      rw [walked]
      split
      · simp
      · exact List.cons_subset_cons later ih

theorem contains_iff {o : LogObject} {l : List LogObject}
    (hsorted : l.Pairwise fun o o' => o.getLogtime ≤ o'.getLogtime) :
    Contains l o ↔ ∃ later ∈ walked o l, FieldEqual later.item o.item := by
  constructor
  · rintro ⟨o', hmem, hequal⟩
    have htime : o'.item.logtime = o.item.logtime := hequal.2.2.2.2.2
    exact ⟨o', mem_walked hsorted hmem (Int64.le_of_eq htime), hequal⟩
  · rintro ⟨o', hmem, hequal⟩
    exact ⟨o', walked_subset o l hmem, hequal⟩

/-! ### The call -/

theorem length_trim_eq_iff (l : List LogObject) :
    (trim l).logbuffer.length = l.length ↔ l.length ≤ 1500 := by
  rw [trim, show MAXLOGENTRIES + MAXLOGENTRIES / 2 = 1500 from rfl,
    show MAXLOGENTRIES = 1000 from rfl]
  split
  · simp only [List.length_drop]
    omega
  · simp only [true_iff]
    omega

theorem trim_of_length_le {l : List LogObject} (h : l.length ≤ 1500) : trim l = ⟨l, []⟩ :=
  if_neg (Nat.not_lt.mpr h)

theorem newLogItemIfUnique_eq {l r : List LogObject} {o : LogObject}
    (h : insertLogItemByLogTime l o true = .ok r) : newLogItemIfUnique l o = .ok (trim r) := by
  rw [newLogItemIfUnique, newLogItem, if_neg Bool.false_ne_true, h]
  rfl

theorem insert_of_appends {l : List LogObject} {o : LogObject} (h : Appends l o) :
    insertLogItemByLogTime l o true = .ok (l ++ [o]) := by
  obtain ⟨last, hlast, hle⟩ := h
  rw [insertLogItemByLogTime, Option.mem_def.mp hlast]
  exact if_pos hle

theorem insert_of_not_appends {l : List LogObject} {o : LogObject} (h : ¬ Appends l o) :
    insertLogItemByLogTime l o true = insertFrom o true l := by
  rw [insertLogItemByLogTime]
  cases hlast : l.getLast? with
  | none => rfl
  | some last => exact if_neg fun hle => h ⟨last, hlast, hle⟩

/-- The buffer grew by the item, and it was not trimmed. -/
theorem uniquelyInserted_of_inserted {l before after : List LogObject} {o : LogObject}
    (hsorted : l.Pairwise fun o o' => o.getLogtime ≤ o'.getLogtime) (hnew : ¬ Contains l o)
    (hl : l = before ++ after)
    (h : insertLogItemByLogTime l o true = .ok (before ++ o :: after)) :
    UniquelyInserted l o ↔ l.length < 1500 := by
  have hlength : (before ++ o :: after).length = l.length + 1 := by
    simp only [hl, List.length_append, List.length_cons]
    omega
  constructor
  · rintro ⟨r, hr, -, -, hinserted⟩
    obtain ⟨before', after', hl', hr'⟩ := hinserted hnew
    obtain rfl := Except.ok.inj ((newLogItemIfUnique_eq h).symm.trans hr)
    have hlength' : (before' ++ o :: after').length = l.length + 1 := by
      simp only [hl', List.length_append, List.length_cons]
      omega
    have hkept := (length_trim_eq_iff (before ++ o :: after)).mp (by rw [hr', hlength', hlength])
    omega
  · intro hroom
    have htrim : trim (before ++ o :: after) = ⟨before ++ o :: after, []⟩ :=
      trim_of_length_le (by omega)
    exact ⟨_, (newLogItemIfUnique_eq h).trans (congrArg _ htrim), sorted_insert h hsorted,
      fun hcontains => absurd hcontains hnew, fun _ => ⟨before, after, hl, rfl⟩⟩

theorem uniquelyInserted_of_unchanged {l : List LogObject} {o : LogObject}
    (hsorted : l.Pairwise fun o o' => o.getLogtime ≤ o'.getLogtime) (hcontains : Contains l o)
    (h : insertLogItemByLogTime l o true = .ok l) :
    UniquelyInserted l o ↔ l.length ≤ 1500 := by
  constructor
  · rintro ⟨r, hr, -, hsame, -⟩
    obtain rfl := Except.ok.inj ((newLogItemIfUnique_eq h).symm.trans hr)
    exact (length_trim_eq_iff l).mp (congrArg List.length (hsame hcontains))
  · intro hroom
    exact ⟨_, (newLogItemIfUnique_eq h).trans (congrArg _ (trim_of_length_le hroom)), hsorted,
      fun _ => rfl, fun hnew => absurd hcontains hnew⟩

theorem not_uniquelyInserted_of_appends {l : List LogObject} {o : LogObject} (h : Appends l o)
    (hcontains : Contains l o) : ¬ UniquelyInserted l o := by
  rintro ⟨r, hr, -, hsame, -⟩
  obtain rfl := Except.ok.inj ((newLogItemIfUnique_eq (insert_of_appends h)).symm.trans hr)
  have hlength : (trim (l ++ [o])).logbuffer.length = l.length :=
    congrArg List.length (hsame hcontains)
  rw [trim, show MAXLOGENTRIES + MAXLOGENTRIES / 2 = 1500 from rfl,
    show MAXLOGENTRIES = 1000 from rfl] at hlength
  split at hlength
  · rename_i hfull
    simp only [List.length_drop, List.length_append, List.length_singleton] at hlength hfull
    omega
  · simp at hlength

theorem uniquelyInserted_iff {l : List LogObject} (o : LogObject)
    (hsorted : l.Pairwise fun o o' => o.getLogtime ≤ o'.getLogtime) :
    UniquelyInserted l o ↔ Insertable l o := by
  by_cases happends : Appends l o
  · by_cases hcontains : Contains l o
    · exact iff_of_false (not_uniquelyInserted_of_appends happends hcontains)
        fun h => h.appended happends hcontains
    · rw [uniquelyInserted_of_inserted hsorted hcontains (List.append_nil l).symm
        (insert_of_appends happends)]
      constructor
      · intro hroom
        exact ⟨Or.inl hroom, fun _ => hcontains, fun hnot => absurd happends hnot⟩
      · rintro ⟨hroom | ⟨-, hcontains'⟩, -, -⟩
        · exact hroom
        · exact absurd hcontains' hcontains
  · have hinsert := insert_of_not_appends happends
    rcases insertFrom_unique o l with
      ⟨herror, later, hmem, hnull⟩ | ⟨hnone, ⟨hok, hfound⟩ | ⟨hnew, before, after, hl, hok⟩⟩
    · refine iff_of_false ?_ fun h => h.compared happends later hmem hnull
      rintro ⟨r, hr, -⟩
      rw [newLogItemIfUnique, newLogItem, if_neg Bool.false_ne_true, hinsert, herror] at hr
      cases hr
    · have hcontains := (contains_iff hsorted).mpr hfound
      rw [uniquelyInserted_of_unchanged hsorted hcontains (hinsert.trans hok)]
      constructor
      · intro hroom
        refine ⟨?_, fun h => absurd h happends, fun _ => hnone⟩
        exact (Nat.lt_or_eq_of_le hroom).imp_right fun hfull => ⟨hfull, hcontains⟩
      · rintro ⟨hroom | ⟨hfull, -⟩, -, -⟩
        · exact Nat.le_of_lt hroom
        · exact Nat.le_of_eq hfull
    · have hcontains : ¬ Contains l o := by
        rw [contains_iff hsorted]
        rintro ⟨later, hmem, hequal⟩
        exact hnew later hmem hequal
      rw [uniquelyInserted_of_inserted hsorted hcontains hl (hinsert.trans hok)]
      constructor
      · intro hroom
        exact ⟨Or.inl hroom, fun h => absurd h happends, fun _ => hnone⟩
      · rintro ⟨hroom | ⟨-, hcontains'⟩, -, -⟩
        · exact hroom
        · exact absurd hcontains' hcontains

/-- The item that `logExitNotification` makes of one exit reason. -/
def exitItem (number : Nat) : LogObject :=
  ⟨number, ⟨none, some (JavaString.ofText "Last exit reason"), 0, some .DEBUG, 1000, -1⟩⟩

theorem uniquelyInserted_iff_exitItem :
    UniquelyInserted [] (exitItem 0) ↔ Insertable [] (exitItem 0) :=
  uniquelyInserted_iff (exitItem 0) List.Pairwise.nil

/-- The same exit reason twice. -/
theorem not_uniquelyInserted :
    ¬ ∀ (l : List LogObject) (o : LogObject),
      l.Pairwise (fun o o' => o.getLogtime ≤ o'.getLogtime) → UniquelyInserted l o := by
  intro h
  have hcontains : Contains [exitItem 0] (exitItem 1) :=
    ⟨exitItem 0, List.mem_singleton_self _, rfl, rfl, rfl, rfl, rfl, rfl⟩
  obtain ⟨r, hr, -, hsame, -⟩ := h [exitItem 0] (exitItem 1) (List.pairwise_singleton _ _)
  have htwo : newLogItemIfUnique [exitItem 0] (exitItem 1) =
      .ok ⟨[exitItem 0, exitItem 1], []⟩ := rfl
  obtain rfl := Except.ok.inj (htwo.symm.trans hr)
  cases hsame hcontains

end VpnStatus

end OpenVpnAndroid
