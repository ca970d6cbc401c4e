/-
  OpenVpnAndroid/TrafficHistory.lean
  ==================================
  **`TrafficHistory`, the byte counts of the last minutes, hours and days.**

  Every point goes into the list of seconds.  The first point of a minute also
  goes into the list of minutes, and then the points of five minutes ago and more
  leave the list of seconds; the first point of an hour does the same one level
  up.  A list is pruned only then, so its points can be a period older than the
  five periods to keep (`retained_add`).

  The newest point is 0 periods old and is never removed, whatever the clock says.
  So the last point of the list is the one of the call before, and the differences
  that `updateByteCount` reports are those of the counters (`reports_eq`).

  A listener that is added later is told the last point as well, but its difference to
  itself (`addByteCountListener_iff`).
-/
import OpenVpnAndroid.JavaText
import OpenVpnAndroid.Machine

namespace OpenVpnAndroid

structure TrafficDatapoint where
  inBytes : Int
  outBytes : Int
  timestamp : Int
deriving DecidableEq, Repr

/-- The lists and the last points that were used for the next level.  Those two are
    `null` until `addDataPoint` makes them (0, 0, 0), before anything reads them. -/
structure TrafficHistory where
  trafficHistorySeconds : List TrafficDatapoint
  trafficHistoryMinutes : List TrafficDatapoint
  trafficHistoryHours : List TrafficDatapoint
  lastSecondUsedForMinute : TrafficDatapoint
  lastMinuteUsedForHours : TrafficDatapoint
deriving DecidableEq, Repr

namespace TrafficHistory

def PERIODS_TO_KEEP : Int := 5
def TIME_PERIOD_MINTUES : Int := 60 * 1000
def TIME_PERIOD_HOURS : Int := 3600 * 1000

def empty : TrafficHistory := ⟨[], [], [], ⟨0, 0, 0⟩, ⟨0, 0, 0⟩⟩

/-! ### Adding a point -/

/-- The point is the first one of its period. -/
def opensPeriod (timePeriod : Int) (lastTsPeriod newTdp : TrafficDatapoint) : Bool :=
  lastTsPeriod.timestamp.tdiv timePeriod < newTdp.timestamp.tdiv timePeriod

def outdated (timePeriod : Int) (newTdp tph : TrafficDatapoint) : Bool :=
  PERIODS_TO_KEEP ≤ (long (newTdp.timestamp - tph.timestamp)).tdiv timePeriod

/-- `tpList.removeAll(toRemove)`.  `toRemove` knows its points by identity, and a point
    is in it by its timestamp alone. -/
def removeOutdated (timePeriod : Int) (newTdp : TrafficDatapoint)
    (tpList : List TrafficDatapoint) : List TrafficDatapoint :=
  tpList.filter fun tph => !outdated timePeriod newTdp tph

/-- `removeAndAverage(newTdp, false)` -/
def averageMinutes (newTdp : TrafficDatapoint) (s : TrafficHistory) : TrafficHistory :=
  if opensPeriod TIME_PERIOD_HOURS s.lastMinuteUsedForHours newTdp then
    { s with
      trafficHistoryHours := s.trafficHistoryHours ++ [newTdp]
      lastMinuteUsedForHours := newTdp
      trafficHistoryMinutes := removeOutdated TIME_PERIOD_HOURS newTdp s.trafficHistoryMinutes }
  else s

/-- `removeAndAverage(newTdp, true)` -/
def removeAndAverage (newTdp : TrafficDatapoint) (s : TrafficHistory) : TrafficHistory :=
  if opensPeriod TIME_PERIOD_MINTUES s.lastSecondUsedForMinute newTdp then
    let s := averageMinutes newTdp
      { s with
        trafficHistoryMinutes := s.trafficHistoryMinutes ++ [newTdp]
        lastSecondUsedForMinute := newTdp }
    { s with
      trafficHistorySeconds := removeOutdated TIME_PERIOD_MINTUES newTdp s.trafficHistorySeconds }
  else s

def addDataPoint (s : TrafficHistory) (tdp : TrafficDatapoint) : TrafficHistory :=
  removeAndAverage tdp { s with trafficHistorySeconds := s.trafficHistorySeconds ++ [tdp] }

/-! ### Differences -/

structure LastDiff where
  lasttdp : TrafficDatapoint
  tdp : TrafficDatapoint
deriving DecidableEq, Repr

namespace LastDiff

variable (diff : LastDiff)

def getDiffOut : Int := max 0 (long (diff.tdp.outBytes - diff.lasttdp.outBytes))

def getDiffIn : Int := max 0 (long (diff.tdp.inBytes - diff.lasttdp.inBytes))

def getIn : Int := diff.tdp.inBytes

def getOut : Int := diff.tdp.outBytes

end LastDiff

/-- `now` is the clock. -/
def getLastDiff (s : TrafficHistory) (now : Int) (tdp : Option TrafficDatapoint) : LastDiff :=
  let lasttdp := s.trafficHistorySeconds.getLast?.getD ⟨0, 0, now⟩
  match tdp with
  | some tdp => ⟨lasttdp, tdp⟩
  | none =>
      if s.trafficHistorySeconds.length < 2 then ⟨lasttdp, lasttdp⟩
      -- each call of `descendingIterator` starts again at the end
      else ⟨lasttdp, s.trafficHistorySeconds.reverse.head?.getD lasttdp⟩

/-- A call of `VpnStatus.updateByteCount` with the readings of the clock. -/
structure ByteCount where
  inBytes : Int
  outBytes : Int
  /-- in `add` -/
  now : Int
  /-- in `getLastDiff` -/
  nowDiff : Int
deriving DecidableEq, Repr

def ByteCount.datapoint (u : ByteCount) : TrafficDatapoint := ⟨u.inBytes, u.outBytes, u.now⟩

def add (s : TrafficHistory) (u : ByteCount) : LastDiff × TrafficHistory :=
  (s.getLastDiff u.nowDiff (some u.datapoint), s.addDataPoint u.datapoint)

/-- What a `ByteCountListener` is told. -/
structure Report where
  inBytes : Int
  outBytes : Int
  diffIn : Int
  diffOut : Int
deriving DecidableEq, Repr

def updateByteCount (s : TrafficHistory) (u : ByteCount) : Report × TrafficHistory :=
  let (diff, s) := s.add u
  (⟨u.inBytes, u.outBytes, diff.getDiffIn, diff.getDiffOut⟩, s)

/-- The reports of a sequence of calls. -/
def reports (s : TrafficHistory) : List ByteCount → List Report
  | [] => []
  | u :: us => (s.updateByteCount u).1 :: reports (s.updateByteCount u).2 us

/-! ### The reported differences -/

theorem outdated_self (timePeriod : Int) (tdp : TrafficDatapoint) :
    outdated timePeriod tdp tdp = false := by
  simp [outdated, long, PERIODS_TO_KEEP]

@[simp] theorem seconds_averageMinutes (tdp : TrafficDatapoint) (s : TrafficHistory) :
    (averageMinutes tdp s).trafficHistorySeconds = s.trafficHistorySeconds := by
  rw [averageMinutes]
  split <;> rfl

/-- The new point is the last one after any pruning. -/
theorem getLast?_addDataPoint (s : TrafficHistory) (tdp : TrafficDatapoint) :
    (s.addDataPoint tdp).trafficHistorySeconds.getLast? = some tdp := by
  rw [addDataPoint, removeAndAverage]
  split
  · simp [removeOutdated, List.filter_append, outdated_self]
  · simp

/-- The counters of the last point. -/
def lastCounts (s : TrafficHistory) : Int × Int :=
  match s.trafficHistorySeconds.getLast? with
  | some tdp => (tdp.inBytes, tdp.outBytes)
  | none => (0, 0)

theorem lastCounts_addDataPoint (s : TrafficHistory) (tdp : TrafficDatapoint) :
    (s.addDataPoint tdp).lastCounts = (tdp.inBytes, tdp.outBytes) := by
  rw [lastCounts, getLast?_addDataPoint]

namespace ByteCount

/-- The counters are `long` values that are not negative. -/
def NonNegative (u : ByteCount) : Prop :=
  (0 ≤ u.inBytes ∧ u.inBytes < 2 ^ 63) ∧ 0 ≤ u.outBytes ∧ u.outBytes < 2 ^ 63

def counts (u : ByteCount) : Int × Int := (u.inBytes, u.outBytes)

/-- What a call is to report after one with the counters `previous`. -/
def report (previous : Int × Int) (u : ByteCount) : Report :=
  ⟨u.inBytes, u.outBytes, max 0 (u.inBytes - previous.1), max 0 (u.outBytes - previous.2)⟩

end ByteCount

/-- The differences of a call, before they are cut off at 0. -/
theorem updateByteCount_eq (s : TrafficHistory) (u : ByteCount) :
    (s.updateByteCount u).1 =
      ⟨u.inBytes, u.outBytes, max 0 (long (u.inBytes - s.lastCounts.1)),
        max 0 (long (u.outBytes - s.lastCounts.2))⟩ := by
  simp only [updateByteCount, add, getLastDiff, LastDiff.getDiffIn, LastDiff.getDiffOut,
    ByteCount.datapoint, lastCounts]
  cases s.trafficHistorySeconds.getLast? with
  | none => rfl
  | some tdp => rfl

theorem updateByteCount_report {s : TrafficHistory} {u : ByteCount} (hu : u.NonNegative)
    (hin : 0 ≤ s.lastCounts.1 ∧ s.lastCounts.1 < 2 ^ 63)
    (hout : 0 ≤ s.lastCounts.2 ∧ s.lastCounts.2 < 2 ^ 63) :
    (s.updateByteCount u).1 = u.report s.lastCounts := by
  obtain ⟨⟨hin0, hin1⟩, hout0, hout1⟩ := hu
  have hlongIn : long (u.inBytes - s.lastCounts.1) = u.inBytes - s.lastCounts.1 :=
    long_of_range (by linarith [hin.2]) (by linarith [hin.1])
  have hlongOut : long (u.outBytes - s.lastCounts.2) = u.outBytes - s.lastCounts.2 :=
    long_of_range (by linarith [hout.2]) (by linarith [hout.1])
  rw [updateByteCount_eq, ByteCount.report, hlongIn, hlongOut]

theorem reports_from {us : List ByteCount} (hus : ∀ u ∈ us, u.NonNegative) (s : TrafficHistory)
    (hin : 0 ≤ s.lastCounts.1 ∧ s.lastCounts.1 < 2 ^ 63)
    (hout : 0 ≤ s.lastCounts.2 ∧ s.lastCounts.2 < 2 ^ 63) :
    s.reports us = List.zipWith ByteCount.report (s.lastCounts :: us.map ByteCount.counts) us := by
  induction us generalizing s with
  | nil => rfl
  | cons u us ih =>
      have hu : u.NonNegative := hus u List.mem_cons_self
      have hcounts : (s.updateByteCount u).2.lastCounts = u.counts :=
        lastCounts_addDataPoint s u.datapoint
      have htail := ih (fun v hv => hus v (List.mem_cons_of_mem u hv)) (s.updateByteCount u).2
        (by rw [hcounts]; exact hu.1) (by rw [hcounts]; exact hu.2)
      rw [reports, updateByteCount_report hu hin hout, htail, hcounts]
      rfl

/-- Differences of counters that do not decrease add up to the last counter. -/
theorem sum_diffs (f : ByteCount → Int) (c : Int) (us : List ByteCount)
    (h : (c :: us.map f).Pairwise (· ≤ ·)) :
    (List.zipWith (fun previous u => max 0 (f u - previous)) (c :: us.map f) us).sum =
      ((us.getLast?.map f).getD c) - c := by
  induction us generalizing c with
  | nil => simp
  | cons u us ih =>
      obtain ⟨hc, htail⟩ := List.pairwise_cons.mp h
      have hle : c ≤ f u := hc (f u) (by simp)
      rw [List.map_cons, List.zipWith_cons_cons, List.sum_cons, ih (f u) htail,
        max_eq_right (sub_nonneg.mpr hle), List.getLast?_cons]
      cases us.getLast? with
      | none => simp
      | some v => simp

/-- Whatever the clock reads, call `k` reports the differences to call `k - 1`, cut off
    at 0; so for counters that do not decrease the differences add up to the totals. -/
theorem reports_eq (us : List ByteCount) (hus : ∀ u ∈ us, u.NonNegative) :
    empty.reports us = List.zipWith ByteCount.report ((0, 0) :: us.map ByteCount.counts) us ∧
      ((us.map ByteCount.inBytes).Pairwise (· ≤ ·) →
        ((empty.reports us).map Report.diffIn).sum =
          (us.getLast?.map ByteCount.inBytes).getD 0) ∧
      ((us.map ByteCount.outBytes).Pairwise (· ≤ ·) →
        ((empty.reports us).map Report.diffOut).sum =
          (us.getLast?.map ByteCount.outBytes).getD 0) := by
  have hreports : empty.reports us =
      List.zipWith ByteCount.report ((0, 0) :: us.map ByteCount.counts) us :=
    reports_from hus empty (by decide) (by decide)
  have hin : (empty.reports us).map Report.diffIn =
      List.zipWith (fun previous u => max 0 (u.inBytes - previous))
        (0 :: us.map ByteCount.inBytes) us := by
    have hfst : (0 :: us.map ByteCount.inBytes : List Int) =
        ((0, 0) :: us.map ByteCount.counts).map Prod.fst := by simp [ByteCount.counts]
    rw [hreports, List.map_zipWith, hfst, List.zipWith_map_left]
    rfl
  have hout : (empty.reports us).map Report.diffOut =
      List.zipWith (fun previous u => max 0 (u.outBytes - previous))
        (0 :: us.map ByteCount.outBytes) us := by
    have hsnd : (0 :: us.map ByteCount.outBytes : List Int) =
        ((0, 0) :: us.map ByteCount.counts).map Prod.snd := by simp [ByteCount.counts]
    rw [hreports, List.map_zipWith, hsnd, List.zipWith_map_left]
    rfl
  refine ⟨hreports, ?_, ?_⟩
  · intro hle
    have hnonneg : ∀ n ∈ us.map ByteCount.inBytes, 0 ≤ n := by
      rintro n hn
      obtain ⟨u, hu, rfl⟩ := List.mem_map.mp hn
      exact (hus u hu).1.1
    rw [hin, sum_diffs ByteCount.inBytes 0 us (List.pairwise_cons.mpr ⟨hnonneg, hle⟩), sub_zero]
  · intro hle
    have hnonneg : ∀ n ∈ us.map ByteCount.outBytes, 0 ≤ n := by
      rintro n hn
      obtain ⟨u, hu, rfl⟩ := List.mem_map.mp hn
      exact (hus u hu).2.1
    rw [hout, sum_diffs ByteCount.outBytes 0 us (List.pairwise_cons.mpr ⟨hnonneg, hle⟩), sub_zero]

/-- Three calls; the clock jumps ahead by an hour and back again. -/
theorem reports_eq_jump :
    let us : List ByteCount := [⟨5, 7, 4000000, 0⟩, ⟨9, 7, 7600000, 0⟩, ⟨12, 8, 4001000, 0⟩]
    empty.reports us = List.zipWith ByteCount.report ((0, 0) :: us.map ByteCount.counts) us ∧
      ((us.map ByteCount.inBytes).Pairwise (· ≤ ·) →
        ((empty.reports us).map Report.diffIn).sum =
          (us.getLast?.map ByteCount.inBytes).getD 0) ∧
      ((us.map ByteCount.outBytes).Pairwise (· ≤ ·) →
        ((empty.reports us).map Report.diffOut).sum =
          (us.getLast?.map ByteCount.outBytes).getD 0) := by
  intro us
  exact reports_eq us (by simp [us, ByteCount.NonNegative])

/-! ### A listener that comes late -/

/-- The first report that `VpnStatus.addByteCountListener` gives to its listener. -/
def addByteCountListener (s : TrafficHistory) (now : Int) : Report :=
  let diff := s.getLastDiff now none
  ⟨diff.getIn, diff.getOut, diff.getDiffIn, diff.getDiffOut⟩

/-- The history after a sequence of calls of `updateByteCount`. -/
def updateByteCounts (s : TrafficHistory) (us : List ByteCount) : TrafficHistory :=
  us.foldl (fun s u => (s.updateByteCount u).2) s

theorem updateByteCounts_append_singleton (s : TrafficHistory) (us : List ByteCount)
    (u : ByteCount) :
    s.updateByteCounts (us ++ [u]) = ((s.updateByteCounts us).updateByteCount u).2 := by
  rw [updateByteCounts, List.foldl_append]
  rfl

theorem reports_append_singleton (s : TrafficHistory) (us : List ByteCount) (u : ByteCount) :
    s.reports (us ++ [u]) = s.reports us ++ [((s.updateByteCounts us).updateByteCount u).1] := by
  induction us generalizing s with
  | nil => rfl
  | cons v us ih => simp [reports, updateByteCounts, ih]

/-- However many points there are, both ends of the difference are the last one: each
    of the two iterators starts at it. -/
theorem addByteCountListener_eq (s : TrafficHistory) (now : Int) :
    s.addByteCountListener now = ⟨s.lastCounts.1, s.lastCounts.2, 0, 0⟩ := by
  have hlast : s.trafficHistorySeconds.reverse.head? = s.trafficHistorySeconds.getLast? :=
    List.head?_reverse
  simp only [addByteCountListener, getLastDiff, lastCounts, hlast, LastDiff.getIn,
    LastDiff.getOut, LastDiff.getDiffIn, LastDiff.getDiffOut]
  cases s.trafficHistorySeconds.getLast? with
  | none => split <;> simp [long]
  | some tdp => split <;> simp [long]

theorem lastCounts_updateByteCounts (us : List ByteCount) :
    (empty.updateByteCounts us).lastCounts = (us.getLast?.map ByteCount.counts).getD (0, 0) := by
  induction us using List.reverseRecOn with
  | nil => rfl
  | append_singleton us u _ =>
      rw [updateByteCounts_append_singleton, List.getLast?_concat]
      exact lastCounts_addDataPoint _ u.datapoint

/-- The last call, if there is one, does not count more than the call before it; the
    first call counts from 0. -/
def Idle (us : List ByteCount) : Prop :=
  ∀ earlier u, us = earlier ++ [u] →
    let previous := (earlier.getLast?.map ByteCount.counts).getD (0, 0)
    long (u.inBytes - previous.1) ≤ 0 ∧ long (u.outBytes - previous.2) ≤ 0

/-- The listener is told the counters of the last report, but never its differences. -/
theorem addByteCountListener_iff (us : List ByteCount) (now : Int) :
    (empty.updateByteCounts us).addByteCountListener now =
      (empty.reports us).getLast?.getD ⟨0, 0, 0, 0⟩ ↔ Idle us := by
  rw [addByteCountListener_eq, lastCounts_updateByteCounts]
  induction us using List.reverseRecOn with
  | nil =>
      have hidle : Idle [] := by simp [Idle]
      exact iff_of_true rfl hidle
  | append_singleton us u _ =>
      have hidle : Idle (us ++ [u]) ↔
          long (u.inBytes - (empty.updateByteCounts us).lastCounts.1) ≤ 0 ∧
            long (u.outBytes - (empty.updateByteCounts us).lastCounts.2) ≤ 0 := by
        rw [Idle, lastCounts_updateByteCounts]
        constructor
        · intro h
          exact h us u rfl
        · rintro h earlier v heq
          obtain ⟨rfl, rfl⟩ := List.append_singleton_inj.mp heq
          exact h
      rw [hidle, reports_append_singleton, updateByteCount_eq]
      simp [ByteCount.counts]

/-- One call: the earlier listeners are told (5, 7, 5, 7). -/
theorem addByteCountListener_single :
    ¬(empty.updateByteCounts [⟨5, 7, 4000000, 0⟩]).addByteCountListener 4000500 =
      (empty.reports [⟨5, 7, 4000000, 0⟩]).getLast?.getD ⟨0, 0, 0, 0⟩ := by
  decide

/-! ### Periods -/

/-- The run of `addDataPoint` over the points of a clock. -/
def trafficHistory : Machine TrafficHistory TrafficDatapoint := ⟨empty, addDataPoint⟩

/-- Points whose periods are in order lie less than a period the other way round. -/
theorem sub_lt_of_ediv_le {period a b : Int} (hperiod : 0 < period)
    (h : a / period ≤ b / period) : a - b < period := by
  have ha : period * (a / period) + a % period = a := Int.mul_ediv_add_emod a period
  have hb : period * (b / period) + b % period = b := Int.mul_ediv_add_emod b period
  have hmul : period * (a / period) ≤ period * (b / period) :=
    Int.mul_le_mul_of_nonneg_left h (Int.le_of_lt hperiod)
  have hlt : a % period < period := Int.emod_lt_of_pos a hperiod
  have hge : 0 ≤ b % period := Int.emod_nonneg b (Int.ne_of_gt hperiod)
  linarith

theorem opensPeriod_iff {timePeriod : Int} {lastTsPeriod newTdp : TrafficDatapoint}
    (hlast : 0 ≤ lastTsPeriod.timestamp) (hnew : 0 ≤ newTdp.timestamp) :
    opensPeriod timePeriod lastTsPeriod newTdp = true ↔
      lastTsPeriod.timestamp / timePeriod < newTdp.timestamp / timePeriod := by
  rw [opensPeriod, decide_eq_true_iff, Int.tdiv_eq_ediv_of_nonneg hlast,
    Int.tdiv_eq_ediv_of_nonneg hnew]

/-- The difference counts in whole periods. -/
theorem outdated_iff {timePeriod : Int} (hperiod : 0 < timePeriod)
    {newTdp tph : TrafficDatapoint} (hold : 0 ≤ tph.timestamp)
    (hle : tph.timestamp ≤ newTdp.timestamp) (hnew : newTdp.timestamp < 2 ^ 63) :
    outdated timePeriod newTdp tph = false ↔
      newTdp.timestamp - tph.timestamp < 5 * timePeriod := by
  have hlong : long (newTdp.timestamp - tph.timestamp) = newTdp.timestamp - tph.timestamp :=
    long_of_range (by linarith) (by linarith)
  rw [outdated, decide_eq_false_iff_not, not_le, hlong,
    Int.tdiv_eq_ediv_of_nonneg (sub_nonneg.mpr hle), PERIODS_TO_KEEP,
    Int.ediv_lt_iff_lt_mul hperiod]

/-- Less than `span` older than the newest point. -/
def within (span newest : Int) (p : TrafficDatapoint) : Bool := newest - p.timestamp < span

theorem removeOutdated_eq {timePeriod : Int} (hperiod : 0 < timePeriod)
    {newTdp : TrafficDatapoint} {tps : List TrafficDatapoint}
    (hrange : ∀ p ∈ tps, 0 ≤ p.timestamp ∧ p.timestamp ≤ newTdp.timestamp)
    (hnew : newTdp.timestamp < 2 ^ 63) :
    removeOutdated timePeriod newTdp tps =
      tps.filter (within (5 * timePeriod) newTdp.timestamp) := by
  apply List.filter_congr
  intro p hp
  have h := outdated_iff hperiod (hrange p hp).1 (hrange p hp).2 hnew
  rw [Bool.eq_iff_iff, Bool.not_eq_true', h, within, decide_eq_true_iff]

/-! ### One list -/

/-- A list that was pruned when the current period of the clock began, at `last`. -/
structure Window (timePeriod : Int) (tps : List TrafficDatapoint) (last newest : Int) : Prop where
  index : last / timePeriod = newest / timePeriod
  range : ∀ p ∈ tps, 0 ≤ p.timestamp ∧ p.timestamp ≤ newest
  young : ∀ p ∈ tps, last - p.timestamp < 5 * timePeriod

namespace Window

variable {timePeriod last newest : Int} {tps : List TrafficDatapoint} {tdp : TrafficDatapoint}

/-- Five periods at the pruning, and the time since then. -/
theorem young_newest (hperiod : 0 < timePeriod) (h : Window timePeriod tps last newest) :
    ∀ p ∈ tps, newest - p.timestamp < 6 * timePeriod := by
  intro p hp
  have hsince : newest - last < timePeriod := sub_lt_of_ediv_le hperiod (Int.le_of_eq h.index.symm)
  have hyoung := h.young p hp
  linarith

theorem sublist {tps' : List TrafficDatapoint} (hsub : tps'.Sublist tps)
    (h : Window timePeriod tps last newest) : Window timePeriod tps' last newest :=
  ⟨h.index, fun p hp => h.range p (hsub.subset hp), fun p hp => h.young p (hsub.subset hp)⟩

/-- The clock goes on within the period. -/
theorem append (hperiod : 0 < timePeriod) (h : Window timePeriod tps last newest)
    (hnonneg : 0 ≤ tdp.timestamp) (hle : newest ≤ tdp.timestamp)
    (hsame : tdp.timestamp / timePeriod ≤ last / timePeriod) :
    Window timePeriod (tps ++ [tdp]) last tdp.timestamp := by
  have hindex : last / timePeriod ≤ tdp.timestamp / timePeriod := by
    rw [h.index]
    exact Int.ediv_le_ediv hperiod hle
  refine ⟨Int.le_antisymm hindex hsame, ?_, ?_⟩
  · intro p hp
    rcases List.mem_append.mp hp with hp | hp
    · exact ⟨(h.range p hp).1, Int.le_trans (h.range p hp).2 hle⟩
    · obtain rfl := List.mem_singleton.mp hp
      exact ⟨hnonneg, Int.le_refl _⟩
  · intro p hp
    rcases List.mem_append.mp hp with hp | hp
    · exact h.young p hp
    · obtain rfl := List.mem_singleton.mp hp
      have hlt := sub_lt_of_ediv_le hperiod hindex
      linarith

/-- A new period begins. -/
theorem prune (h : Window timePeriod tps last newest) (hnonneg : 0 ≤ tdp.timestamp)
    (hle : newest ≤ tdp.timestamp) :
    Window timePeriod ((tps ++ [tdp]).filter (within (5 * timePeriod) tdp.timestamp))
      tdp.timestamp tdp.timestamp := by
  refine ⟨rfl, ?_, ?_⟩
  · intro p hp
    rcases List.mem_append.mp (List.mem_of_mem_filter hp) with hp | hp
    · exact ⟨(h.range p hp).1, Int.le_trans (h.range p hp).2 hle⟩
    · obtain rfl := List.mem_singleton.mp hp
      exact ⟨hnonneg, Int.le_refl _⟩
  · intro p hp
    exact of_decide_eq_true (List.mem_filter.mp hp).2

end Window

/-! ### One point -/

/-- What `addDataPoint` does. -/
theorem addDataPoint_cases (s : TrafficHistory) (tdp : TrafficDatapoint) :
    (opensPeriod TIME_PERIOD_MINTUES s.lastSecondUsedForMinute tdp = false ∧
      s.addDataPoint tdp =
        { s with trafficHistorySeconds := s.trafficHistorySeconds ++ [tdp] }) ∨
    (opensPeriod TIME_PERIOD_MINTUES s.lastSecondUsedForMinute tdp = true ∧
      opensPeriod TIME_PERIOD_HOURS s.lastMinuteUsedForHours tdp = false ∧
      s.addDataPoint tdp =
        ⟨removeOutdated TIME_PERIOD_MINTUES tdp (s.trafficHistorySeconds ++ [tdp]),
          s.trafficHistoryMinutes ++ [tdp], s.trafficHistoryHours, tdp,
          s.lastMinuteUsedForHours⟩) ∨
    (opensPeriod TIME_PERIOD_MINTUES s.lastSecondUsedForMinute tdp = true ∧
      opensPeriod TIME_PERIOD_HOURS s.lastMinuteUsedForHours tdp = true ∧
      s.addDataPoint tdp =
        ⟨removeOutdated TIME_PERIOD_MINTUES tdp (s.trafficHistorySeconds ++ [tdp]),
          removeOutdated TIME_PERIOD_HOURS tdp (s.trafficHistoryMinutes ++ [tdp]),
          s.trafficHistoryHours ++ [tdp], tdp, tdp⟩) := by
  cases hminute : opensPeriod TIME_PERIOD_MINTUES s.lastSecondUsedForMinute tdp with
  | false => exact .inl ⟨rfl, by simp [addDataPoint, removeAndAverage, hminute]⟩
  | true =>
      cases hhour : opensPeriod TIME_PERIOD_HOURS s.lastMinuteUsedForHours tdp with
      | false =>
          exact .inr (.inl ⟨rfl, rfl, by
            simp [addDataPoint, removeAndAverage, averageMinutes, hminute, hhour]⟩)
      | true =>
          exact .inr (.inr ⟨rfl, rfl, by
            simp [addDataPoint, removeAndAverage, averageMinutes, hminute, hhour]⟩)

/-- One point at most for each period, in order. -/
def OnePerPeriod (timePeriod : Int) (tps : List TrafficDatapoint) : Prop :=
  tps.Pairwise fun p q => p.timestamp / timePeriod < q.timestamp / timePeriod

def Sorted (tps : List TrafficDatapoint) : Prop :=
  tps.Pairwise fun p q => p.timestamp ≤ q.timestamp

/-- The state when the last point had the timestamp `newest`. -/
structure Kept (s : TrafficHistory) (newest : Int) : Prop where
  seconds : Window TIME_PERIOD_MINTUES s.trafficHistorySeconds
    s.lastSecondUsedForMinute.timestamp newest
  minutes : Window TIME_PERIOD_HOURS s.trafficHistoryMinutes
    s.lastMinuteUsedForHours.timestamp newest
  lastSecond_nonneg : 0 ≤ s.lastSecondUsedForMinute.timestamp
  lastMinute_nonneg : 0 ≤ s.lastMinuteUsedForHours.timestamp
  seconds_sorted : Sorted s.trafficHistorySeconds
  minutes_sorted : OnePerPeriod TIME_PERIOD_MINTUES s.trafficHistoryMinutes
  hours_sorted : OnePerPeriod TIME_PERIOD_HOURS s.trafficHistoryHours
  hours_le : ∀ p ∈ s.trafficHistoryHours, p.timestamp ≤ newest

theorem OnePerPeriod.sorted {timePeriod : Int} (hperiod : 0 < timePeriod)
    {tps : List TrafficDatapoint} (h : OnePerPeriod timePeriod tps) : Sorted tps := by
  apply h.imp
  intro p q hpq
  by_contra hlt
  exact absurd (Int.ediv_le_ediv hperiod (Int.le_of_lt (not_le.mp hlt))) (not_le.mpr hpq)

/-- A point of a new period goes to the end. -/
theorem OnePerPeriod.append {timePeriod newest : Int} (hperiod : 0 < timePeriod)
    {tps : List TrafficDatapoint} {tdp : TrafficDatapoint} (h : OnePerPeriod timePeriod tps)
    (hle : ∀ p ∈ tps, p.timestamp ≤ newest)
    (hlt : newest / timePeriod < tdp.timestamp / timePeriod) :
    OnePerPeriod timePeriod (tps ++ [tdp]) := by
  apply List.pairwise_append.mpr
  refine ⟨h, List.pairwise_singleton _ _, ?_⟩
  intro p hp q hq
  obtain rfl := List.mem_singleton.mp hq
  exact Int.lt_of_le_of_lt (Int.ediv_le_ediv hperiod (hle p hp)) hlt

theorem Sorted.append {newest : Int} {tps : List TrafficDatapoint} {tdp : TrafficDatapoint}
    (h : Sorted tps) (hle : ∀ p ∈ tps, p.timestamp ≤ newest) (hnew : newest ≤ tdp.timestamp) :
    Sorted (tps ++ [tdp]) := by
  apply List.pairwise_append.mpr
  refine ⟨h, List.pairwise_singleton _ _, ?_⟩
  intro p hp q hq
  obtain rfl := List.mem_singleton.mp hq
  exact Int.le_trans (hle p hp) hnew

/-- A minute lies in one hour. -/
theorem hour_le_of_minute_le {a b : Int}
    (h : a / TIME_PERIOD_MINTUES ≤ b / TIME_PERIOD_MINTUES) :
    a / TIME_PERIOD_HOURS ≤ b / TIME_PERIOD_HOURS := by
  simp only [TIME_PERIOD_MINTUES, TIME_PERIOD_HOURS] at *
  omega

theorem minutes_pos : 0 < TIME_PERIOD_MINTUES := by decide

theorem hours_pos : 0 < TIME_PERIOD_HOURS := by decide

theorem kept_addDataPoint {s : TrafficHistory} {newest : Int} {tdp : TrafficDatapoint}
    (h : s.Kept newest) (hnonneg : 0 ≤ tdp.timestamp) (hlt : tdp.timestamp < 2 ^ 63)
    (hle : newest ≤ tdp.timestamp) : (s.addDataPoint tdp).Kept tdp.timestamp := by
  have hseconds := h.seconds_sorted.append (fun p hp => (h.seconds.range p hp).2) hle
  have hrange : ∀ p ∈ s.trafficHistorySeconds ++ [tdp],
      0 ≤ p.timestamp ∧ p.timestamp ≤ tdp.timestamp := by
    intro p hp
    rcases List.mem_append.mp hp with hp | hp
    · exact ⟨(h.seconds.range p hp).1, Int.le_trans (h.seconds.range p hp).2 hle⟩
    · obtain rfl := List.mem_singleton.mp hp
      exact ⟨hnonneg, Int.le_refl _⟩
  have hours_le : ∀ p ∈ s.trafficHistoryHours, p.timestamp ≤ tdp.timestamp :=
    fun p hp => Int.le_trans (h.hours_le p hp) hle
  rcases addDataPoint_cases s tdp with
    ⟨hminute, heq⟩ | ⟨hminute, hhour, heq⟩ | ⟨hminute, hhour, heq⟩
  · -- within the minute
    rw [← Bool.not_eq_true, opensPeriod_iff h.lastSecond_nonneg hnonneg, not_lt] at hminute
    have hhour : tdp.timestamp / TIME_PERIOD_HOURS ≤
        s.lastMinuteUsedForHours.timestamp / TIME_PERIOD_HOURS := by
      rw [h.minutes.index]
      apply hour_le_of_minute_le
      rwa [← h.seconds.index]
    rw [heq]
    exact ⟨h.seconds.append minutes_pos hnonneg hle hminute,
      (h.minutes.append hours_pos hnonneg hle hhour).sublist (List.sublist_append_left _ _),
      h.lastSecond_nonneg, h.lastMinute_nonneg, hseconds, h.minutes_sorted, h.hours_sorted,
      hours_le⟩
  · -- the first point of a minute
    rw [opensPeriod_iff h.lastSecond_nonneg hnonneg, h.seconds.index] at hminute
    rw [← Bool.not_eq_true, opensPeriod_iff h.lastMinute_nonneg hnonneg, not_lt] at hhour
    rw [heq, removeOutdated_eq minutes_pos hrange hlt]
    exact ⟨h.seconds.prune hnonneg hle, h.minutes.append hours_pos hnonneg hle hhour, hnonneg,
      h.lastMinute_nonneg, hseconds.sublist List.filter_sublist,
      h.minutes_sorted.append minutes_pos (fun p hp => (h.minutes.range p hp).2) hminute,
      h.hours_sorted, hours_le⟩
  · -- the first point of an hour
    have hrange' : ∀ p ∈ s.trafficHistoryMinutes ++ [tdp],
        0 ≤ p.timestamp ∧ p.timestamp ≤ tdp.timestamp := by
      intro p hp
      rcases List.mem_append.mp hp with hp | hp
      · exact ⟨(h.minutes.range p hp).1, Int.le_trans (h.minutes.range p hp).2 hle⟩
      · obtain rfl := List.mem_singleton.mp hp
        exact ⟨hnonneg, Int.le_refl _⟩
    rw [opensPeriod_iff h.lastSecond_nonneg hnonneg, h.seconds.index] at hminute
    rw [opensPeriod_iff h.lastMinute_nonneg hnonneg, h.minutes.index] at hhour
    rw [heq, removeOutdated_eq minutes_pos hrange hlt, removeOutdated_eq hours_pos hrange' hlt]
    have hminutes := h.minutes_sorted.append minutes_pos
      (fun p hp => (h.minutes.range p hp).2) hminute
    refine ⟨h.seconds.prune hnonneg hle, h.minutes.prune hnonneg hle, hnonneg, hnonneg,
      hseconds.sublist List.filter_sublist, hminutes.sublist List.filter_sublist,
      h.hours_sorted.append hours_pos h.hours_le hhour, ?_⟩
    intro p hp
    rcases List.mem_append.mp hp with hp | hp
    · exact hours_le p hp
    · obtain rfl := List.mem_singleton.mp hp
      exact Int.le_refl _

/-- What is recent stays: nothing leaves a list but points of five periods ago. -/
theorem recent_addDataPoint {s : TrafficHistory} {newest : Int} {tdp : TrafficDatapoint}
    (h : s.Kept newest) (hnonneg : 0 ≤ tdp.timestamp) (hlt : tdp.timestamp < 2 ^ 63)
    (hle : newest ≤ tdp.timestamp) :
    ((s.trafficHistorySeconds ++ [tdp]).filter
        (within (5 * TIME_PERIOD_MINTUES) tdp.timestamp)).Sublist
      (s.addDataPoint tdp).trafficHistorySeconds ∧
    (s.trafficHistoryMinutes.filter (within (5 * TIME_PERIOD_HOURS) tdp.timestamp)).Sublist
      (s.addDataPoint tdp).trafficHistoryMinutes := by
  have hrange : ∀ tps : List TrafficDatapoint,
      (∀ p ∈ tps, 0 ≤ p.timestamp ∧ p.timestamp ≤ newest) →
      ∀ p ∈ tps ++ [tdp], 0 ≤ p.timestamp ∧ p.timestamp ≤ tdp.timestamp := by
    intro tps htps p hp
    rcases List.mem_append.mp hp with hp | hp
    · exact ⟨(htps p hp).1, Int.le_trans (htps p hp).2 hle⟩
    · obtain rfl := List.mem_singleton.mp hp
      exact ⟨hnonneg, Int.le_refl _⟩
  have hseconds := removeOutdated_eq minutes_pos (hrange _ h.seconds.range) hlt
  have hminutes := removeOutdated_eq hours_pos (hrange _ h.minutes.range) hlt
  rcases addDataPoint_cases s tdp with ⟨-, heq⟩ | ⟨-, -, heq⟩ | ⟨-, -, heq⟩ <;> rw [heq]
  · exact ⟨List.filter_sublist, List.filter_sublist⟩
  · rw [hseconds]
    exact ⟨List.Sublist.refl _, List.filter_sublist.trans (List.sublist_append_left _ _)⟩
  · rw [hseconds, hminutes]
    exact ⟨List.Sublist.refl _, (List.sublist_append_left _ _).filter _⟩

/-! ### Runs -/

/-- The points of a clock that does not go back. -/
structure Clock (es : List TrafficDatapoint) : Prop where
  range : ∀ p ∈ es, 0 ≤ p.timestamp ∧ p.timestamp < 2 ^ 63
  sorted : Sorted es

theorem Clock.left {es fs : List TrafficDatapoint} (h : Clock (es ++ fs)) : Clock es :=
  ⟨fun p hp => h.range p (List.mem_append_left fs hp),
    h.sorted.sublist (List.sublist_append_left _ _)⟩

/-- The timestamp of the last point. -/
def newest (es : List TrafficDatapoint) : Int := (es.getLast?.map TrafficDatapoint.timestamp).getD 0

@[simp] theorem newest_append_singleton (es : List TrafficDatapoint) (tdp : TrafficDatapoint) :
    newest (es ++ [tdp]) = tdp.timestamp := by
  simp [newest]

theorem Clock.newest_le {es : List TrafficDatapoint} {tdp : TrafficDatapoint}
    (h : Clock (es ++ [tdp])) : newest es ≤ tdp.timestamp := by
  rw [newest]
  cases hlast : es.getLast? with
  | none => exact (h.range tdp (by simp)).1
  | some p =>
      apply (List.pairwise_append.mp h.sorted).2.2 p (List.mem_of_getLast? hlast)
      exact List.mem_singleton_self tdp

theorem kept_run {es : List TrafficDatapoint} (h : Clock es) :
    (trafficHistory.run es).Kept (newest es) := by
  induction es using List.reverseRecOn with
  | nil =>
      exact ⟨⟨rfl, nofun, nofun⟩, ⟨rfl, nofun, nofun⟩, Int.le_refl 0, Int.le_refl 0, .nil, .nil,
        .nil, nofun⟩
  | append_singleton es tdp ih =>
      have htdp := h.range tdp (by simp)
      rw [Machine.run_append_singleton, newest_append_singleton]
      exact kept_addDataPoint (ih h.left) htdp.1 htdp.2 h.newest_le

/-- Points that are recent for a later clock were recent before. -/
theorem filter_within_sublist {span early late : Int} (hle : early ≤ late)
    {tps tps' : List TrafficDatapoint} (h : (tps.filter (within span early)).Sublist tps') :
    (tps.filter (within span late)).Sublist (tps'.filter (within span late)) := by
  have heq : tps.filter (within span late) =
      (tps.filter (within span early)).filter (within span late) := by
    rw [List.filter_filter]
    apply List.filter_congr
    intro p _
    rw [Bool.eq_iff_iff, Bool.and_eq_true]
    simp only [within, decide_eq_true_iff]
    omega
  rw [heq]
  exact h.filter _

theorem recent_seconds {es : List TrafficDatapoint} (h : Clock es) :
    (es.filter (within (5 * TIME_PERIOD_MINTUES) (newest es))).Sublist
      (trafficHistory.run es).trafficHistorySeconds := by
  induction es using List.reverseRecOn with
  | nil => exact List.Sublist.slnil
  | append_singleton es tdp ih =>
      have htdp := h.range tdp (by simp)
      have hstep := (recent_addDataPoint (kept_run h.left) htdp.1 htdp.2 h.newest_le).1
      have hbefore := filter_within_sublist h.newest_le (ih h.left)
      rw [Machine.run_append_singleton, newest_append_singleton]
      apply List.Sublist.trans _ hstep
      rw [List.filter_append, List.filter_append]
      exact hbefore.append_right _

theorem recent_minutes {before after : List TrafficDatapoint} (h : Clock (before ++ after)) :
    ((trafficHistory.run before).trafficHistoryMinutes.filter
        (within (5 * TIME_PERIOD_HOURS) (newest (before ++ after)))).Sublist
      (trafficHistory.run (before ++ after)).trafficHistoryMinutes := by
  induction after using List.reverseRecOn with
  | nil =>
      rw [List.append_nil]
      exact List.filter_sublist
  | append_singleton after tdp ih =>
      rw [← List.append_assoc] at h ⊢
      have htdp := h.range tdp (by simp)
      have hstep := (recent_addDataPoint (kept_run h.left) htdp.1 htdp.2 h.newest_le).2
      rw [Machine.run_append_singleton, newest_append_singleton]
      exact (filter_within_sublist h.newest_le (ih h.left)).trans hstep

/-- The lists after the points `es`.  A point that the list of minutes received is one
    that was in it after some of the calls. -/
structure Retained (es : List TrafficDatapoint) : Prop where
  seconds_sorted : Sorted (trafficHistory.run es).trafficHistorySeconds
  minutes_sorted : Sorted (trafficHistory.run es).trafficHistoryMinutes
  hours_sorted : Sorted (trafficHistory.run es).trafficHistoryHours
  /-- less than 5 minutes -/
  seconds_recent : (es.filter (within (5 * 60 * 1000) (newest es))).Sublist
    (trafficHistory.run es).trafficHistorySeconds
  /-- less than 6 minutes -/
  seconds_young : ∀ p ∈ (trafficHistory.run es).trafficHistorySeconds,
    within (6 * 60 * 1000) (newest es) p = true
  minutes_once : (trafficHistory.run es).trafficHistoryMinutes.Pairwise fun p q =>
    p.timestamp / (60 * 1000) ≠ q.timestamp / (60 * 1000)
  /-- less than 5 hours -/
  minutes_recent : ∀ before after, es = before ++ after →
    ((trafficHistory.run before).trafficHistoryMinutes.filter
      (within (5 * 3600 * 1000) (newest es))).Sublist
      (trafficHistory.run es).trafficHistoryMinutes
  /-- less than 6 hours -/
  minutes_young : ∀ p ∈ (trafficHistory.run es).trafficHistoryMinutes,
    within (6 * 3600 * 1000) (newest es) p = true
  hours_once : (trafficHistory.run es).trafficHistoryHours.Pairwise fun p q =>
    p.timestamp / (3600 * 1000) ≠ q.timestamp / (3600 * 1000)

/-- After each call of a run with a clock that does not go back. -/
theorem retained_add (es : List TrafficDatapoint) (h : Clock es) : Retained es := by
  have hkept := kept_run h
  refine ⟨hkept.seconds_sorted, hkept.minutes_sorted.sorted minutes_pos,
    hkept.hours_sorted.sorted hours_pos, recent_seconds h, ?_, ?_, ?_, ?_, ?_⟩
  · intro p hp
    exact decide_eq_true (hkept.seconds.young_newest minutes_pos p hp)
  · exact hkept.minutes_sorted.imp Int.ne_of_lt
  · rintro before after rfl
    exact recent_minutes h
  · intro p hp
    exact decide_eq_true (hkept.minutes.young_newest hours_pos p hp)
  · exact hkept.hours_sorted.imp Int.ne_of_lt

/-- Two points of one minute, one of the next hour and one six minutes later. -/
theorem retained_add_hour :
    Retained [⟨1, 1, 3600000⟩, ⟨2, 1, 3659999⟩, ⟨5, 4, 7200000⟩, ⟨5, 4, 7560000⟩] := by
  apply retained_add
  exact ⟨by simp, by simp [Sorted]⟩

end TrafficHistory

end OpenVpnAndroid
