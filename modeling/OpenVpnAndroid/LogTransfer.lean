/-
  OpenVpnAndroid/LogTransfer.lean
  ===============================
  **The log buffer in the status pipe.**

  At a registration the thread `pushLogs` of the service writes the buffer to a pipe,
  each item behind its length, and `StatusListener` of the other process reads it up
  to the mark 0x7fff.

  An item that `getMarschaledBytes` refuses is not skipped: the exception is unchecked,
  and the thread ends before the mark.  An item with more than 30 arguments is written
  and ends the reader.  Without such items the transfer is complete
  (`transferComplete_iff`).
-/
import OpenVpnAndroid.LogItem

namespace OpenVpnAndroid

namespace OpenVPNStatusService

def writeShort (n : Nat) : List UInt8 := bigEndian 2 n

/-- What the thread writes, and the exception that it ends with. -/
def pushLogs : List LogItem → List UInt8 × Option LogItemException
  | [] => (writeShort 0x7fff, none)
  | logItem :: logbuffer =>
      match logItem.getMarschaledBytes with
      | .error e => ([], some e)
      | .ok bytes =>
          let (stream, thrown) := pushLogs logbuffer
          (writeShort bytes.length ++ (bytes ++ stream), thrown)

end OpenVPNStatusService

namespace StatusListener

/-- `fd.readShort()`, unless the stream is at its end. -/
def readShort : List UInt8 → Option (Int × List UInt8)
  | b :: b' :: stream =>
      some ((Int16.ofBitVec (BitVec.ofNat 16 (BigEndian.value [b, b']))).toInt, stream)
  | _ => none

theorem length_of_readShort {stream rest : List UInt8} {len : Int}
    (h : readShort stream = some (len, rest)) : rest.length < stream.length := by
  match stream, h with
  | _ :: _ :: _, h =>
      cases h
      exact Nat.lt_succ_of_lt (Nat.lt_succ_self _)

/-- How the read loop ends. -/
inductive ReadEnd where
  | finished
  | eofException
  | indexOutOfBounds
  | thrown (e : LogItemException)
deriving DecidableEq, Repr

/-- The read loop of `onServiceConnected`: the items for `VpnStatus.newLogItem`, and
    its end.  Of the array `buf` only the bytes that were just read are used. -/
def readLogs (stream : List UInt8) : List LogItem × ReadEnd :=
  match _hread : readShort stream with
  | none => ([], .eofException)
  | some (len, rest) =>
      if len = 0x7fff then ([], .finished)
      else if len < 0 then ([], .indexOutOfBounds)
      else if (rest.length : Int) < len then ([], .eofException)
      else
        match LogItem.ofBytes (rest.take len.toNat) len with
        | .error e => ([], .thrown e)
        | .ok logitem =>
            let (items, ended) := readLogs (rest.drop len.toNat)
            (logitem :: items, ended)
termination_by stream.length
decreasing_by
  rw [List.length_drop]
  exact Nat.lt_of_le_of_lt (Nat.sub_le _ _) (length_of_readShort _hread)

/-! ### One item -/

theorem readShort_writeShort {n : Nat} (h : n ≤ 0x7fff) (rest : List UInt8) :
    readShort (OpenVPNStatusService.writeShort n ++ rest) = some ((n : Int), rest) := by
  have hlt : n < 256 ^ 2 := Nat.lt_of_le_of_lt h (by decide)
  have hvalue := BigEndian.value_bigEndian_of_lt hlt
  have hint : (Int16.ofBitVec (BitVec.ofNat 16 n)).toInt = (n : Int).bmod (2 ^ 16) :=
    BitVec.toInt_ofNat' _
  obtain ⟨b, b', hbytes⟩ := List.length_eq_two.mp (BigEndian.length_bigEndian 2 n)
  rw [hbytes] at hvalue
  have hsmall : (n : Int).bmod (2 ^ 16) = n := by
    rw [Int.bmod]
    split <;> omega
  rw [OpenVPNStatusService.writeShort, hbytes]
  show some ((Int16.ofBitVec (BitVec.ofNat 16 (BigEndian.value [b, b']))).toInt, rest) = _
  rw [hvalue, hint, hsmall]

theorem readLogs_nil : readLogs [] = ([], .eofException) := by
  rw [readLogs]
  rfl

theorem readLogs_end (rest : List UInt8) :
    readLogs (OpenVPNStatusService.writeShort 0x7fff ++ rest) = ([], .finished) := by
  have hread := readShort_writeShort (Nat.le_refl 0x7fff) rest
  rw [readLogs]
  split
  · rename_i hnone
    rw [hread] at hnone
    cases hnone
  · rename_i hsome
    rw [hread] at hsome
    cases hsome
    rfl

/-- One round of the loop for one item of the other side. -/
theorem readLogs_item {bytes : List UInt8} (h : bytes.length ≤ LogItem.CAPACITY)
    (rest : List UInt8) :
    readLogs (OpenVPNStatusService.writeShort bytes.length ++ (bytes ++ rest)) =
      match LogItem.ofBytes bytes bytes.length with
      | .error e => ([], .thrown e)
      | .ok logitem => (logitem :: (readLogs rest).1, (readLogs rest).2) := by
  have hcap : bytes.length ≤ 16384 := h
  have hread := readShort_writeShort (Nat.le_trans hcap (by decide)) (bytes ++ rest)
  have hmark : ¬ ((bytes.length : Int) = 0x7fff) := by omega
  have hsign : ¬ ((bytes.length : Int) < 0) := Int.not_lt.mpr (Int.natCast_nonneg _)
  have hroom : ¬ (((bytes ++ rest).length : Int) < bytes.length) := by
    rw [List.length_append]
    omega
  rw [readLogs]
  split
  · rename_i hnone
    rw [hread] at hnone
    cases hnone
  · rename_i hsome
    rw [hread] at hsome
    cases hsome
    rw [if_neg hmark, if_neg hsign, if_neg hroom, Int.toNat_natCast, List.take_left,
      List.drop_left]

/-! ### The whole buffer -/

open OpenVPNStatusService

/-- The transfer of a buffer: the loop ends at the mark, and the items that fit were
    added in their order. -/
def TransferComplete (logbuffer : List LoggedItem) : Prop :=
  (readLogs (pushLogs (logbuffer.map (·.item))).1).2 = .finished ∧
    List.Forall₂ LogItem.SameRecord (readLogs (pushLogs (logbuffer.map (·.item))).1).1
      ((logbuffer.filter fun x => x.Fits).map (·.item))

/-- An item that arrives. -/
structure Transferable (x : LoggedItem) : Prop where
  fits : x.Fits
  count : (x.item.mArgs.getD []).length ≤ 30

theorem pushLogs_cons {x : LoggedItem} (h : x.Fits) (logbuffer : List LogItem) :
    (pushLogs (x.item :: logbuffer)).1 =
      writeShort (x.item.marschaled x.level).length ++
        (x.item.marschaled x.level ++ (pushLogs logbuffer).1) := by
  rw [pushLogs, LoggedItem.getMarschaledBytes_of_fits h]

theorem ofBytes_marschaled {x : LoggedItem} (h : Transferable x) :
    LogItem.ofBytes (x.item.marschaled x.level) (x.item.marschaled x.level).length =
      .ok x.item.recorded := by
  rw [LogItem.ofBytes_self, LogItem.unmarschal_recorded x.hasLevel h.count h.fits]
  rfl

/-- What comes out of the pipe after an item that arrives. -/
theorem readLogs_transferable {x : LoggedItem} (h : Transferable x) (logbuffer : List LogItem) :
    readLogs (pushLogs (x.item :: logbuffer)).1 =
      (x.item.recorded :: (readLogs (pushLogs logbuffer).1).1,
        (readLogs (pushLogs logbuffer).1).2) := by
  rw [pushLogs_cons h.fits, readLogs_item h.fits, ofBytes_marschaled h]

theorem readLogs_not_transferable {x : LoggedItem} (h : ¬ Transferable x)
    (logbuffer : List LogItem) :
    (readLogs (pushLogs (x.item :: logbuffer)).1).2 ≠ .finished := by
  by_cases hfits : x.Fits
  · have hmany : 30 < (x.item.mArgs.getD []).length :=
      Nat.not_le.mp fun hcount => h ⟨hfits, hcount⟩
    have hfails := LogItem.fails_many hmany hfits
    rw [pushLogs_cons hfits, readLogs_item hfits, LogItem.ofBytes_self]
    cases hrun : LogItem.unmarschal.run (x.item.marschaled x.level) with
    | error e => exact nofun
    | ok r => exact absurd hrun (hfails.ne_ok r)
  · have hempty : (pushLogs (x.item :: logbuffer)).1 = [] := by
      rw [pushLogs, LoggedItem.getMarschaledBytes_of_not_fits hfits]
    rw [hempty, readLogs_nil]
    exact nofun

theorem readLogs_pushLogs {logbuffer : List LoggedItem} (h : ∀ x ∈ logbuffer, Transferable x) :
    readLogs (pushLogs (logbuffer.map (·.item))).1 =
      (logbuffer.map (·.item.recorded), .finished) := by
  induction logbuffer with
  | nil => exact readLogs_end []
  | cons x logbuffer ih =>
      rw [List.map_cons, readLogs_transferable (h x List.mem_cons_self),
        ih fun y hy => h y (List.mem_cons_of_mem x hy), List.map_cons]

theorem transferable_of_finished {logbuffer : List LoggedItem}
    (h : (readLogs (pushLogs (logbuffer.map (·.item))).1).2 = .finished) :
    ∀ x ∈ logbuffer, Transferable x := by
  induction logbuffer with
  | nil => exact fun x hx => nomatch hx
  | cons x logbuffer ih =>
      by_cases hx : Transferable x
      · rw [List.map_cons, readLogs_transferable hx] at h
        intro y hy
        rcases List.mem_cons.mp hy with rfl | hy
        · exact hx
        · exact ih h y hy
      · exact absurd h (readLogs_not_transferable hx _)

/-- The transfer is complete if every item fits and has 30 arguments at most. -/
theorem transferComplete_iff (logbuffer : List LoggedItem) :
    TransferComplete logbuffer ↔
      ∀ x ∈ logbuffer, x.Fits ∧ (x.item.mArgs.getD []).length ≤ 30 := by
  constructor
  · intro h x hx
    have hx := transferable_of_finished h.1 x hx
    exact ⟨hx.fits, hx.count⟩
  · intro h
    have hall : ∀ x ∈ logbuffer, Transferable x := fun x hx => ⟨(h x hx).1, (h x hx).2⟩
    have hread := readLogs_pushLogs hall
    have hfilter : (logbuffer.filter fun x => x.Fits) = logbuffer :=
      List.filter_eq_self.mpr fun x hx => decide_eq_true (hall x hx).fits
    rw [TransferComplete, hread, hfilter, List.forall₂_map_left_iff, List.forall₂_map_right_iff,
      List.forall₂_same]
    exact ⟨rfl, fun x _ => LogItem.getMarschaledBytes_recorded x.item⟩

/-- A line of so many characters. -/
def lineOfLength (n : Nat) : LoggedItem where
  item := ⟨none, some (JavaString.ofText (List.replicate n 'a')), 0, some .INFO, 0, -1⟩
  level := .INFO
  hasLevel := rfl

theorem fits_lineOfLength {n : Nat} (h : (lineOfLength n).Fits) : n + 29 ≤ LogItem.CAPACITY := by
  have hbytes : (JavaString.ofText (List.replicate n 'a')).getBytes.length = n := by
    rw [JavaString.getBytes_ofText, Utf8.encode, List.length_flatMap, List.map_replicate]
    have hone : 'a'.utf8Size = 1 := rfl
    simp [String.length_utf8EncodeChar, hone]
  have hlength := LogItem.length_marschaled (lineOfLength n).item .INFO
  rw [show (lineOfLength n).item.mMessage.getD [] =
    JavaString.ofText (List.replicate n 'a') from rfl, hbytes] at hlength
  have hle : n + 29 ≤ ((lineOfLength n).item.marschaled .INFO).length := by
    rw [hlength]
    exact Nat.le_add_right _ _
  exact Nat.le_trans hle h

/-- With a line of 16384 characters in the buffer nothing comes to its end. -/
theorem not_transferComplete : ¬ TransferComplete [lineOfLength 16384] := fun h =>
  absurd (fits_lineOfLength (transferable_of_finished h.1 _ List.mem_cons_self).fits) (by decide)

end StatusListener

end OpenVpnAndroid
