/-
  OpenVpnAndroid/LogFraming.lean
  ==============================
  **The records of the log file.**

  `writeEscapedBytes` writes the magic byte, a length and the bytes, in which every
  magic byte is escaped.  `readCacheContents` reads the records back; where a record
  does not start with the magic byte it looks for the next one, and a magic byte
  inside a record ends it early.

  The length is not escaped.  It is read before anything is looked for, so what is
  written is read back record by record (`readCacheContents_written`).

  The reader is given by what it tells `VpnStatus` and `restoreLogItem`, in order.
-/
import OpenVpnAndroid.LogItem

namespace OpenVpnAndroid

/-- `VpnStatus.MAXLOGENTRIES` -/
def MAXLOGENTRIES : Nat := 1000

namespace LogFileHandler

def MAGIC_BYTE : UInt8 := 0x55

/-! ### Writing -/

def escapeByte (b : UInt8) : List UInt8 :=
  if b = MAGIC_BYTE ∨ b = MAGIC_BYTE + 1 then [MAGIC_BYTE + 1, b - MAGIC_BYTE] else [b]

def writeEscapedBytes (bytes : List UInt8) : List UInt8 :=
  MAGIC_BYTE :: (putLength bytes.length ++ bytes.flatMap escapeByte)

/-! ### Reading -/

/-- What the reader does that others see. -/
inductive CacheEvent where
  | restoreLogItem (buf : List UInt8) (len : Int)
  | logDebug (msg : Text)
  | logError (msg : Text)
  /-- the message `reread_log` -/
  | reread (itemsRead : Nat)
deriving DecidableEq, Repr

/-- How the reader ends.  `running` is a loop that is not finished. -/
inductive CacheEnd where
  | returned
  | thrown (e : LogItemException)
  | arrayIndexOutOfBounds
  | running
deriving DecidableEq, Repr

/-- The array of 16384 bytes that the reader uses; no access is outside of it. -/
abbrev Buffer := Nat → UInt8

/-- `buf.length` and `buf2.length` -/
def BUFFER_LENGTH : Nat := 16384

def Buffer.store (buf : Buffer) (off : Nat) (bytes : List UInt8) : Buffer := fun i =>
  if off ≤ i then (bytes[i - off]?).getD (buf i) else buf i

/-- `logFile.read(buf, off, n)`: the result, the array and the stream behind it. -/
def readInto (buf : Buffer) (off n : Nat) (stream : List UInt8) : Int × Buffer × List UInt8 :=
  (if stream.isEmpty then -1 else (stream.take n).length, buf.store off (stream.take n),
    stream.drop n)

/-- `(byte) logFile.read()`; the end of the stream is -1. -/
def readByte : List UInt8 → UInt8 × List UInt8
  | [] => (0xFF, [])
  | b :: stream => (b, stream)

/-- The search for a magic byte. -/
inductive Search where
  | found (buf : Buffer) (skipped : Nat) (stream : List UInt8)
  | notFound (skipped : Nat)

/-- The last five bytes are in the array, from `skipped` on. -/
def findMagic (buf : Buffer) (skipped : Nat) : List UInt8 → Search
  | [] => if buf skipped = MAGIC_BYTE then .found buf skipped [] else .notFound (skipped + 1)
  | b :: stream =>
      if buf skipped = MAGIC_BYTE then .found buf skipped (b :: stream)
      else if skipped + 1 + 10 > BUFFER_LENGTH then .notFound (skipped + 1)
      else findMagic (buf.store (skipped + 1 + 4) [b]) (skipped + 1) stream

/-- The length behind the magic byte. -/
def lengthAt (buf : Buffer) (skipped : Nat) : Int :=
  (Int32.ofBitVec (BitVec.ofNat 32 (BigEndian.value
    [buf (skipped + 1), buf (skipped + 2), buf (skipped + 3), buf (skipped + 4)]))).toInt

/-- One byte of a record, unescaped. -/
inductive Unescaped where
  | byte (b : UInt8) (stream : List UInt8)
  | magic (stream : List UInt8)
  | bad (b : UInt8) (stream : List UInt8)

def unescape (stream : List UInt8) : Unescaped :=
  let (b, stream) := readByte stream
  if b = MAGIC_BYTE then .magic stream
  else if b = MAGIC_BYTE + 1 then
    let (b, stream) := readByte stream
    if b = 0 then .byte MAGIC_BYTE stream
    else if b = 1 then .byte (MAGIC_BYTE + 1) stream
    else .bad b stream
  else .byte b stream

/-- The bytes of a record, or where they end early. -/
inductive Payload where
  | complete (bytes stream : List UInt8)
  | unexpectedMagic (pos : Nat) (stream : List UInt8)
  | badEscape (b : UInt8) (stream : List UInt8)
  /-- `buf2[pos]` does not exist -/
  | outOfBounds

def Payload.cons (b : UInt8) : Payload → Payload
  | .complete bytes stream => .complete (b :: bytes) stream
  | other => other

/-- The loop `while (pos < len)` for `len - pos` bytes. -/
def readPayload : Nat → Nat → List UInt8 → Payload
  | 0, _, stream => .complete [] stream
  | n + 1, pos, stream =>
      match unescape stream with
      | .magic stream => .unexpectedMagic pos stream
      | .bad b stream => .badEscape b stream
      | .byte b stream =>
          if pos < BUFFER_LENGTH then (readPayload n (pos + 1) stream).cons b else .outOfBounds

/-- The array `buf2` with the bytes of a record. -/
def buf2 (bytes : List UInt8) : List UInt8 :=
  bytes ++ List.replicate (BUFFER_LENGTH - bytes.length) 0

def say (event : CacheEvent) (r : List CacheEvent × CacheEnd) : List CacheEvent × CacheEnd :=
  (event :: r.1, r.2)

section Readloop

-- The exception that `restoreLogItem` throws, if it throws one.
variable (restores : List UInt8 → Int → Option LogItemException)

/-- A record whose magic byte is at `skipped`, and `next` for the rest of the loop. -/
def readRecord (next : Buffer → Int → List UInt8 → Nat → List CacheEvent × CacheEnd)
    (buf : Buffer) (len : Int) (stream : List UInt8) (itemsRead : Nat) :
    List CacheEvent × CacheEnd :=
  match readPayload len.toNat 0 stream with
  | .outOfBounds => ([], .arrayIndexOutOfBounds)
  | .unexpectedMagic pos stream =>
      let (read, buf, stream) := readInto buf 1 4 stream
      say (.logDebug (("Unexpected magic byte found at pos " : Text) ++ decimal pos ++
          (", abort current log item" : Text)))
        (next buf (read + 1) stream itemsRead)
  | .badEscape b stream =>
      let (read, buf, stream) := readInto buf 1 4 stream
      say (.logDebug (("Escaped byte not 0 or 1: " : Text) ++ decimal b.toInt8.toInt))
        (next buf (read + 1) stream itemsRead)
  | .complete bytes stream =>
      say (.restoreLogItem (buf2 bytes) len)
        (match restores (buf2 bytes) len with
        | some e => ([], .thrown e)
        | none =>
            let (read, buf, stream) := readInto buf 0 5 stream
            if itemsRead + 1 > 2 * MAXLOGENTRIES then
              say (.logError ("Too many logentries read from cache, aborting." : Text))
                (next buf 0 stream (itemsRead + 1))
            else next buf read stream (itemsRead + 1))

/-- `while (read >= 5)`, for so many rounds at most. -/
def readloop : Nat → Buffer → Int → List UInt8 → Nat → List CacheEvent × CacheEnd
  | 0, _, _, _, _ => ([], .running)
  | rounds + 1, buf, read, stream, itemsRead =>
      if read < 5 then ([.reread itemsRead], .returned)
      else
        match findMagic buf 0 stream with
        | .notFound skipped =>
            ([.logDebug (("Skipped " : Text) ++ decimal skipped ++
                (" bytes and no a magic byte found" : Text)),
              .reread itemsRead], .returned)
        | .found buf skipped stream =>
            let record :=
              readRecord restores (readloop rounds) buf (lengthAt buf skipped) stream itemsRead
            if skipped > 0 then
              say (.logDebug (("Skipped " : Text) ++ decimal skipped ++
                (" bytes before finding a magic byte" : Text))) record
            else record

/-- The loop from where it reads the next header. -/
def nextItem (rounds : Nat) (buf : Buffer) (stream : List UInt8) (itemsRead : Nat) :
    List CacheEvent × CacheEnd :=
  let (read, buf, stream) := readInto buf 0 5 stream
  readloop restores rounds buf read stream itemsRead

/-- Every round but the last one takes four bytes at least. -/
def readCacheContents (input : List UInt8) : List CacheEvent × CacheEnd :=
  nextItem restores (input.length + 2) (fun _ => 0) input 0

end Readloop

/-! ### The loop ends -/

theorem length_readByte (stream : List UInt8) : (readByte stream).2.length ≤ stream.length := by
  cases stream with
  | nil => exact Nat.le_refl 0
  | cons b stream => exact Nat.le_succ _

def Unescaped.stream : Unescaped → List UInt8
  | .byte _ stream => stream
  | .magic stream => stream
  | .bad _ stream => stream

theorem length_unescape (stream : List UInt8) :
    (unescape stream).stream.length ≤ stream.length := by
  have hfirst := length_readByte stream
  have hsecond := length_readByte (readByte stream).2
  unfold unescape
  dsimp only
  split
  · exact hfirst
  · split
    · split
      · exact Nat.le_trans hsecond hfirst
      · split <;> exact Nat.le_trans hsecond hfirst
    · exact hfirst

def Payload.stream : Payload → List UInt8
  | .complete _ stream => stream
  | .unexpectedMagic _ stream => stream
  | .badEscape _ stream => stream
  | .outOfBounds => []

theorem Payload.stream_cons (b : UInt8) (p : Payload) : (p.cons b).stream = p.stream := by
  cases p <;> rfl

theorem length_readPayload (n pos : Nat) (stream : List UInt8) :
    (readPayload n pos stream).stream.length ≤ stream.length := by
  induction n generalizing pos stream with
  | zero => exact Nat.le_refl _
  | succ n ih =>
      have hstep := length_unescape stream
      rw [readPayload]
      cases hunit : unescape stream with
      | magic rest =>
          rw [hunit] at hstep
          exact hstep
      | bad b rest =>
          rw [hunit] at hstep
          exact hstep
      | byte b rest =>
          rw [hunit] at hstep
          dsimp only
          split
          · rw [Payload.stream_cons]
            exact Nat.le_trans (ih (pos + 1) rest) hstep
          · exact Nat.zero_le _

theorem length_findMagic {buf buf' : Buffer} {skipped skipped' : Nat} {stream rest : List UInt8}
    (h : findMagic buf skipped stream = .found buf' skipped' rest) :
    rest.length ≤ stream.length := by
  induction stream generalizing buf skipped with
  | nil =>
      rw [findMagic] at h
      split at h
      · cases h
        exact Nat.le_refl 0
      · cases h
  | cons b stream ih =>
      rw [findMagic] at h
      split at h
      · cases h
        exact Nat.le_refl _
      · split at h
        · cases h
        · exact Nat.le_succ_of_le (ih h)

theorem length_readInto (buf : Buffer) (off n : Nat) (stream : List UInt8) :
    (readInto buf off n stream).2.2.length = stream.length - n := List.length_drop

theorem length_of_readInto {buf : Buffer} {off n : Nat} {stream : List UInt8}
    (h : (n : Int) ≤ (readInto buf off n stream).1) : n ≤ stream.length := by
  rw [readInto] at h
  dsimp only at h
  split at h
  · omega
  · rw [List.length_take] at h
    omega

@[simp] theorem snd_say (event : CacheEvent) (r : List CacheEvent × CacheEnd) :
    (say event r).2 = r.2 := rfl

section

variable (restores : List UInt8 → Int → Option LogItemException)

/-- A header of which four bytes are read. -/
theorem rounds_resync {buf : Buffer} {left : List UInt8} {rounds : Nat}
    (hrounds : left.length + 1 ≤ rounds) (h : 5 ≤ (readInto buf 1 4 left).1 + 1) :
    (readInto buf 1 4 left).2.2.length + 1 < rounds := by
  have hfour : ((4 : Nat) : Int) ≤ (readInto buf 1 4 left).1 := by
    rw [Nat.cast_ofNat]
    exact Int.le_of_add_le_add_right h
  have hleft := length_of_readInto hfour
  rw [length_readInto]
  omega

theorem rounds_next {buf : Buffer} {left : List UInt8} {rounds : Nat}
    (hrounds : left.length + 1 ≤ rounds) (h : 5 ≤ (readInto buf 0 5 left).1) :
    (readInto buf 0 5 left).2.2.length + 1 < rounds := by
  have hleft : 5 ≤ left.length := length_of_readInto h
  rw [length_readInto]
  omega

theorem readRecord_ne_running {next : Buffer → Int → List UInt8 → Nat → List CacheEvent × CacheEnd}
    {rounds : Nat} (buf : Buffer) (len : Int) (stream : List UInt8) (itemsRead : Nat)
    (hnext : ∀ buf read stream itemsRead, (5 ≤ read → stream.length + 1 < rounds) →
      (next buf read stream itemsRead).2 ≠ .running)
    (hrounds : stream.length + 1 ≤ rounds) :
    (readRecord restores next buf len stream itemsRead).2 ≠ .running := by
  have hleft : (readPayload len.toNat 0 stream).stream.length + 1 ≤ rounds :=
    Nat.le_trans (Nat.succ_le_succ (length_readPayload len.toNat 0 stream)) hrounds
  unfold readRecord
  generalize readPayload len.toNat 0 stream = payload at hleft
  cases payload with
  | outOfBounds => simp
  | unexpectedMagic pos left =>
      simp only [snd_say]
      exact hnext _ _ _ _ (rounds_resync hleft)
  | badEscape b left =>
      simp only [snd_say]
      exact hnext _ _ _ _ (rounds_resync hleft)
  | complete bytes left =>
      simp only [snd_say]
      cases restores (buf2 bytes) len with
      | some e => simp
      | none =>
          dsimp only
          split
          · rw [snd_say]
            exact hnext _ _ _ _ fun h => absurd h (by decide)
          · exact hnext _ _ _ _ (rounds_next hleft)

/-- Enough rounds for a header that is in the array, or none at all. -/
theorem readloop_ne_running (rounds : Nat) (buf : Buffer) (read : Int) (stream : List UInt8)
    (itemsRead : Nat) (hpos : 0 < rounds) (hrounds : 5 ≤ read → stream.length + 1 < rounds) :
    (readloop restores rounds buf read stream itemsRead).2 ≠ .running := by
  induction rounds generalizing buf read stream itemsRead with
  | zero => exact absurd hpos (Nat.lt_irrefl 0)
  | succ rounds ih =>
      unfold readloop
      by_cases hread : read < 5
      · simp [hread]
      have henough : stream.length + 1 < rounds + 1 := hrounds (Int.not_lt.mp hread)
      rw [if_neg hread]
      cases hmagic : findMagic buf 0 stream with
      | notFound skipped => simp
      | found buf' skipped rest =>
          have hrest := length_findMagic hmagic
          have hrecord := readRecord_ne_running restores buf'
            (lengthAt buf' skipped) rest itemsRead
            (fun b r s i => ih b r s i (by omega)) (by omega)
          dsimp only
          split
          · rwa [snd_say]
          · exact hrecord

/-- The reader comes to an end on every file. -/
theorem readCacheContents_ne_running (input : List UInt8) :
    (readCacheContents restores input).2 ≠ .running := by
  refine readloop_ne_running restores _ _ _ _ _ (Nat.succ_pos _) fun _ => ?_
  rw [List.length_drop]
  omega

end

/-! ### What was written is read -/

@[simp] theorem readByte_cons (b : UInt8) (stream : List UInt8) :
    readByte (b :: stream) = (b, stream) := rfl

theorem unescape_escapeByte (b : UInt8) (stream : List UInt8) :
    unescape (escapeByte b ++ stream) = .byte b stream := by
  rw [escapeByte]
  split
  · rename_i hspecial
    rcases hspecial with rfl | rfl <;> simp [unescape, MAGIC_BYTE]
  · rename_i hplain
    rw [not_or] at hplain
    simp [unescape, hplain.1, hplain.2]

theorem readPayload_escaped (bytes stream : List UInt8) (pos : Nat)
    (hfits : pos + bytes.length ≤ BUFFER_LENGTH) :
    readPayload bytes.length pos (bytes.flatMap escapeByte ++ stream) =
      .complete bytes stream := by
  induction bytes generalizing pos with
  | nil => rfl
  | cons b bytes ih =>
      rw [List.length_cons] at hfits
      have hpos : pos < BUFFER_LENGTH := by omega
      rw [List.length_cons, List.flatMap_cons, List.append_assoc, readPayload, unescape_escapeByte]
      dsimp only
      rw [if_pos hpos, ih (pos + 1) (by omega), Payload.cons]

/-- A record whose header has been read. -/
structure Header (buf : Buffer) (len : Int) : Prop where
  magic : buf 0 = MAGIC_BYTE
  length : lengthAt buf 0 = len

theorem findMagic_header {buf : Buffer} {len : Int} (h : Header buf len) (stream : List UInt8) :
    findMagic buf 0 stream = .found buf 0 stream := by
  cases stream with
  | nil => rw [findMagic, if_pos h.magic]
  | cons b stream => rw [findMagic, if_pos h.magic]

theorem header_store (buf : Buffer) {n : Nat} (h : n ≤ BUFFER_LENGTH) :
    Header (buf.store 0 (MAGIC_BYTE :: putLength n)) n := by
  have hlength : (putLength n).length = 4 := BigEndian.length_bigEndian 4 _
  obtain ⟨b1, b2, b3, b4, hbytes⟩ := List.length_eq_four.mp hlength
  refine ⟨rfl, ?_⟩
  have hat : lengthAt (buf.store 0 (MAGIC_BYTE :: putLength n)) 0 =
      (Int32.ofBitVec (BitVec.ofNat 32 (BigEndian.value (putLength n)))).toInt := by
    rw [hbytes]
    rfl
  rw [hat, putLength, putInt, BigEndian.value_bigEndian_of_lt (Int32.ofNat n).toBitVec.isLt,
    BitVec.ofNat_toNat, BitVec.setWidth_eq]
  exact LogItem.toInt_ofNat_length h

section

variable (restores : List UInt8 → Int → Option LogItemException)

/-- A round up to the header. -/
theorem nextItem_header (rounds : Nat) (buf : Buffer) {n : Nat} (hn : n ≤ BUFFER_LENGTH)
    (stream : List UInt8) (itemsRead : Nat) :
    ∃ buf' : Buffer,
      nextItem restores (rounds + 1) buf ((MAGIC_BYTE :: putLength n) ++ stream) itemsRead =
        readRecord restores (readloop restores rounds) buf' n stream itemsRead := by
  have hlength : (MAGIC_BYTE :: putLength n).length = 5 := by
    rw [List.length_cons, putLength, putInt, BigEndian.length_bigEndian]
  have hread : readInto buf 0 5 ((MAGIC_BYTE :: putLength n) ++ stream) =
      (5, buf.store 0 (MAGIC_BYTE :: putLength n), stream) := by
    rw [readInto, List.take_left' hlength, List.drop_left' hlength, hlength]
    rfl
  have hheader := header_store buf hn
  refine ⟨buf.store 0 (MAGIC_BYTE :: putLength n), ?_⟩
  rw [nextItem, hread]
  dsimp only
  rw [readloop, if_neg (by decide), findMagic_header hheader]
  dsimp only
  rw [if_neg (Nat.lt_irrefl 0), hheader.length]

/-- The rest of a round whose record has all its bytes. -/
theorem readRecord_complete (rounds : Nat) (buf : Buffer) {n itemsRead : Nat}
    {stream bytes rest : List UInt8} (hpayload : readPayload n 0 stream = .complete bytes rest)
    (hcount : itemsRead + 1 ≤ 2 * MAXLOGENTRIES) :
    readRecord restores (readloop restores rounds) buf n stream itemsRead =
      say (.restoreLogItem (buf2 bytes) n)
        (match restores (buf2 bytes) n with
        | some e => ([], .thrown e)
        | none => nextItem restores rounds buf rest (itemsRead + 1)) := by
  rw [readRecord, Int.toNat_natCast, hpayload]
  dsimp only
  cases restores (buf2 bytes) n with
  | some e => rfl
  | none =>
      dsimp only
      rw [if_neg (Nat.not_lt.mpr hcount)]
      rfl

/-- One round for one record. -/
theorem nextItem_record (rounds : Nat) (buf : Buffer) (bytes stream : List UInt8)
    (itemsRead : Nat) (hfits : bytes.length ≤ BUFFER_LENGTH)
    (hcount : itemsRead + 1 ≤ 2 * MAXLOGENTRIES) :
    ∃ buf' : Buffer,
      nextItem restores (rounds + 1) buf (writeEscapedBytes bytes ++ stream) itemsRead =
        say (.restoreLogItem (buf2 bytes) bytes.length)
          (match restores (buf2 bytes) bytes.length with
          | some e => ([], .thrown e)
          | none => nextItem restores rounds buf' stream (itemsRead + 1)) := by
  have hsplit : writeEscapedBytes bytes ++ stream =
      (MAGIC_BYTE :: putLength bytes.length) ++ (bytes.flatMap escapeByte ++ stream) := by
    simp [writeEscapedBytes]
  have hpayload := readPayload_escaped bytes stream 0 (by rwa [Nat.zero_add])
  obtain ⟨buf', hheader⟩ := nextItem_header restores rounds buf hfits
    (bytes.flatMap escapeByte ++ stream) itemsRead
  refine ⟨buf', ?_⟩
  rw [hsplit, hheader, readRecord_complete restores rounds buf' hpayload hcount]

/-- The records that were written, up to the rest of the stream. -/
theorem nextItem_records (arrays : List (List UInt8)) (rounds : Nat) (buf : Buffer)
    (stream : List UInt8) (itemsRead : Nat)
    (hfits : ∀ bytes ∈ arrays, bytes.length ≤ BUFFER_LENGTH)
    (hcount : itemsRead + arrays.length ≤ 2 * MAXLOGENTRIES)
    (hrestores : ∀ bytes ∈ arrays, restores (buf2 bytes) bytes.length = none) :
    ∃ buf' : Buffer,
      nextItem restores (rounds + arrays.length) buf
          (arrays.flatMap writeEscapedBytes ++ stream) itemsRead =
        ((arrays.map fun bytes => .restoreLogItem (buf2 bytes) bytes.length) ++
            (nextItem restores rounds buf' stream (itemsRead + arrays.length)).1,
          (nextItem restores rounds buf' stream (itemsRead + arrays.length)).2) := by
  induction arrays generalizing buf itemsRead with
  | nil => exact ⟨buf, rfl⟩
  | cons bytes arrays ih =>
      rw [List.length_cons] at hcount
      obtain ⟨buf', hrecord⟩ := nextItem_record restores (rounds + arrays.length) buf
        bytes (arrays.flatMap writeEscapedBytes ++ stream) itemsRead
        (hfits bytes List.mem_cons_self) (by omega)
      obtain ⟨buf'', hrest⟩ := ih buf' (itemsRead + 1)
        (fun b hb => hfits b (List.mem_cons_of_mem bytes hb)) (by omega)
        fun b hb => hrestores b (List.mem_cons_of_mem bytes hb)
      refine ⟨buf'', ?_⟩
      rw [List.flatMap_cons, List.append_assoc, List.length_cons, ← Nat.add_assoc, hrecord,
        hrestores bytes List.mem_cons_self, hrest, Nat.add_assoc, Nat.add_comm 1]
      rfl

theorem nextItem_end (rounds : Nat) (buf : Buffer) (itemsRead : Nat) :
    nextItem restores (rounds + 1) buf [] itemsRead = ([.reread itemsRead], .returned) := rfl

theorem length_writeEscapedBytes (bytes : List UInt8) :
    5 ≤ (writeEscapedBytes bytes).length := by
  rw [writeEscapedBytes, List.length_cons, List.length_append, putLength, putInt,
    BigEndian.length_bigEndian]
  omega

theorem length_le_flatMap_writeEscapedBytes (arrays : List (List UInt8)) :
    arrays.length ≤ (arrays.flatMap writeEscapedBytes).length := by
  induction arrays with
  | nil => exact Nat.le_refl 0
  | cons bytes arrays ih =>
      have h := length_writeEscapedBytes bytes
      rw [List.flatMap_cons, List.length_append, List.length_cons]
      omega

/-- Records whose items are restored without an exception. -/
theorem readCacheContents_records (arrays : List (List UInt8))
    (hcount : arrays.length ≤ 2 * MAXLOGENTRIES)
    (hfits : ∀ bytes ∈ arrays, bytes.length ≤ BUFFER_LENGTH)
    (hrestores : ∀ bytes ∈ arrays, restores (buf2 bytes) bytes.length = none) :
    readCacheContents restores (arrays.flatMap writeEscapedBytes) =
      ((arrays.map fun bytes => .restoreLogItem (buf2 bytes) bytes.length) ++
        [.reread arrays.length], .returned) := by
  obtain ⟨rounds, hrounds⟩ :=
    Nat.exists_eq_add_of_le' (length_le_flatMap_writeEscapedBytes arrays)
  obtain ⟨buf', hrecords⟩ := nextItem_records restores arrays (rounds + 2)
    (fun _ => 0) [] 0 hfits (by rwa [Nat.zero_add]) hrestores
  rw [List.append_nil] at hrecords
  rw [readCacheContents, hrounds, Nat.add_right_comm, hrecords, nextItem_end, Nat.zero_add]

end

/-- `restoreLogItem` is called once for each array, in order, with the array in its
    buffer. -/
theorem readCacheContents_written (arrays : List (List UInt8))
    (restores : List UInt8 → Int → Option LogItemException)
    (hcount : arrays.length ≤ 2000) (hfits : ∀ bytes ∈ arrays, bytes.length ≤ 16384)
    (hrestores : ∀ buf len, restores buf len = none) :
    readCacheContents restores (arrays.flatMap writeEscapedBytes) =
        ((arrays.map fun bytes => .restoreLogItem (buf2 bytes) bytes.length) ++
          [.reread arrays.length], .returned) ∧
      ∀ bytes ∈ arrays, (buf2 bytes).take bytes.length = bytes ∧
        (buf2 bytes).length = BUFFER_LENGTH := by
  constructor
  · exact readCacheContents_records restores arrays hcount hfits fun _ _ => hrestores _ _
  · intro bytes hbytes
    have hlength : bytes.length ≤ BUFFER_LENGTH := hfits bytes hbytes
    refine ⟨List.take_left, ?_⟩
    rw [buf2, List.length_append, List.length_replicate]
    omega

/-- The magic byte and the escape byte as data, and an empty array. -/
theorem readCacheContents_written_magic :
    readCacheContents (fun _ _ => none)
        ([[0x55, 0, 0, 0, 0x56], []].flatMap writeEscapedBytes) =
      (([[0x55, 0, 0, 0, 0x56], []].map fun bytes =>
          .restoreLogItem (buf2 bytes) bytes.length) ++ [.reread 2], .returned) ∧
      ∀ bytes ∈ [[0x55, 0, 0, 0, 0x56], []], (buf2 bytes).take bytes.length = bytes ∧
        (buf2 bytes).length = BUFFER_LENGTH :=
  readCacheContents_written [[0x55, 0, 0, 0, 0x56], []] (fun _ _ => none) (by decide)
    (by decide) fun _ _ => rfl

end LogFileHandler

end OpenVpnAndroid
