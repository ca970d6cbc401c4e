/-
  OpenVpnAndroid/LogItem.lean
  ===========================
  **`LogItem` and its binary form.**

  The log file and the status pipe carry the bytes of `getMarschaledBytes`, and
  `LogItem(byte[], int)` reads them.  Not every item comes back as it was: an empty
  message and an empty argument array come back as `null`, an unpaired surrogate
  as a question mark, an object of another class as its text, and more than 30
  arguments are refused.

  `Faithful` items have none of this.  They are read back (`unmarschal_marschaled`),
  and the reader returns no others (`faithful_of_ofBytes`).
-/
import OpenVpnAndroid.JavaText
import OpenVpnAndroid.Utf8
import OpenVpnAndroid.BigEndian
import OpenVpnAndroid.Reading

namespace OpenVpnAndroid

/-! ### Texts with any code units -/

/-- A code point of a `String`: a character, or a surrogate without its partner. -/
inductive CodePoint where
  | scalar (c : Char)
  | surrogate (unit : UInt16)
deriving DecidableEq, Repr

/-- A `String` by its code points. -/
abbrev JavaString := List CodePoint

namespace JavaString

def ofText (s : Text) : JavaString := s.map .scalar

/-- A `char` as a string. -/
def ofUnit (unit : Nat) : JavaString :=
  if unit.isValidChar then [.scalar (Char.ofNat unit)] else [.surrogate (UInt16.ofNat unit)]

/-- `str.getBytes(StandardCharsets.UTF_8)` -/
def getBytes (str : JavaString) : List UInt8 :=
  str.flatMap fun
    | .scalar c => String.utf8EncodeChar c
    | .surrogate _ => [0x3F]

/-- `new String(bytes, StandardCharsets.UTF_8)` -/
def ofBytes (bytes : List UInt8) : JavaString := ofText (Utf8.decode bytes)

/-- Every surrogate has its partner. -/
def WellFormed (str : JavaString) : Prop := ∃ s : Text, str = ofText s

theorem getBytes_ofText (s : Text) : getBytes (ofText s) = Utf8.encode s := by
  rw [getBytes, ofText, List.flatMap_map]
  rfl

theorem ofBytes_getBytes {str : JavaString} (h : str.WellFormed) :
    ofBytes (getBytes str) = str := by
  obtain ⟨s, rfl⟩ := h
  rw [getBytes_ofText, ofBytes, Utf8.decode_encode]

theorem wellFormed_ofBytes (bytes : List UInt8) : (ofBytes bytes).WellFormed :=
  ⟨Utf8.decode bytes, rfl⟩

end JavaString

/-! ### Items -/

inductive LogLevel where
  | INFO
  | ERROR
  | WARNING
  | VERBOSE
  | DEBUG
deriving DecidableEq, Repr

namespace LogLevel

def getInt : LogLevel → Int32
  | INFO => 2
  | ERROR => -2
  | WARNING => 1
  | VERBOSE => 3
  | DEBUG => 4

def getEnumByValue (value : Int32) : Option LogLevel :=
  if value = 2 then some INFO
  else if value = -2 then some ERROR
  else if value = 1 then some WARNING
  else if value = 3 then some VERBOSE
  else if value = 4 then some DEBUG
  else none

@[simp] theorem getEnumByValue_getInt (level : LogLevel) :
    getEnumByValue level.getInt = some level := by
  cases level <;> decide

end LogLevel

/-- An element of `mArgs`.  Floating point numbers are given by their bits. -/
inductive LogArg where
  | string (s : JavaString)
  | integer (n : Int32)
  | float (bits : BitVec 32)
  | double (bits : BitVec 64)
  | long (n : Int64)
  | null
  /-- an object of any other class with its `toString()`; equal objects have the same
      number -/
  | other (object : Nat) (toString : JavaString)
deriving DecidableEq, Repr

structure LogItem where
  mArgs : Option (List LogArg)
  mMessage : Option JavaString
  mRessourceId : Int32
  mLevel : Option LogLevel
  logtime : Int64
  mVerbosityLevel : Int32
deriving DecidableEq, Repr

namespace LogItem

def getLogtime (li : LogItem) : Int64 := li.logtime

def verify (li : LogItem) : Bool :=
  li.mLevel.isSome && !(li.mMessage.isNone && li.mRessourceId == 0)

end LogItem

/-- What the methods throw.  `UnsupportedEncodingException` is an `IOException`; the
    other ones are unchecked. -/
inductive LogItemException where
  | bufferOverflow
  | bufferUnderflow
  | indexOutOfBounds (msg : Text)
  | negativeArraySize
  | nullPointer
  | unsupportedEncoding (msg : JavaString)
deriving DecidableEq, Repr

/-! ### Comparison -/

/-- All NaNs have the same bits. -/
def floatToIntBits (bits : BitVec 32) : BitVec 32 :=
  if bits &&& 0x7F800000 = 0x7F800000 ∧ bits &&& 0x007FFFFF ≠ 0 then 0x7FC00000 else bits

def doubleToLongBits (bits : BitVec 64) : BitVec 64 :=
  if bits &&& 0x7FF0000000000000 = 0x7FF0000000000000 ∧ bits &&& 0x000FFFFFFFFFFFFF ≠ 0 then
    0x7FF8000000000000
  else bits

/-- `equals` of two elements of `mArgs`. -/
def LogArg.equals : LogArg → LogArg → Bool
  | .string s, .string s' => s == s'
  | .integer n, .integer n' => n == n'
  | .float bits, .float bits' => floatToIntBits bits == floatToIntBits bits'
  | .double bits, .double bits' => doubleToLongBits bits == doubleToLongBits bits'
  | .long n, .long n' => n == n'
  | .null, .null => true
  | .other object _, .other object' _ => object == object'
  | _, _ => false

namespace LogItem

/-- `Arrays.equals` on two arrays, either of which may be `null`. -/
def argsEqual : Option (List LogArg) → Option (List LogArg) → Bool
  | none, none => true
  | some args, some args' =>
      args.length == args'.length && (args.zip args').all fun (a, b) => a.equals b
  | _, _ => false

/-- `equals` on two items: `mMessage.equals` and `other.mLevel.equals` may be called on
    `null`. -/
def equals (li other : LogItem) : Except LogItemException Bool :=
  if !argsEqual li.mArgs other.mArgs then .ok false
  else
    match li.mMessage, other.mMessage with
    | none, some _ => .error .nullPointer
    | mMessage, mMessage' =>
        if mMessage ≠ mMessage' ∨ li.mRessourceId ≠ other.mRessourceId then .ok false
        else
          match li.mLevel, other.mLevel with
          | some _, none => .error .nullPointer
          | mLevel, mLevel' =>
              .ok (mLevel == mLevel' && li.mVerbosityLevel == other.mVerbosityLevel
                && li.logtime == other.logtime)

end LogItem

/-! ### Writing -/

def putInt (n : Int32) : List UInt8 := bigEndian 4 n.toBitVec.toNat

def putLong (n : Int64) : List UInt8 := bigEndian 8 n.toBitVec.toNat

def putChar (c : Char) : List UInt8 := bigEndian 2 c.toNat

/-- `bb.putInt` of an array length. -/
def putLength (n : Nat) : List UInt8 := putInt (Int32.ofNat n)

namespace LogItem

def marschalString (str : JavaString) : List UInt8 :=
  putLength str.getBytes.length ++ str.getBytes

/-- The character that stands for the class of an argument. -/
def typeChar : LogArg → Char
  | .string _ => 's'
  | .integer _ => 'i'
  | .float _ => 'f'
  | .double _ => 'd'
  | .long _ => 'l'
  | .null => '0'
  | .other _ _ => 's'

/-- The bytes behind it. -/
def argValue : LogArg → List UInt8
  | .string s => marschalString s
  | .integer n => putInt n
  | .float bits => bigEndian 4 bits.toNat
  | .double bits => bigEndian 8 bits.toNat
  | .long n => putLong n
  | .null => []
  | .other _ s => marschalString s

def marschalArg (o : LogArg) : List UInt8 := putChar (typeChar o) ++ argValue o

def marschalMessage (mMessage : Option JavaString) : List UInt8 :=
  match mMessage with
  | none => putLength 0
  | some [] => putLength 0
  | some str => marschalString str

def marschalArgs (mArgs : Option (List LogArg)) : List UInt8 :=
  match mArgs with
  | none => putLength 0
  | some args => putLength args.length ++ args.flatMap marschalArg

/-- The bytes up to the message. -/
def marschalHeader (li : LogItem) (level : LogLevel) : List UInt8 :=
  [0] ++ putLong li.logtime ++ putInt li.mVerbosityLevel ++ putInt level.getInt
    ++ putInt li.mRessourceId

/-- All that `getMarschaledBytes` puts into its buffer, in order. -/
def marschaled (li : LogItem) (level : LogLevel) : List UInt8 :=
  li.marschalHeader level ++ (marschalMessage li.mMessage ++ marschalArgs li.mArgs)

/-- `ByteBuffer.allocate` -/
def CAPACITY : Nat := 16384

/-- The first `put` without room throws, so an item fits if all its bytes do.  The
    debug line about an object of another class is an item of its own. -/
def getMarschaledBytes (li : LogItem) : Except LogItemException (List UInt8) :=
  match li.mLevel with
  | none => .error .nullPointer
  | some level =>
      if (li.marschaled level).length ≤ CAPACITY then .ok (li.marschaled level)
      else .error .bufferOverflow

theorem getMarschaledBytes_eq_ok {li : LogItem} {bytes : List UInt8} :
    li.getMarschaledBytes = .ok bytes ↔
      ∃ level, li.mLevel = some level ∧ bytes = li.marschaled level ∧
        (li.marschaled level).length ≤ CAPACITY := by
  rw [getMarschaledBytes]
  cases li.mLevel with
  | none => simp
  | some level =>
      by_cases hcap : (li.marschaled level).length ≤ CAPACITY
      · simp [hcap, eq_comm]
      · simp [hcap]

end LogItem

/-! ### Reading -/

/-- A method that reads from a `ByteBuffer`, given by the bytes up to its limit. -/
abbrev Get := Reader UInt8 LogItemException

namespace Get

/-- `bb.get(dst)` for `n` bytes. -/
def bytes (n : Nat) : Get (List UInt8) := fun bb =>
  if n ≤ bb.length then .ok (bb.take n, bb.drop n) else .error .bufferUnderflow

def int : Get Int32 := do
  let b ← bytes 4
  return Int32.ofBitVec (BitVec.ofNat 32 (BigEndian.value b))

def long : Get Int64 := do
  let b ← bytes 8
  return Int64.ofBitVec (BitVec.ofNat 64 (BigEndian.value b))

/-- `bb.getChar()`, as a number. -/
def char : Get Nat := do
  let b ← bytes 2
  return BigEndian.value b

def bits (w : Nat) : Get (BitVec (8 * w)) := do
  let b ← bytes w
  return BitVec.ofNat (8 * w) (BigEndian.value b)

/-- `bb.remaining()` -/
def remaining : Get Nat := do
  let bb ← get
  return bb.length

end Get

namespace LogItem

/-- `new byte[len]`, and its bytes. -/
def getArray (len : Int32) : Get (List UInt8) :=
  if len.toInt < 0 then throw .negativeArraySize else Get.bytes len.toInt.toNat

def unmarschalString : Get JavaString := do
  let len ← Get.int
  let utf8bytes ← getArray len
  return JavaString.ofBytes utf8bytes

def unmarschalMessage : Get (Option JavaString) := do
  let len ← Get.int
  if len = 0 then return none
  else
    let remaining ← Get.remaining
    if len.toInt > remaining then
      throw (.indexOutOfBounds (("String length " : Text) ++ decimal len.toInt ++
        (" is bigger than remaining bytes " : Text) ++ decimal remaining))
    else
      let utf8bytes ← getArray len
      return some (JavaString.ofBytes utf8bytes)

/-- The `switch` over the type of an argument. -/
def unmarschalValue (type : Nat) : Get LogArg := do
  if type = 's'.toNat then return .string (← unmarschalString)
  else if type = 'i'.toNat then return .integer (← Get.int)
  else if type = 'd'.toNat then return .double (← Get.bits 8)
  else if type = 'f'.toNat then return .float (← Get.bits 4)
  else if type = 'l'.toNat then return .long (← Get.long)
  else if type = '0'.toNat then return .null
  else
    throw (.unsupportedEncoding
      (JavaString.ofText ("Unknown format type: " : Text) ++ JavaString.ofUnit type))

def unmarschalArg : Get LogArg := do
  let type ← Get.char
  unmarschalValue type

/-- The loop over the arguments. -/
def unmarschalLoop : Nat → Get (List LogArg)
  | 0 => return []
  | n + 1 => do
      let arg ← unmarschalArg
      let args ← unmarschalLoop n
      return arg :: args

def unmarschalArgs : Get (Option (List LogArg)) := do
  let numArgs ← Get.int
  if numArgs.toInt > 30 then
    throw (.indexOutOfBounds ("Too many arguments for Logitem to unmarschal" : Text))
  else if numArgs = 0 then return none
  else if numArgs.toInt < 0 then throw .negativeArraySize
  else return some (← unmarschalLoop numArgs.toInt.toNat)

/-- The check at the end. -/
def finish : Get Unit := do
  let remaining ← Get.remaining
  if remaining ≠ 0 then
    throw (.unsupportedEncoding (JavaString.ofText (decimal remaining ++
      (" bytes left after unmarshaling everything" : Text))))

/-- The constructor from the message on. -/
def unmarschalRest (logtime : Int64) (mVerbosityLevel level mRessourceId : Int32) :
    Get LogItem := do
  let mMessage ← unmarschalMessage
  let mArgs ← unmarschalArgs
  finish
  return ⟨mArgs, mMessage, mRessourceId, LogLevel.getEnumByValue level, logtime,
    mVerbosityLevel⟩

def unmarschal : Get LogItem := do
  let _ ← Get.bytes 1
  let logtime ← Get.long
  let mVerbosityLevel ← Get.int
  let level ← Get.int
  let mRessourceId ← Get.int
  unmarschalRest logtime mVerbosityLevel level mRessourceId

/-- `new LogItem(in, length)`; `wrap` throws if the array is shorter. -/
def ofBytes (input : List UInt8) (length : Int) : Except LogItemException LogItem :=
  if length < 0 ∨ input.length < length then .error (.indexOutOfBounds [])
  else (unmarschal.run (input.take length.toNat)).map Prod.fst

theorem ofBytes_self (input : List UInt8) :
    ofBytes input input.length = (unmarschal.run input).map Prod.fst := by
  have hlength : ¬ ((input.length : Int) < 0 ∨ (input.length : Int) < input.length) := by omega
  rw [ofBytes, if_neg hlength, Int.toNat_natCast, List.take_length]

/-! ### What is read back -/

/-- An argument that comes back as it was. -/
def FaithfulArg : LogArg → Prop
  | .string s => s.WellFormed
  | .other _ _ => False
  | _ => True

/-- An item that comes back as it was. -/
structure Faithful (li : LogItem) : Prop where
  message : ∀ str ∈ li.mMessage, str ≠ [] ∧ str.WellFormed
  args : ∀ args ∈ li.mArgs, args ≠ [] ∧ args.length ≤ 30 ∧ ∀ o ∈ args, FaithfulArg o

theorem reads_bytes {n : Nat} {xs : List UInt8} (h : xs.length = n) :
    Reads (Get.bytes n) xs xs := by
  intro rest
  subst h
  simp [Get.bytes, StateT.run]

theorem reads_int (n : Int32) : Reads Get.int (putInt n) n := by
  apply (reads_bytes (BigEndian.length_bigEndian 4 _)).map
  rw [BigEndian.value_bigEndian_of_lt n.toBitVec.isLt, BitVec.ofNat_toNat, BitVec.setWidth_eq]
  exact Reads.pure n

theorem reads_long (n : Int64) : Reads Get.long (putLong n) n := by
  apply (reads_bytes (BigEndian.length_bigEndian 8 _)).map
  rw [BigEndian.value_bigEndian_of_lt n.toBitVec.isLt, BitVec.ofNat_toNat, BitVec.setWidth_eq]
  exact Reads.pure n

theorem reads_bits (w : Nat) (b : BitVec (8 * w)) :
    Reads (Get.bits w) (bigEndian w b.toNat) b := by
  have hlt : b.toNat < 256 ^ w := by
    have h := b.isLt
    rwa [Nat.pow_mul] at h
  apply (reads_bytes (BigEndian.length_bigEndian w _)).map
  rw [BigEndian.value_bigEndian_of_lt hlt, BitVec.ofNat_toNat, BitVec.setWidth_eq]
  exact Reads.pure b

theorem reads_char {c : Char} (h : c.toNat < 65536) : Reads Get.char (putChar c) c.toNat := by
  apply (reads_bytes (BigEndian.length_bigEndian 2 _)).map
  rw [BigEndian.value_bigEndian_of_lt h]
  exact Reads.pure _

/-- A length that fits into the buffer. -/
theorem toInt_ofNat_length {n : Nat} (h : n ≤ CAPACITY) : (Int32.ofNat n).toInt = n := by
  apply Int32.toInt_ofNat_of_lt
  exact Nat.lt_of_le_of_lt h (by decide)

theorem reads_length (n : Nat) : Reads Get.int (putLength n) (Int32.ofNat n) :=
  reads_int (Int32.ofNat n)

theorem reads_array {bytes : List UInt8} (h : bytes.length ≤ CAPACITY) :
    Reads (getArray (Int32.ofNat bytes.length)) bytes bytes := by
  have hlen := toInt_ofNat_length h
  rw [getArray, if_neg (by rw [hlen]; exact Int.not_lt.mpr (Int.natCast_nonneg _)), hlen]
  exact reads_bytes rfl

/-! ### The parts of an item -/

theorem reads_string {str : JavaString} (h : str.WellFormed)
    (hlength : str.getBytes.length ≤ CAPACITY) :
    Reads unmarschalString (marschalString str) str := by
  apply (reads_length _).bind
  apply (reads_array hlength).map
  rw [JavaString.ofBytes_getBytes h]
  exact Reads.pure str

theorem typeChar_lt (o : LogArg) : (typeChar o).toNat < 65536 := by
  cases o <;> simp only [typeChar] <;> decide

theorem argValue_le (o : LogArg) : (argValue o).length ≤ (marschalArg o).length := by
  rw [marschalArg, List.length_append]
  exact Nat.le_add_left _ _

theorem getBytes_le (s : JavaString) : s.getBytes.length ≤ (marschalString s).length := by
  rw [marschalString, List.length_append]
  exact Nat.le_add_left _ _

theorem reads_value {o : LogArg} (h : FaithfulArg o) (hlength : (argValue o).length ≤ CAPACITY) :
    Reads (unmarschalValue (typeChar o).toNat) (argValue o) o := by
  cases o with
  | string s => exact (reads_string h (Nat.le_trans (getBytes_le s) hlength)).map (Reads.pure _)
  | integer n => exact (reads_int n).map (Reads.pure _)
  | float bits => exact (reads_bits 4 bits).map (Reads.pure _)
  | double bits => exact (reads_bits 8 bits).map (Reads.pure _)
  | long n => exact (reads_long n).map (Reads.pure _)
  | null => exact Reads.pure _
  | other object s => exact h.elim

theorem reads_arg {o : LogArg} (h : FaithfulArg o) (hlength : (marschalArg o).length ≤ CAPACITY) :
    Reads unmarschalArg (marschalArg o) o :=
  (reads_char (typeChar_lt o)).bind (reads_value h (Nat.le_trans (argValue_le o) hlength))

theorem reads_loop {args : List LogArg} (h : ∀ o ∈ args, FaithfulArg o)
    (hlength : (args.flatMap marschalArg).length ≤ CAPACITY) :
    Reads (unmarschalLoop args.length) (args.flatMap marschalArg) args := by
  induction args with
  | nil => exact Reads.pure []
  | cons o args ih =>
      rw [List.flatMap_cons, List.length_append] at hlength
      have ho := reads_arg (h o List.mem_cons_self) (Nat.le_trans (Nat.le_add_right _ _) hlength)
      have hargs := ih (fun o' ho' => h o' (List.mem_cons_of_mem o ho'))
        (Nat.le_trans (Nat.le_add_left _ _) hlength)
      rw [List.flatMap_cons]
      exact ho.bind (hargs.map (Reads.pure _))

theorem ofNat_length_ne_zero {n : Nat} (hpos : 0 < n) (hcap : n ≤ CAPACITY) :
    Int32.ofNat n ≠ 0 := by
  intro hzero
  have hint := toInt_ofNat_length hcap
  rw [hzero] at hint
  exact absurd hint.symm (by simpa using Nat.ne_of_gt hpos)

theorem reads_args {mArgs : Option (List LogArg)}
    (h : ∀ args ∈ mArgs, args ≠ [] ∧ args.length ≤ 30 ∧ ∀ o ∈ args, FaithfulArg o)
    (hlength : (marschalArgs mArgs).length ≤ CAPACITY) :
    Reads unmarschalArgs (marschalArgs mArgs) mArgs := by
  cases mArgs with
  | none => exact (reads_length 0).map (Reads.pure none)
  | some args =>
      obtain ⟨hne, hle, hargs⟩ := h args rfl
      have hcap : args.length ≤ CAPACITY := Nat.le_trans hle (by decide)
      have hpos : 0 < args.length := List.length_pos_iff.mpr hne
      have hint := toInt_ofNat_length hcap
      have hzero := ofNat_length_ne_zero hpos hcap
      apply (reads_length _).bind
      rw [hint, if_neg (by omega), if_neg hzero, if_neg (by omega)]
      refine (reads_loop hargs ?_).map (Reads.pure _)
      apply Nat.le_trans _ hlength
      rw [marschalArgs, List.length_append]
      exact Nat.le_add_left _ _

/-- A text that is not empty has bytes. -/
theorem getBytes_pos {str : JavaString} (h : str ≠ []) : 0 < str.getBytes.length := by
  cases str with
  | nil => exact absurd rfl h
  | cons c str =>
      rw [JavaString.getBytes, List.flatMap_cons, List.length_append]
      apply Nat.add_pos_left
      cases c with
      | scalar c =>
          rw [String.length_utf8EncodeChar]
          exact c.utf8Size_pos
      | surrogate unit => exact Nat.one_pos

theorem reads_message {mMessage : Option JavaString}
    (h : ∀ str ∈ mMessage, str ≠ [] ∧ str.WellFormed)
    (hlength : (marschalMessage mMessage).length ≤ CAPACITY) :
    Reads unmarschalMessage (marschalMessage mMessage) mMessage := by
  match mMessage with
  | none => exact (reads_length 0).map (Reads.pure none)
  | some [] => exact absurd rfl (h [] rfl).1
  | some (c :: s) =>
      obtain ⟨hne, hwell⟩ := h (c :: s) rfl
      have hcap : (JavaString.getBytes (c :: s)).length ≤ CAPACITY :=
        Nat.le_trans (getBytes_le (c :: s)) hlength
      apply (reads_length _).bind
      rw [if_neg (ofNat_length_ne_zero (getBytes_pos hne) hcap)]
      intro rest
      have hroom : ¬ ((Int32.ofNat (JavaString.getBytes (c :: s)).length).toInt >
          ((JavaString.getBytes (c :: s) ++ rest).length : Nat)) := by
        rw [toInt_ofNat_length hcap, List.length_append]
        omega
      rw [StateT.run_bind]
      show StateT.run (ite _ _ _) (JavaString.getBytes (c :: s) ++ rest) = _
      rw [if_neg hroom]
      apply (reads_array hcap).map
      rw [JavaString.ofBytes_getBytes hwell]
      exact Reads.pure _

/-- The bytes up to the message are read whatever they are followed by. -/
theorem run_header (li : LogItem) (level : LogLevel) (rest : List UInt8) :
    unmarschal.run (li.marschalHeader level ++ rest) =
      (unmarschalRest li.logtime li.mVerbosityLevel level.getInt li.mRessourceId).run rest := by
  simp only [marschalHeader, List.append_assoc]
  rw [unmarschal, (reads_bytes (n := 1) rfl).run_bind, (reads_long _).run_bind,
    (reads_int _).run_bind, (reads_int _).run_bind, (reads_int _).run_bind]

theorem unmarschal_marschaled {li : LogItem} {level : LogLevel} (hlevel : li.mLevel = some level)
    (h : li.Faithful) (hlength : (li.marschaled level).length ≤ CAPACITY) :
    unmarschal.run (li.marschaled level) = .ok (li, []) := by
  have hmessage := reads_message h.message (by
    apply Nat.le_trans _ hlength
    simp only [marschaled, List.length_append]
    omega)
  have hargs := reads_args h.args (by
    apply Nat.le_trans _ hlength
    simp only [marschaled, List.length_append]
    omega)
  rw [marschaled, run_header, unmarschalRest, hmessage.run_bind, StateT.run_bind, hargs.run]
  simp only [LogLevel.getEnumByValue_getInt, ← hlevel]
  rfl

/-! ### What an item is recorded as -/

end LogItem

/-- The text as its bytes keep it: `?` for a surrogate without its partner. -/
def JavaString.recorded (str : JavaString) : JavaString :=
  str.map fun
    | .scalar c => .scalar c
    | .surrogate _ => .scalar '?'

theorem JavaString.getBytes_recorded (str : JavaString) :
    str.recorded.getBytes = str.getBytes := by
  rw [recorded, getBytes, getBytes, List.flatMap_map]
  congr 1
  funext c
  cases c <;> rfl

theorem JavaString.wellFormed_recorded (str : JavaString) : str.recorded.WellFormed := by
  refine ⟨str.map fun | .scalar c => c | .surrogate _ => '?', ?_⟩
  rw [recorded, ofText, List.map_map]
  congr 1
  funext c
  cases c <;> rfl

theorem JavaString.recorded_of_wellFormed {str : JavaString} (h : str.WellFormed) :
    str.recorded = str := by
  obtain ⟨s, rfl⟩ := h
  simp [recorded, ofText]

namespace LogItem

def recordedArg : LogArg → LogArg
  | .string s => .string s.recorded
  | .other _ s => .string s.recorded
  | o => o

/-- The item that its bytes stand for. -/
def recorded (li : LogItem) : LogItem :=
  { li with
    mMessage := if li.mMessage.getD [] = [] then none else li.mMessage.map JavaString.recorded
    mArgs := if li.mArgs.getD [] = [] then none else li.mArgs.map (·.map recordedArg) }

/-- Two items that are written alike. -/
def SameRecord (li li' : LogItem) : Prop := li.getMarschaledBytes = li'.getMarschaledBytes

theorem marschalMessage_eq (mMessage : Option JavaString) :
    marschalMessage mMessage = marschalString (mMessage.getD []) := by
  match mMessage with
  | none => rfl
  | some [] => rfl
  | some (_ :: _) => rfl

theorem marschalArgs_eq (mArgs : Option (List LogArg)) :
    marschalArgs mArgs =
      putLength (mArgs.getD []).length ++ (mArgs.getD []).flatMap marschalArg := by
  cases mArgs with
  | none => rfl
  | some args => rfl

theorem getD_recorded_message (li : LogItem) :
    li.recorded.mMessage.getD [] = (li.mMessage.getD []).recorded := by
  rw [recorded]
  dsimp only
  split
  · rename_i hempty
    rw [hempty]
    rfl
  · cases li.mMessage <;> rfl

theorem getD_recorded_args (li : LogItem) :
    li.recorded.mArgs.getD [] = (li.mArgs.getD []).map recordedArg := by
  rw [recorded]
  dsimp only
  split
  · rename_i hempty
    rw [hempty]
    rfl
  · cases li.mArgs <;> rfl

theorem marschalArg_recorded (o : LogArg) : marschalArg (recordedArg o) = marschalArg o := by
  cases o with
  | string s => simp [marschalArg, recordedArg, argValue, typeChar, marschalString,
      JavaString.getBytes_recorded]
  | other object s => simp [marschalArg, recordedArg, argValue, typeChar, marschalString,
      JavaString.getBytes_recorded]
  | integer n => rfl
  | float bits => rfl
  | double bits => rfl
  | long n => rfl
  | null => rfl

theorem marschalMessage_recorded (li : LogItem) :
    marschalMessage li.recorded.mMessage = marschalMessage li.mMessage := by
  rw [marschalMessage_eq, marschalMessage_eq, getD_recorded_message, marschalString,
    marschalString, JavaString.getBytes_recorded]

theorem marschaled_recorded (li : LogItem) (level : LogLevel) :
    li.recorded.marschaled level = li.marschaled level := by
  have hargs : marschalArgs li.recorded.mArgs = marschalArgs li.mArgs := by
    rw [marschalArgs_eq, marschalArgs_eq, getD_recorded_args, List.length_map, List.flatMap_map]
    simp only [marschalArg_recorded]
  rw [marschaled, marschaled, marschalMessage_recorded, hargs]
  rfl

theorem getMarschaledBytes_recorded (li : LogItem) : SameRecord li.recorded li := by
  rw [SameRecord, getMarschaledBytes, getMarschaledBytes]
  simp only [marschaled_recorded]
  rfl

theorem faithful_recordedArg (o : LogArg) : FaithfulArg (recordedArg o) := by
  cases o with
  | string s => exact JavaString.wellFormed_recorded s
  | other object s => exact JavaString.wellFormed_recorded s
  | integer n => exact trivial
  | float bits => exact trivial
  | double bits => exact trivial
  | long n => exact trivial
  | null => exact trivial

theorem message_recorded (li : LogItem) :
    ∀ str ∈ li.recorded.mMessage, str ≠ [] ∧ str.WellFormed := by
  intro str hstr
  rw [recorded, Option.mem_def] at hstr
  dsimp only at hstr
  split at hstr
  · cases hstr
  · rename_i hne
    obtain ⟨str', hstr', rfl⟩ := Option.map_eq_some_iff.mp hstr
    rw [hstr', Option.getD_some] at hne
    exact ⟨fun h => hne (List.map_eq_nil_iff.mp h), JavaString.wellFormed_recorded str'⟩

theorem faithful_recorded {li : LogItem} (h : (li.mArgs.getD []).length ≤ 30) :
    li.recorded.Faithful := by
  constructor
  · exact message_recorded li
  · intro args hargs
    rw [recorded, Option.mem_def] at hargs
    dsimp only at hargs
    split at hargs
    · cases hargs
    · rename_i hne
      obtain ⟨args', hargs', rfl⟩ := Option.map_eq_some_iff.mp hargs
      rw [hargs', Option.getD_some] at hne h
      refine ⟨fun h => hne (List.map_eq_nil_iff.mp h), by rwa [List.length_map], fun o ho => ?_⟩
      obtain ⟨o', -, rfl⟩ := List.mem_map.mp ho
      exact faithful_recordedArg o'

theorem unmarschal_recorded {li : LogItem} {level : LogLevel} (hlevel : li.mLevel = some level)
    (hargs : (li.mArgs.getD []).length ≤ 30) (hlength : (li.marschaled level).length ≤ CAPACITY) :
    unmarschal.run (li.marschaled level) = .ok (li.recorded, []) := by
  have hfits : (li.recorded.marschaled level).length ≤ CAPACITY := by
    rwa [marschaled_recorded]
  have h : unmarschal.run (li.recorded.marschaled level) = .ok (li.recorded, []) :=
    unmarschal_marschaled hlevel (faithful_recorded hargs) hfits
  rwa [marschaled_recorded] at h

/-! ### The round trip -/

/-- A text or an array without elements becomes `null`. -/
def nullIfEmpty {α : Type*} : Option (List α) → Option (List α)
  | some [] => none
  | xs => xs

/-- What comes back of an item whose texts and arguments come back. -/
def readBack (li : LogItem) : LogItem :=
  { li with mMessage := nullIfEmpty li.mMessage, mArgs := nullIfEmpty li.mArgs }

theorem recordedArg_of_faithful {o : LogArg} (h : FaithfulArg o) : recordedArg o = o := by
  cases o with
  | string s => exact congrArg LogArg.string (JavaString.recorded_of_wellFormed h)
  | other object s => exact absurd h id
  | integer n => rfl
  | float bits => rfl
  | double bits => rfl
  | long n => rfl
  | null => rfl

theorem recorded_eq_readBack {li : LogItem} (hmessage : ∀ str ∈ li.mMessage, str.WellFormed)
    (hargs : ∀ args ∈ li.mArgs, ∀ o ∈ args, FaithfulArg o) : li.recorded = li.readBack := by
  obtain ⟨mArgs, mMessage, ressourceId, level, time, verbosity⟩ := li
  have hM : (if mMessage.getD [] = [] then none else mMessage.map JavaString.recorded) =
      nullIfEmpty mMessage := by
    match mMessage with
    | none => rfl
    | some [] => rfl
    | some (c :: str) =>
        have hstr := JavaString.recorded_of_wellFormed (hmessage _ rfl)
        simp [nullIfEmpty, hstr]
  have hA : (if mArgs.getD [] = [] then none else mArgs.map (·.map recordedArg)) =
      nullIfEmpty mArgs := by
    match mArgs with
    | none => rfl
    | some [] => rfl
    | some (o :: args) =>
        have hsame : (o :: args).map recordedArg = o :: args := by
          calc (o :: args).map recordedArg
              = (o :: args).map id :=
                List.map_congr_left fun o' ho' => recordedArg_of_faithful (hargs _ rfl o' ho')
            _ = o :: args := List.map_id _
        simp [nullIfEmpty, hsame]
  simp only [recorded, readBack, hM, hA]

/-- What `getMarschaledBytes` writes, the constructor reads. -/
theorem ofBytes_getMarschaledBytes {li : LogItem} {b : List UInt8}
    (hmessage : ∀ str ∈ li.mMessage, str.WellFormed)
    (hargs : ∀ args ∈ li.mArgs, args.length ≤ 30 ∧ ∀ o ∈ args, FaithfulArg o)
    (hb : li.getMarschaledBytes = .ok b) : ofBytes b b.length = .ok li.readBack := by
  obtain ⟨level, hlevel, rfl, hcap⟩ := getMarschaledBytes_eq_ok.mp hb
  have hcount : (li.mArgs.getD []).length ≤ 30 := by
    cases h : li.mArgs with
    | none => exact Nat.zero_le 30
    | some args => exact (hargs args h).1
  have hread := unmarschal_recorded hlevel hcount hcap
  rw [recorded_eq_readBack hmessage fun args h => (hargs args h).2] at hread
  rw [ofBytes_self, hread]
  rfl

theorem ofBytes_getMarschaledBytes_mixed :
    ofBytes (marschaled ⟨some [.string (JavaString.ofText "tün"), .null, .integer (-1), .string []],
        some [], 7, some .WARNING, 1000, -1⟩ .WARNING)
      (marschaled ⟨some [.string (JavaString.ofText "tün"), .null, .integer (-1), .string []],
        some [], 7, some .WARNING, 1000, -1⟩ .WARNING).length =
      .ok ⟨some [.string (JavaString.ofText "tün"), .null, .integer (-1), .string []],
        none, 7, some .WARNING, 1000, -1⟩ := by
  refine @ofBytes_getMarschaledBytes ⟨some [.string (JavaString.ofText "tün"), .null,
    .integer (-1), .string []], some [], 7, some .WARNING, 1000, -1⟩ _ ?_ ?_
    (getMarschaledBytes_eq_ok.mpr ⟨.WARNING, rfl, rfl, by decide⟩)
  · rintro str hstr
    obtain rfl := Option.some.inj hstr
    exact ⟨[], rfl⟩
  · rintro args hargs
    obtain rfl := Option.some.inj hargs
    refine ⟨by decide, fun o ho => ?_⟩
    simp only [List.mem_cons, List.not_mem_nil, or_false] at ho
    rcases ho with rfl | rfl | rfl | rfl
    · exact ⟨"tün", rfl⟩
    · exact trivial
    · exact trivial
    · exact ⟨[], rfl⟩

/-- `recorded` passes `verify` unless the message was lost with its bytes. -/
theorem verify_recorded {li : LogItem} (h : li.verify) :
    li.recorded.verify ↔ ¬ (li.mMessage = some [] ∧ li.mRessourceId = 0) := by
  obtain ⟨args, message, id, level, time, verbosity⟩ := li
  match message with
  | none =>
      rw [show (recorded ⟨args, none, id, level, time, verbosity⟩).verify =
        verify ⟨args, none, id, level, time, verbosity⟩ from rfl]
      simp [h]
  | some [] =>
      have hlevel : level.isSome := by
        simpa [verify] using h
      simp [recorded, verify, hlevel]
  | some (c :: s) =>
      have hlevel : level.isSome := by
        simpa [verify] using h
      simp [recorded, verify, hlevel]

/-! ### Nothing else is returned -/

theorem returns_array (len : Int32) :
    Returns (getArray len) fun bytes => bytes.length = len.toInt.toNat ∧ 0 ≤ len.toInt := by
  refine Returns.ite (fun _ => Returns.throw _ _) fun hnonneg s bytes rest hrun => ?_
  refine ⟨?_, Int.not_lt.mp hnonneg⟩
  simp only [Get.bytes, StateT.run] at hrun
  split at hrun
  · rename_i hle
    obtain rfl := congrArg Prod.fst (Except.ok.inj hrun)
    exact List.length_take_of_le hle
  · cases hrun

theorem returns_string : Returns unmarschalString JavaString.WellFormed :=
  (Returns.trivial _).bind fun _ _ => (Returns.trivial _).bind fun bytes _ =>
    Returns.pure (JavaString.wellFormed_ofBytes bytes)

theorem ofBytes_ne_nil {bytes : List UInt8} (h : bytes ≠ []) : JavaString.ofBytes bytes ≠ [] := by
  intro hempty
  cases bytes with
  | nil => exact h rfl
  | cons b bytes => exact Utf8.decode_ne_nil b bytes (List.map_eq_nil_iff.mp hempty)

/-- Of a length other than 0 something is read. -/
theorem ne_zero_of_toNat {α : Type*} {n : Int32} {xs : List α} (hne : n ≠ 0) (hnonneg : 0 ≤ n.toInt)
    (hlength : xs.length = n.toInt.toNat) : xs ≠ [] := by
  rintro rfl
  have hzero : n.toInt = (0 : Int32).toInt :=
    Int.le_antisymm (Int.toNat_eq_zero.mp hlength.symm) hnonneg
  exact hne (Int32.toInt_inj.mp hzero)

theorem returns_message :
    Returns unmarschalMessage fun mMessage => ∀ str ∈ mMessage, str ≠ [] ∧ str.WellFormed := by
  refine (Returns.trivial _).bind fun len _ => ?_
  refine Returns.ite (fun _ => Returns.pure (fun _ h => nomatch h)) fun hne => ?_
  refine (Returns.trivial _).bind fun remaining _ => ?_
  refine Returns.ite (fun _ => Returns.throw _ _) fun _ => ?_
  refine (returns_array len).bind fun bytes hbytes => Returns.pure fun str hstr => ?_
  obtain rfl := Option.some.inj hstr
  exact ⟨ofBytes_ne_nil (ne_zero_of_toNat hne hbytes.2 hbytes.1),
    JavaString.wellFormed_ofBytes bytes⟩

theorem returns_value (type : Nat) : Returns (unmarschalValue type) FaithfulArg := by
  unfold unmarschalValue
  refine Returns.ite (fun _ => returns_string.bind fun _ h => Returns.pure h) fun _ => ?_
  refine Returns.ite (fun _ => (Returns.trivial _).bind fun _ _ => Returns.pure trivial) fun _ => ?_
  refine Returns.ite (fun _ => (Returns.trivial _).bind fun _ _ => Returns.pure trivial) fun _ => ?_
  refine Returns.ite (fun _ => (Returns.trivial _).bind fun _ _ => Returns.pure trivial) fun _ => ?_
  refine Returns.ite (fun _ => (Returns.trivial _).bind fun _ _ => Returns.pure trivial) fun _ => ?_
  exact Returns.ite (fun _ => Returns.pure trivial) fun _ => Returns.throw _ _

theorem returns_loop (n : Nat) :
    Returns (unmarschalLoop n) fun args => args.length = n ∧ ∀ o ∈ args, FaithfulArg o := by
  induction n with
  | zero => exact Returns.pure ⟨rfl, fun _ h => nomatch h⟩
  | succ n ih =>
      have harg : Returns unmarschalArg FaithfulArg :=
        (Returns.trivial Get.char).bind fun type _ => returns_value type
      refine harg.bind fun o ho => ih.bind fun args hargs => Returns.pure ?_
      refine ⟨congrArg (· + 1) hargs.1, fun o' ho' => ?_⟩
      rcases List.mem_cons.mp ho' with rfl | ho'
      · exact ho
      · exact hargs.2 o' ho'

theorem returns_args : Returns unmarschalArgs fun mArgs =>
    ∀ args ∈ mArgs, args ≠ [] ∧ args.length ≤ 30 ∧ ∀ o ∈ args, FaithfulArg o := by
  refine (Returns.trivial _).bind fun numArgs _ => ?_
  refine Returns.ite (fun _ => Returns.throw _ _) fun hle => ?_
  refine Returns.ite (fun _ => Returns.pure (fun _ h => nomatch h)) fun hne => ?_
  refine Returns.ite (fun _ => Returns.throw _ _) fun hnonneg => ?_
  refine (returns_loop _).bind fun args hargs => Returns.pure fun args' hargs' => ?_
  obtain rfl := Option.some.inj hargs'
  exact ⟨ne_zero_of_toNat hne (Int.not_lt.mp hnonneg) hargs.1, by omega, hargs.2⟩

/-- Items that are not faithful never come out of the reader. -/
theorem faithful_of_ofBytes {input : List UInt8} {length : Int} {li : LogItem}
    (h : ofBytes input length = .ok li) : li.Faithful := by
  have hreturns : Returns unmarschal Faithful := by
    unfold unmarschal unmarschalRest
    refine (Returns.trivial _).bind fun _ _ => (Returns.trivial _).bind fun _ _ => ?_
    refine (Returns.trivial _).bind fun _ _ => (Returns.trivial _).bind fun _ _ => ?_
    refine (Returns.trivial _).bind fun _ _ => returns_message.bind fun _ hmessage => ?_
    refine returns_args.bind fun _ hargs => (Returns.trivial _).bind fun _ _ => ?_
    exact Returns.pure ⟨hmessage, hargs⟩
  rw [ofBytes] at h
  split at h
  · cases h
  · cases hrun : unmarschal.run (input.take length.toNat) with
    | error e =>
        rw [hrun] at h
        cases h
    | ok r =>
        rw [hrun] at h
        obtain rfl := Except.ok.inj h
        exact hreturns _ r.1 r.2 hrun

/-! ### The length of an item -/

theorem length_marschaled (li : LogItem) (level : LogLevel) :
    (li.marschaled level).length =
      (li.mMessage.getD []).getBytes.length + 29 +
        ((li.mArgs.getD []).flatMap marschalArg).length := by
  have hheader : (li.marschalHeader level).length = 21 := rfl
  have hlength : ∀ n, (putLength n).length = 4 := fun n => BigEndian.length_bigEndian 4 _
  rw [marschaled, List.length_append, List.length_append, hheader, marschalMessage_eq,
    marschalArgs_eq, marschalString, List.length_append, List.length_append, hlength, hlength]
  omega

theorem length_le_flatMap_marschalArg (args : List LogArg) :
    args.length ≤ (args.flatMap marschalArg).length := by
  induction args with
  | nil => exact Nat.le_refl 0
  | cons o args ih =>
      have htype : 0 < (marschalArg o).length := Nat.succ_pos _
      rw [List.flatMap_cons, List.length_append, List.length_cons]
      omega

theorem fails_args_many {n : Nat} (h : 30 < n) (hcap : n ≤ CAPACITY) (rest : List UInt8) :
    Fails unmarschalArgs (putLength n ++ rest) := by
  refine (reads_length n).after_bind ?_
  have hint := toInt_ofNat_length hcap
  refine After.ite (fun _ => After.throw _ _ _) fun hle => ?_
  rw [hint] at hle
  exact absurd (Int.ofNat_lt.mpr h) hle

/-- More than 30 arguments are written and not read. -/
theorem fails_many {li : LogItem} {level : LogLevel}
    (hmany : 30 < (li.mArgs.getD []).length)
    (hcap : (li.marschaled level).length ≤ CAPACITY) :
    Fails unmarschal (li.marschaled level) := by
  rw [marschaled, List.length_append, List.length_append] at hcap
  have hmessage : After unmarschalMessage (marschalMessage li.mMessage ++ marschalArgs li.mArgs)
      fun _ rest => rest = marschalArgs li.mArgs := by
    have h := reads_message (message_recorded li) (by
      rw [marschalMessage_recorded]
      omega)
    rw [marschalMessage_recorded] at h
    intro message rest hrun
    rw [h] at hrun
    cases hrun
    rfl
  intro li' rest hrun
  rw [marschaled, run_header] at hrun
  refine hmessage.bind (R := fun _ _ => False) (fun message rest' hrest' => ?_) li' rest hrun
  rw [hrest', marschalArgs_eq]
  have hcount := length_le_flatMap_marschalArg (li.mArgs.getD [])
  rw [marschalArgs_eq, List.length_append] at hcap
  exact (fails_args_many hmany (by omega) _).bind _

end LogItem

/-- An item of the log buffer; the log functions give every item a level. -/
structure LoggedItem where
  item : LogItem
  level : LogLevel
  hasLevel : item.mLevel = some level

namespace LoggedItem

/-- The marshalled item has room in the buffer of `getMarschaledBytes`. -/
def Fits (x : LoggedItem) : Prop := (x.item.marschaled x.level).length ≤ LogItem.CAPACITY

instance (x : LoggedItem) : Decidable x.Fits := inferInstanceAs (Decidable (_ ≤ _))

theorem getMarschaledBytes_of_fits {x : LoggedItem} (h : x.Fits) :
    x.item.getMarschaledBytes = .ok (x.item.marschaled x.level) :=
  LogItem.getMarschaledBytes_eq_ok.mpr ⟨x.level, x.hasLevel, rfl, h⟩

theorem getMarschaledBytes_of_not_fits {x : LoggedItem} (h : ¬ x.Fits) :
    x.item.getMarschaledBytes = .error .bufferOverflow := by
  rw [LogItem.getMarschaledBytes, x.hasLevel]
  exact if_neg h

end LoggedItem

end OpenVpnAndroid
