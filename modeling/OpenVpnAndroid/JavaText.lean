/-
  OpenVpnAndroid/JavaText.lean
  ============================
  **Java text and Java exceptions**, as far as the configuration code uses
  them.  A `String` is the list of its characters; nothing in the code below
  looks inside a surrogate pair.

  `Throwable` keeps apart the two exceptions that the importer declares
  (`ConfigParseError`, `IOException`) from the unchecked ones that its callers
  do not catch.  `Stop.loops` is a computation that never comes back.
-/
import Mathlib

namespace OpenVpnAndroid

/-! ### Strings and characters -/

abbrev Text := List Char

instance : Coe String Text := ⟨String.toList⟩

/-- `%s` and `+` for a reference that may be `null`. -/
def orNull (s : Option Text) : Text := s.getD "null"

def NUL : Char := '\x00'
def BACKSLASH : Char := '\x5c'
def QUOTE : Char := '\x22'
def APOSTROPHE : Char := '\x27'

@[simp] theorem BACKSLASH_ne_NUL : BACKSLASH ≠ NUL := by decide
@[simp] theorem QUOTE_ne_NUL : QUOTE ≠ NUL := by decide
@[simp] theorem BACKSLASH_ne_QUOTE : BACKSLASH ≠ QUOTE := by decide
@[simp] theorem QUOTE_ne_BACKSLASH : QUOTE ≠ BACKSLASH := by decide

/-- `Character.isWhitespace`: the ASCII controls it lists and the Unicode space
    separators other than the non-breaking ones. -/
def isWhitespace (c : Char) : Bool :=
  let n := c.toNat
  (9 ≤ n && n ≤ 13) || (28 ≤ n && n ≤ 32) || n == 0x1680
    || (0x2000 ≤ n && n ≤ 0x200a && n != 0x2007)
    || n == 0x2028 || n == 0x2029 || n == 0x205f || n == 0x3000

/-- `s.contains(sub)` -/
def containsText (sub : Text) : Text → Bool
  | [] => sub.isEmpty
  | c :: s => sub.isPrefixOf (c :: s) || containsText sub s

/-- The text after the first occurrence of `sub`. -/
def afterFirst (sub : Text) : Text → Option Text
  | [] => if sub.isEmpty then some [] else none
  | c :: s => if sub.isPrefixOf (c :: s) then some ((c :: s).drop sub.length) else afterFirst sub s

/-- `s.trim()`: without the characters up to the blank at both ends. -/
def trim (s : Text) : Text :=
  ((s.dropWhile fun c => c.toNat ≤ 32).reverse.dropWhile fun c => c.toNat ≤ 32).reverse

/-- The pieces of a text between the separators, empty ones included. -/
def pieces (separator : Char → Bool) : Text → List Text
  | [] => [[]]
  | c :: s =>
      if separator c then [] :: pieces separator s
      else
        match pieces separator s with
        | [] => [[c]]
        | p :: ps => (c :: p) :: ps

/-- The first piece ends before the first separator. -/
theorem pieces_eq (separator : Char → Bool) (s : Text) :
    pieces separator s = (s.takeWhile fun c => !separator c) ::
      match s.dropWhile fun c => !separator c with
      | [] => []
      | _ :: rest => pieces separator rest := by
  induction s with
  | nil => rfl
  | cons c s ih =>
      rw [pieces]
      by_cases hc : separator c = true
      · simp [hc]
      · simp [hc, ih]

theorem pieces_append {separator : Char → Bool} {s : Text} {c : Char} (rest : Text)
    (hs : ∀ x ∈ s, separator x = false) (hc : separator c = true) :
    pieces separator (s ++ c :: rest) = s :: pieces separator rest := by
  induction s with
  | nil => simp [pieces, hc]
  | cons x s ih =>
      have hx : separator x = false := hs x List.mem_cons_self
      rw [List.cons_append, pieces, ih fun y hy => hs y (List.mem_cons_of_mem x hy)]
      simp [hx]

theorem pieces_of_none {separator : Char → Bool} {s : Text} (hs : ∀ x ∈ s, separator x = false) :
    pieces separator s = [s] := by
  induction s with
  | nil => rfl
  | cons x s ih =>
      have hx : separator x = false := hs x List.mem_cons_self
      rw [pieces, ih fun y hy => hs y (List.mem_cons_of_mem x hy)]
      simp [hx]

/-- `s.split(separator)` for one character: empty pieces at the end are left out,
    unless nothing was split. -/
def split (separator : Char → Bool) (s : Text) : List Text :=
  if s.any separator then ((pieces separator s).reverse.dropWhile List.isEmpty).reverse else [s]

/-- `s.split(separator, 2)` -/
def split2 (separator : Char → Bool) : Text → Text × Option Text
  | [] => ([], none)
  | c :: s =>
      if separator c then ([], some s)
      else
        let (first, rest) := split2 separator s
        (c :: first, rest)

/-- The lines that `BufferedReader.readLine` returns. -/
def readLines : Text → List Text
  | [] => []
  | '\n' :: s => [] :: readLines s
  | '\r' :: '\n' :: s => [] :: readLines s
  | '\r' :: s => [] :: readLines s
  | c :: s =>
      match readLines s with
      | [] => [[c]]
      | l :: ls => (c :: l) :: ls

/-! ### Integers -/

/-- `%d`, for an `int` or a `long`. -/
def decimal (n : Int) : Text :=
  if n < 0 then '-' :: Nat.toDigits 10 n.natAbs else Nat.toDigits 10 n.natAbs

/-- A `long` value wraps around. -/
def long (x : Int) : Int := x.bmod (2 ^ 64)

theorem long_of_range {x : Int} (hlo : -2 ^ 63 ≤ x) (hhi : x < 2 ^ 63) : long x = x := by
  rw [long]
  apply Int.bmod_eq_of_le <;> omega

/-- An `int` value wraps around. -/
def int (x : Int) : Int := x.bmod (2 ^ 32)

/-- The zeros of the decimal digits that `Character.digit` knows. -/
def digitZeros : List Nat :=
  [0x30, 0x660, 0x6f0, 0x7c0, 0x966, 0x9e6, 0xa66, 0xae6, 0xb66, 0xbe6, 0xc66, 0xce6, 0xd66,
    0xde6, 0xe50, 0xed0, 0xf20, 0x1040, 0x1090, 0x17e0, 0x1810, 0x1946, 0x19d0, 0x1a80, 0x1a90,
    0x1b50, 0x1bb0, 0x1c40, 0x1c50, 0xa620, 0xa8d0, 0xa900, 0xa9d0, 0xa9f0, 0xaa50, 0xabf0,
    0xff10]

/-- `Character.digit(c, 10)` -/
def digit (c : Char) : Option Nat :=
  (digitZeros.find? fun z => z ≤ c.toNat && c.toNat < z + 10).map (c.toNat - ·)

/-- The value of a text of digits. -/
def digitsValue (s : Text) : Option Nat :=
  s.foldl (fun value c => value.bind fun v => (digit c).map fun d => 10 * v + d) (some 0)

/-- `Integer.parseInt` for `width = 32` and `Long.parseLong` for `width = 64`;
    `none` is a `NumberFormatException`. -/
def parseSigned (width : Nat) (s : Text) : Option Int :=
  let (negative, digits) :=
    match s with
    | '-' :: ds => (true, ds)
    | '+' :: ds => (false, ds)
    | ds => (false, ds)
  if digits.isEmpty then none
  else
    (digitsValue digits).bind fun n =>
      let value : Int := if negative then -n else n
      if -2 ^ (width - 1) ≤ value ∧ value < 2 ^ (width - 1) then some value else none

def parseInt : Text → Option Int := parseSigned 32

def parseLong : Text → Option Int := parseSigned 64

/-! ### Exceptions -/

/-- What Java code throws here.  Only the first two are declared by
    `parseConfig` and `convertProfile`. -/
inductive Throwable where
  | configParseError (msg : Text)
  | ioException
  | arrayIndexOutOfBounds
  | stringIndexOutOfBounds
  | noSuchElement
  | inputMismatch
  | numberFormat (input : Text)
  | nullPointer
deriving DecidableEq, Repr

/-- Why a computation does not return: an exception, or a loop without end. -/
inductive Stop where
  | thrown (e : Throwable)
  | loops
deriving DecidableEq, Repr

/-- A Java method body: a value, or the reason why there is none. -/
abbrev Java := Except Stop

def throwJava (e : Throwable) : Java α := .error (.thrown e)

/-- `v.get(i)` -/
def vectorGet (v : List α) (i : Nat) : Java α :=
  match v[i]? with
  | some a => .ok a
  | none => throwJava .arrayIndexOutOfBounds

theorem vectorGet_of_getElem? {v : List α} {i : Nat} {a : α} (h : v[i]? = some a) :
    vectorGet v i = .ok a := by
  simp only [vectorGet, h]

/-- `v.lastElement()` -/
def lastElement (v : List α) : Java α :=
  match v.getLast? with
  | some a => .ok a
  | none => throwJava .noSuchElement

/-- The exceptions in the `throws` clause of `parseConfig` and `convertProfile`. -/
def Stop.declared : Stop → Bool
  | .thrown (.configParseError _) => true
  | .thrown .ioException => true
  | _ => false

end OpenVpnAndroid
