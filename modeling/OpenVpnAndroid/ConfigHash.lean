/-
  OpenVpnAndroid/ConfigHash.lean
  ==============================
  **The text of a managed configuration and its hash.**

  `AppRestrictions.prepare` takes a configuration without line ends and blanks for
  Base64 and decodes it.  The decoder of Android skips every byte that is not in its
  alphabet, so it rejects few texts, and a text that was decoded once may be decoded
  again.  `hashConfig` begins with `prepare`.
-/
import OpenVpnAndroid.JavaText
import OpenVpnAndroid.Utf8
import OpenVpnAndroid.BigEndian
import OpenVpnAndroid.TextDecoding

namespace OpenVpnAndroid

/-! ### `android.util.Base64` -/

namespace Base64

/-- What the table `DECODE` has for a byte. -/
inductive Symbol where
  | digit (d : Nat)
  | skip
  | equals
deriving DecidableEq, Repr

def alphabet : Text := "ABCDEFGHIJKLMNOPQRSTUVWXYZabcdefghijklmnopqrstuvwxyz0123456789+/"

def symbol (b : UInt8) : Symbol :=
  if b = 0x3d then .equals
  else
    match alphabet.findIdx? fun c => c.toNat = b.toNat with
    | some d => .digit d
    | none => .skip

/-- The state of the decoder: the digits of a group that it has, or the `=` after
    them. -/
inductive State where
  | start
  | one (value : Nat)
  | two (value : Nat)
  | three (value : Nat)
  | expectsEquals
  | closed
deriving DecidableEq, Repr

/-- The end of the input. -/
def finish : State → Option (List UInt8)
  | .start => some []
  | .one _ => none
  | .two value => some [UInt8.ofNat (value >>> 4)]
  | .three value => some [UInt8.ofNat (value >>> 10), UInt8.ofNat (value >>> 2)]
  | .expectsEquals => none
  | .closed => some []

/-- A byte of the input: the bytes that it completes and the next state. -/
def step (state : State) (b : UInt8) : Option (List UInt8 × State) :=
  match symbol b, state with
  | .skip, state => some ([], state)
  | .digit d, .start => some ([], .one d)
  | .digit d, .one value => some ([], .two ((value <<< 6) ||| d))
  | .digit d, .two value => some ([], .three ((value <<< 6) ||| d))
  | .digit d, .three value =>
      let value := (value <<< 6) ||| d
      some ([UInt8.ofNat (value >>> 16), UInt8.ofNat (value >>> 8), UInt8.ofNat value], .start)
  | .equals, .two value => some ([UInt8.ofNat (value >>> 4)], .expectsEquals)
  | .equals, .three value =>
      some ([UInt8.ofNat (value >>> 10), UInt8.ofNat (value >>> 2)], .closed)
  | .equals, .expectsEquals => some ([], .closed)
  | _, _ => none

def decodeFrom (state : State) : List UInt8 → Option (List UInt8)
  | [] => finish state
  | b :: input => do
      let (output, state) ← step state b
      let rest ← decodeFrom state input
      some (output ++ rest)

/-- `decode(input, DEFAULT)`; `none` is an `IllegalArgumentException`. -/
def decode (input : List UInt8) : Option (List UInt8) := decodeFrom .start input

end Base64

/-! ### SHA-1 -/

namespace Sha1

abbrev Word := BitVec 32

structure Digest where
  a : Word
  b : Word
  c : Word
  d : Word
  e : Word
deriving DecidableEq, Repr

def init : Digest := ⟨0x67452301, 0xefcdab89, 0x98badcfe, 0x10325476, 0xc3d2e1f0⟩

/-- The message with its length, a multiple of 64 bytes. -/
def pad (message : List UInt8) : List UInt8 :=
  let zeros := (119 - message.length % 64) % 64
  message ++ 0x80 :: List.replicate zeros 0 ++ bigEndian 8 (8 * message.length)

/-- The 16 words of a block. -/
def words (block : List UInt8) : List Word :=
  (List.range 16).map fun i => BitVec.ofNat 32 (BigEndian.value ((block.drop (4 * i)).take 4))

/-- The function and the constant of round `t`. -/
def mix (t : Nat) (b c d : Word) : Word :=
  if t < 20 then ((b &&& c) ||| (~~~b &&& d)) + 0x5a827999
  else if t < 40 then (b ^^^ c ^^^ d) + 0x6ed9eba1
  else if t < 60 then ((b &&& c) ||| (b &&& d) ||| (c &&& d)) + 0x8f1bbcdc
  else (b ^^^ c ^^^ d) + 0xca62c1d6

/-- Round `t`.  The schedule is the list of the words of this round and of the fifteen
    after it. -/
def round (s : Digest × List Word) (t : Nat) : Digest × List Word :=
  let (⟨a, b, c, d, e⟩, schedule) := s
  let word (i : Nat) : Word := schedule.getD i 0
  let next := (word 13 ^^^ word 8 ^^^ word 2 ^^^ word 0).rotateLeft 1
  (⟨a.rotateLeft 5 + mix t b c d + e + word 0, a, b.rotateLeft 30, c, d⟩,
    schedule.tail ++ [next])

def compress (s : Digest) (block : List UInt8) : Digest :=
  let (r, _) := (List.range 80).foldl round (s, words block)
  ⟨s.a + r.a, s.b + r.b, s.c + r.c, s.d + r.d, s.e + r.e⟩

def digest (message : List UInt8) : Digest :=
  let padded := pad message
  (List.range (padded.length / 64)).foldl
    (fun s i => compress s ((padded.drop (64 * i)).take 64)) init

/-- The bytes of a digest as a number. -/
def Digest.toNat (s : Digest) : Nat :=
  (((s.a.toNat * 2 ^ 32 + s.b.toNat) * 2 ^ 32 + s.c.toNat) * 2 ^ 32 + s.d.toNat) * 2 ^ 32
    + s.e.toNat

end Sha1

/-! ### `prepare` and `hashConfig` -/

namespace AppRestrictions

/-- `line.separator` is a line feed. -/
def prepare (config : Text) : Text :=
  if !config.contains '\n' && !config.contains ' ' then
    match Base64.decode (Utf8.encode config) with
    | some decoded => Utf8.decode decoded
    | none => config
  else config

/-- `new BigInteger(1, digest.digest()).toString(16)` -/
def hashConfig (rawconfig : Text) : Text :=
  Nat.toDigits 16 (Sha1.digest (Utf8.encode (prepare rawconfig))).toNat

theorem hashConfig_eq_iff {config config' : Text} :
    hashConfig config = hashConfig config' ↔
      (Sha1.digest (Utf8.encode (prepare config))).toNat =
        (Sha1.digest (Utf8.encode (prepare config'))).toNat := by
  constructor
  · exact toDigits_injective (by decide) (by decide)
  · intro h
    rw [hashConfig, hashConfig, h]

example : hashConfig "client\nremote test.blinkt.de\n" =
    ("4098294f8a8d25bb6e85cef5672dfba13ed63719" : Text) := by
  decide +kernel

end AppRestrictions

end OpenVpnAndroid
