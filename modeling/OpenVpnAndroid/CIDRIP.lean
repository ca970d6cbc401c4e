/-
  OpenVpnAndroid/CIDRIP.lean
  ==========================
  **`CIDRIP`: an address with a prefix length**, made from an address and a
  netmask.

  The loop of `calculateLenFromMask` shifts the netmask until its last bit is
  set.  The bit that is added first should end it; it does not when the sum is
  0 as a `long`.
-/
import OpenVpnAndroid.JavaText

namespace OpenVpnAndroid

structure CIDRIP where
  mIp : Text
  len : Int
deriving DecidableEq, Repr

namespace CIDRIP

/-- The number `ipt[i]`. -/
def part (parse : Text → Option Int) (ipt : List Text) (i : Nat) : Java Int := do
  let s ← vectorGet ipt i
  match parse s with
  | none => throwJava (.numberFormat s)
  | some n => return n

def getInt (ipaddr : Text) : Java Int := do
  let ipt := split (· == '.') ipaddr
  let a ← part parseLong ipt 0
  let b ← part parseInt ipt 1
  let c ← part parseInt ipt 2
  let d ← part parseInt ipt 3
  return long (long (long (long (a * 2 ^ 24) + int (b * 2 ^ 16)) + int (c * 2 ^ 8)) + d)

/-- The `while` loop: the netmask without its zeros at the end, and their number.
    A `long` other than 0 has a bit that is set. -/
def shiftZeros : Nat → Int → Nat → Option (Int × Nat)
  | 0, _, _ => none
  | rounds + 1, netmask, lenZeros =>
      if netmask % 2 = 0 then shiftZeros rounds (netmask / 2) (lenZeros + 1)
      else some (netmask, lenZeros)

def calculateLenFromMask (mask : Text) : Java Int := do
  let netmask ← getInt mask
  match shiftZeros 64 (long (netmask + 2 ^ 32)) 0 with
  | none => .error .loops
  | some (netmask, lenZeros) =>
      -- check if the rest of the netmask is only 1s
      if netmask ≠ 0x1ffffffff / 2 ^ lenZeros then return 32 else return 32 - lenZeros

theorem calculateLenFromMask_eq {mask : Text} {n : Int} (h : getInt mask = .ok n) :
    calculateLenFromMask mask =
      match shiftZeros 64 (long (n + 2 ^ 32)) 0 with
      | none => .error .loops
      | some (netmask, lenZeros) =>
          if netmask ≠ 0x1ffffffff / 2 ^ lenZeros then return 32 else return 32 - lenZeros := by
  rw [calculateLenFromMask, h]
  rfl

/-- Shifted by the zeros the netmask and the bit are only ones, or the length is 32. -/
theorem calculateLenFromMask_of_shiftZeros {mask : Text} {n odd : Int} {k : Nat}
    (h : getInt mask = .ok n) (hshift : shiftZeros 64 (long (n + 2 ^ 32)) 0 = some (odd, k))
    (hk : k ≤ 32) :
    calculateLenFromMask mask =
      .ok (if odd = ((2 ^ (33 - k) - 1 : Nat) : Int) then 32 - k else 32) := by
  have hones : ∀ k ≤ 32, (0x1ffffffff : Int) / 2 ^ k = ((2 ^ (33 - k) - 1 : Nat) : Int) := by
    decide
  rw [calculateLenFromMask_eq h, hshift]
  simp only [hones k hk]
  by_cases hodd : odd = ((2 ^ (33 - k) - 1 : Nat) : Int)
  · rw [if_neg (not_not.mpr hodd), if_pos hodd]
    rfl
  · rw [if_pos hodd, if_neg hodd]
    rfl

/-- `new CIDRIP(ip, mask)` -/
def ofMask (ip mask : Text) : Java CIDRIP := do
  let len ← calculateLenFromMask mask
  return ⟨ip, len⟩

def toString (c : CIDRIP) : Text := c.mIp ++ ("/" : Text) ++ decimal c.len

end CIDRIP

end OpenVpnAndroid
