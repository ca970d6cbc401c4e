/-
  OpenVpnAndroid/UuidText.lean
  ============================
  **UUIDs as texts.**

  `UUID.fromString` is not strict: a group may have fewer digits than
  `UUID.toString` writes, or more, which are cut off, and the digits may be upper
  case.  So a UUID has many spellings, and one of them is the text that
  `UUID.toString` returns.  The keys of the profile table are texts of that kind.
-/
import OpenVpnAndroid.ExternalApi

namespace OpenVpnAndroid

/-! ### Hexadecimal digits -/

/-- The letter `A`, upper and lower case, of ASCII and of the fullwidth forms. -/
def hexLetters : List Nat := [0x41, 0x61, 0xff21, 0xff41]

/-- `Character.digit(c, 16)` -/
def hexDigit (c : Char) : Option Nat :=
  match digit c with
  | some d => some d
  | none =>
      (hexLetters.find? fun a => a ≤ c.toNat && c.toNat < a + 6).map fun a => 10 + (c.toNat - a)

def hexStep (value : Option Nat) (c : Char) : Option Nat :=
  value.bind fun v => (hexDigit c).map fun d => 16 * v + d

/-- The value of a text of hexadecimal digits. -/
def hexValue (s : Text) : Option Nat := s.foldl hexStep (some 0)

theorem hexDigit_digitChar : ∀ d < 16, hexDigit (Nat.digitChar d) = some d := by decide

theorem hexDigits_succ (width n : Nat) :
    hexDigits (width + 1) n = hexDigits width (n / 16) ++ [Nat.digitChar (n % 16)] := by
  rw [hexDigits, hexDigits, List.range_succ, List.map_append]
  congr 1
  · apply List.map_congr_left
    intro i hi
    rw [List.mem_range] at hi
    rw [Nat.div_div_eq_div_mul, ← Nat.pow_succ']
    congr 4
    omega
  · simp

@[simp] theorem hexDigits_length (width n : Nat) : (hexDigits width n).length = width := by
  simp [hexDigits]

theorem hexValue_hexDigits (width n : Nat) :
    hexValue (hexDigits width n) = some (n % 16 ^ width) := by
  induction width generalizing n with
  | zero => simp [hexDigits, hexValue, Nat.mod_one]
  | succ width ih =>
      have hdigit := hexDigit_digitChar (n % 16) (Nat.mod_lt n (by decide))
      rw [hexDigits_succ, hexValue, List.foldl_append, ← hexValue, ih]
      simp only [List.foldl_cons, List.foldl_nil, hexStep, hdigit, Option.bind_some,
        Option.map_some]
      rw [Nat.pow_succ', Nat.mod_mul, Nat.add_comm]

/-- The characters of the digits are neither a sign nor the separator. -/
theorem hexDigits_subset (width n : Nat) : hexDigits width n ⊆ ("0123456789abcdef" : Text) := by
  have hdigits : ∀ d < 16, Nat.digitChar d ∈ ("0123456789abcdef" : Text) := by decide
  rw [hexDigits, List.subset_def]
  intro c hc
  obtain ⟨i, _, rfl⟩ := List.mem_map.mp hc
  exact hdigits _ (Nat.mod_lt _ (by decide))

/-! ### `UUID.fromString` -/

/-- `Long.parseLong(s, 16)` of a text without the sign `-`. -/
def parseHexLong (s : Text) : Option Nat :=
  let digits :=
    match s with
    | '+' :: ds => ds
    | ds => ds
  if digits.isEmpty then none
  else (hexValue digits).bind fun n => if n < 2 ^ 63 then some n else none

/-- A group of the text, cut to its bits. -/
def UUID.group (bits : Nat) (s : Text) : Option Nat := (parseHexLong s).map fun n => n % 2 ^ bits

/-- `UUID.fromString`; `none` is an `IllegalArgumentException`. -/
def UUID.fromString (name : Text) : Option UUID :=
  if name.length > 36 then none
  else
    match pieces (· == '-') name with
    | [a, b, c, d, e] => do
        let timeLow ← group 32 a
        let timeMid ← group 16 b
        let timeHigh ← group 16 c
        let clock ← group 16 d
        let node ← group 48 e
        some (BitVec.ofNat 128
          ((((timeLow * 2 ^ 16 + timeMid) * 2 ^ 16 + timeHigh) * 2 ^ 16 + clock) * 2 ^ 48 + node))
    | _ => none

namespace UUID

theorem group_hexDigits (width : Nat) (hpos : 0 < width) (hwidth : width < 16) (n : Nat) :
    group (4 * width) (hexDigits width n) = some (n % 2 ^ (4 * width)) := by
  have hpow : 16 ^ width = 2 ^ (4 * width) := by rw [Nat.pow_mul]
  have hlt : n % 16 ^ width < 2 ^ 63 := by
    have hle : 2 ^ (4 * width) ≤ 2 ^ 63 := Nat.pow_le_pow_right (by decide) (by omega)
    have hmod : n % 16 ^ width < 16 ^ width := Nat.mod_lt n (Nat.pow_pos (by decide))
    omega
  have hplus : ∀ ds, hexDigits width n ≠ '+' :: ds := by
    intro ds h
    have hmem : '+' ∈ ("0123456789abcdef" : Text) :=
      hexDigits_subset width n (h ▸ List.mem_cons_self)
    exact absurd hmem (by decide)
  have hparse : parseHexLong (hexDigits width n) = some (n % 16 ^ width) := by
    unfold parseHexLong
    split
    · rename_i ds heq
      exact absurd heq (hplus ds)
    · have hne : (hexDigits width n).isEmpty = false := by
        rw [List.isEmpty_eq_false_iff, ← List.length_pos_iff, hexDigits_length]
        exact hpos
      dsimp only
      rw [hne, if_neg Bool.false_ne_true, hexValue_hexDigits, Option.bind_some, if_pos hlt]
  rw [group, hparse, Option.map_some, hpow, Nat.mod_mod]

theorem fromString_toString (u : UUID) : fromString (toString u) = some u := by
  have hsep : ∀ width n, ∀ x ∈ hexDigits width n, (x == '-') = false := by
    intro width n x hx
    have hnot : '-' ∉ ("0123456789abcdef" : Text) := by decide
    rw [beq_eq_false_iff_ne]
    rintro rfl
    exact hnot (hexDigits_subset width n hx)
  have hlength : ¬(toString u).length > 36 := by simp [toString]
  have hpieces : pieces (· == '-') (toString u) =
      [hexDigits 8 (u.toNat / 2 ^ 96), hexDigits 4 (u.toNat / 2 ^ 80),
        hexDigits 4 (u.toNat / 2 ^ 64), hexDigits 4 (u.toNat / 2 ^ 48), hexDigits 12 u.toNat] := by
    simp only [toString, List.append_assoc]
    rw [show (("-" : String) : Text) = ['-'] from rfl]
    simp only [List.singleton_append]
    rw [pieces_append _ (hsep _ _) (by decide), pieces_append _ (hsep _ _) (by decide),
      pieces_append _ (hsep _ _) (by decide), pieces_append _ (hsep _ _) (by decide),
      pieces_of_none (hsep _ _)]
  have hvalue : ((((u.toNat / 2 ^ 96 % 2 ^ 32) * 2 ^ 16 + u.toNat / 2 ^ 80 % 2 ^ 16) * 2 ^ 16
      + u.toNat / 2 ^ 64 % 2 ^ 16) * 2 ^ 16 + u.toNat / 2 ^ 48 % 2 ^ 16) * 2 ^ 48
      + u.toNat % 2 ^ 48 = u.toNat := by
    have := u.isLt
    omega
  rw [fromString, if_neg hlength, hpieces]
  have h8 : ∀ n, group 32 (hexDigits 8 n) = some (n % 2 ^ 32) :=
    fun n => group_hexDigits 8 (by decide) (by decide) n
  have h4 : ∀ n, group 16 (hexDigits 4 n) = some (n % 2 ^ 16) :=
    fun n => group_hexDigits 4 (by decide) (by decide) n
  have h12 : ∀ n, group 48 (hexDigits 12 n) = some (n % 2 ^ 48) :=
    fun n => group_hexDigits 12 (by decide) (by decide) n
  simp only [h8, h4, h12, Option.bind_eq_bind, Option.bind_some, hvalue, BitVec.ofNat_toNat,
    BitVec.setWidth_eq]

theorem toString_injective : Function.Injective toString := by
  intro u v h
  have hu := fromString_toString u
  rw [h, fromString_toString] at hu
  exact (Option.some.inj hu).symm

/-- The UUID whose text is the key. -/
def ofKey (key : Text) : Option UUID := (fromString key).filter fun u => toString u = key

theorem ofKey_eq_some {key : Text} {u : UUID} : ofKey key = some u ↔ toString u = key := by
  simp only [ofKey, Option.filter_eq_some_iff, decide_eq_true_eq]
  constructor
  · exact And.right
  · rintro rfl
    exact ⟨fromString_toString u, rfl⟩

@[simp] theorem ofKey_toString (u : UUID) : ofKey (toString u) = some u := ofKey_eq_some.mpr rfl

end UUID

/-! ### Lower case -/

open ConfigParser (toLowerCase)

theorem toLower_cases (c : Char) :
    c.toLower = c ∨ ∃ n : Fin 26, c = Char.ofNat (65 + n) := by
  rw [Char.toLower]
  split
  · rename_i h
    right
    have hlo : 65 ≤ c.toNat := h.1
    have hhi : c.toNat ≤ 90 := h.2
    refine ⟨⟨c.toNat - 65, by omega⟩, ?_⟩
    rw [show 65 + (c.toNat - 65) = c.toNat by omega, Char.ofNat_toNat]
  · exact .inl rfl

theorem hexDigit_toLower (c : Char) : hexDigit c.toLower = hexDigit c := by
  have hletters : ∀ n : Fin 26,
      hexDigit (Char.ofNat (65 + n)).toLower = hexDigit (Char.ofNat (65 + n)) := by decide
  obtain h | ⟨n, rfl⟩ := toLower_cases c
  · rw [h]
  · exact hletters n

/-- No letter becomes a sign. -/
theorem toLower_eq_iff {x : Char} (hletters : ∀ n : Fin 26,
      (Char.ofNat (65 + n)).toLower ≠ x ∧ Char.ofNat (65 + n) ≠ x) (c : Char) :
    c.toLower = x ↔ c = x := by
  obtain h | ⟨n, rfl⟩ := toLower_cases c
  · rw [h]
  · exact ⟨fun h => absurd h (hletters n).1, fun h => absurd h (hletters n).2⟩

theorem hexValue_toLowerCase (s : Text) : hexValue (toLowerCase s) = hexValue s := by
  have hstep : (fun value c => hexStep value (Char.toLower c)) = hexStep := by
    funext value c
    rw [hexStep, hexStep, hexDigit_toLower]
  rw [hexValue, hexValue, toLowerCase, List.foldl_map, hstep]

theorem parseHexLong_toLowerCase (s : Text) : parseHexLong (toLowerCase s) = parseHexLong s := by
  cases s with
  | nil => rfl
  | cons c s =>
      by_cases hc : c = '+'
      · subst hc
        simp [parseHexLong, toLowerCase, ← hexValue_toLowerCase s]
      · have hlower : c.toLower ≠ '+' := fun h => hc ((toLower_eq_iff (by decide) c).mp h)
        have hvalue := hexValue_toLowerCase (c :: s)
        simp only [toLowerCase, List.map_cons] at hvalue ⊢
        unfold parseHexLong
        split
        · rename_i ds heq
          exact absurd (List.cons.inj heq).1 hlower
        · split
          · rename_i ds heq
            exact absurd (List.cons.inj heq).1 hc
          · simp [hvalue]

theorem pieces_toLowerCase (s : Text) :
    pieces (· == '-') (toLowerCase s) = (pieces (· == '-') s).map toLowerCase := by
  induction s with
  | nil => rfl
  | cons c s ih =>
      have hsep : (c.toLower == '-') = (c == '-') := by
        rw [Bool.eq_iff_iff, beq_iff_eq, beq_iff_eq]
        exact toLower_eq_iff (by decide) c
      rw [toLowerCase, List.map_cons, ← toLowerCase, pieces, pieces, hsep, ih]
      split
      · rfl
      · cases pieces (· == '-') s <;> rfl

theorem UUID.fromString_toLowerCase (name : Text) :
    UUID.fromString (toLowerCase name) = UUID.fromString name := by
  have hgroup : ∀ bits s, UUID.group bits (toLowerCase s) = UUID.group bits s := by
    intro bits s
    rw [UUID.group, UUID.group, parseHexLong_toLowerCase]
  have hlength : (toLowerCase name).length = name.length := by simp [toLowerCase]
  rw [UUID.fromString, UUID.fromString, pieces_toLowerCase, hlength]
  split
  · rfl
  · rcases pieces (· == '-') name with _ | ⟨a, _ | ⟨b, _ | ⟨c, _ | ⟨d, _ | ⟨e, _ | ⟨f, ps⟩⟩⟩⟩⟩⟩
    all_goals simp only [List.map_nil, List.map_cons, hgroup]

example : UUID.fromString "1-1-1-1-1" = UUID.fromString "00000001-0001-0001-0001-000000000001" := by
  decide +kernel

end OpenVpnAndroid
