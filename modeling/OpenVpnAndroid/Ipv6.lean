/-
  OpenVpnAndroid/Ipv6.lean
  ========================
  **The text representation of IPv6 addresses.**

  RFC 4291, 2.2: eight groups of up to four hexadecimal digits; two colons stand for
  one or more groups of zeros, once in an address; and the last two groups may be
  four decimal numbers.  `parse` reads all three forms, and `parse_joined` and
  `parse_joined_gap` say what it reads in groups that are written without leading
  zeros.
-/
import OpenVpnAndroid.TextDecoding

namespace OpenVpnAndroid

namespace Ipv6

/-! ### Reading -/

/-- The base of the groups. -/
abbrev BASE : Nat := 0x10000

def hexDigitValue (c : Char) : Option Nat :=
  if '0' ≤ c ∧ c ≤ '9' then some (c.toNat - '0'.toNat)
  else if 'a' ≤ c ∧ c ≤ 'f' then some (10 + (c.toNat - 'a'.toNat))
  else if 'A' ≤ c ∧ c ≤ 'F' then some (10 + (c.toNat - 'A'.toNat))
  else none

def hexNumber (s : Text) : Option Nat :=
  s.foldlM (fun n c => (hexDigitValue c).map (16 * n + ·)) 0

/-- A group of one to four digits. -/
def parseGroup (s : Text) : Option Nat :=
  if 1 ≤ s.length ∧ s.length ≤ 4 then hexNumber s else none

/-- A decimal number of one byte. -/
def parseByte (s : Text) : Option Nat :=
  if 1 ≤ s.length ∧ s.length ≤ 3 ∧ s.all Char.isDigit ∧ Nat.ofDigitChars 10 s 0 < 256 then
    some (Nat.ofDigitChars 10 s 0)
  else none

/-- The two groups of `d.d.d.d`. -/
def parseDotted (s : Text) : Option (List Nat) :=
  match pieces (· == '.') s with
  | [a, b, c, d] => do
      let a ← parseByte a
      let b ← parseByte b
      let c ← parseByte c
      let d ← parseByte d
      some [256 * a + b, 256 * c + d]
  | _ => none

/-- The groups between the colons; the last one may be dotted at the end of an address. -/
def parsePieces (atEnd : Bool) : List Text → Option (List Nat)
  | [] => some []
  | [s] => if atEnd && s.contains '.' then parseDotted s else (parseGroup s).map fun g => [g]
  | s :: ss => do
      let g ← parseGroup s
      let gs ← parsePieces atEnd ss
      some (g :: gs)

def parseGroups (atEnd : Bool) (s : Text) : Option (List Nat) :=
  if s = [] then some [] else parsePieces atEnd (pieces (· == ':') s)

/-- The text in front of the first `::`, and the text behind it. -/
def splitGap : Text → Text × Option Text
  | [] => ([], none)
  | c :: s =>
      if c = ':' ∧ s.head? = some ':' then ([], some s.tail)
      else
        let (left, right) := splitGap s
        (c :: left, right)

/-- The address of these groups, the highest one first. -/
def ofGroups (groups : List Nat) : BitVec 128 :=
  BitVec.ofNat 128 (Nat.ofDigits BASE groups.reverse)

def parse (s : Text) : Option (BitVec 128) :=
  match splitGap s with
  | (left, none) => do
      let groups ← parseGroups true left
      if groups.length = 8 then some (ofGroups groups) else none
  | (left, some right) => do
      let high ← parseGroups false left
      let low ← parseGroups true right
      if high.length + low.length ≤ 7 then
        some (ofGroups (high ++ List.replicate (8 - (high.length + low.length)) 0 ++ low))
      else none

example : parse "2a02:2e0:3fe:1001:302::70" = parse "2A02:2e0:3fe:1001:0302:0:0:0070" := by decide

example : parse "::ffff:192.0.2.1" = parse "0:0:0:0:0:ffff:c000:201" := by decide

example : parse "1::2::3" = none ∧ parse ":::" = none ∧ parse "1:2:3:4:5:6:7" = none := by decide

/-! ### Writing -/

/-- The group without leading zeros. -/
def writeGroup (g : Nat) : Text := Nat.toDigits 16 g

/-- Groups with a colon between any two of them. -/
def joined : List Nat → Text
  | [] => []
  | [g] => writeGroup g
  | g :: gs => writeGroup g ++ ':' :: joined gs

/-- The groups of an address from the first one that is not 0. -/
def groupsOf (a : Nat) : List Nat := (Nat.digits BASE a).reverse

theorem joined_cons (g g' : Nat) (gs : List Nat) :
    joined (g :: g' :: gs) = writeGroup g ++ ':' :: joined (g' :: gs) := rfl

theorem hexDigitValue_digitChar : ∀ d < 16, hexDigitValue (Nat.digitChar d) = some d := by decide

theorem hexNumber_toDigits (n : Nat) : hexNumber (Nat.toDigits 16 n) = some n := by
  induction n using Nat.strongRecOn with
  | ind n ih =>
      rw [Nat.toDigits_eq_if (by decide)]
      by_cases hn : n < 16
      · simp [hn, hexNumber, hexDigitValue_digitChar n hn]
      · have hdigit := hexDigitValue_digitChar (n % 16) (Nat.mod_lt n (by decide))
        have hhigh : List.foldlM (fun n c => (hexDigitValue c).map (16 * n + ·)) 0
            (Nat.toDigits 16 (n / 16)) = some (n / 16) := ih (n / 16) (by omega)
        simp only [hn, if_false, hexNumber, List.foldlM_append, hhigh]
        simp [hdigit, Nat.div_add_mod]

theorem parseGroup_writeGroup {g : Nat} (hg : g < BASE) : parseGroup (writeGroup g) = some g := by
  have hlength : 1 ≤ (writeGroup g).length ∧ (writeGroup g).length ≤ 4 :=
    ⟨Nat.length_toDigits_pos, Nat.toDigits_length 16 g 4 (by decide) hg⟩
  rw [parseGroup, if_pos hlength]
  exact hexNumber_toDigits g

theorem writeGroup_subset (g : Nat) : writeGroup g ⊆ ("0123456789abcdef" : Text) :=
  toDigits_subset (by decide) (by decide) g

theorem colon_notMem_writeGroup (g : Nat) : ':' ∉ writeGroup g :=
  notMem_of_subset (writeGroup_subset g) (by decide)

theorem dot_notMem_writeGroup (g : Nat) : '.' ∉ writeGroup g :=
  notMem_of_subset (writeGroup_subset g) (by decide)

theorem writeGroup_ne_nil (g : Nat) : writeGroup g ≠ [] := Nat.toDigits_ne_nil

theorem joined_ne_nil (g : Nat) (gs : List Nat) : joined (g :: gs) ≠ [] := by
  cases gs with
  | nil => exact writeGroup_ne_nil g
  | cons g' gs => exact List.append_ne_nil_of_left_ne_nil (writeGroup_ne_nil g) _

/-! ### What is read of what is written -/

theorem pieces_joined (g : Nat) (gs : List Nat) :
    pieces (· == ':') (joined (g :: gs)) = (g :: gs).map writeGroup := by
  have hsep : ∀ g, ∀ c ∈ writeGroup g, (c == ':') = false := by
    intro g c hc
    rw [beq_eq_false_iff_ne]
    rintro rfl
    exact colon_notMem_writeGroup g hc
  induction gs generalizing g with
  | nil => exact pieces_of_none (hsep g)
  | cons g' gs ih =>
      rw [joined_cons, pieces_append _ (hsep g) rfl, ih]
      rfl

theorem parsePieces_map (atEnd : Bool) {gs : List Nat} (h : ∀ g ∈ gs, g < BASE) :
    parsePieces atEnd (gs.map writeGroup) = some gs := by
  induction gs with
  | nil => rfl
  | cons g gs ih =>
      have hg := parseGroup_writeGroup (h g List.mem_cons_self)
      have hgs := ih fun g' hg' => h g' (List.mem_cons_of_mem g hg')
      cases gs with
      | nil =>
          have hdot := dot_notMem_writeGroup g
          simp [parsePieces, hdot, hg]
      | cons g' gs =>
          rw [List.map_cons, List.map_cons, parsePieces, ← List.map_cons, hgs, hg]
          · rfl
          · simp

theorem parseGroups_joined (atEnd : Bool) {gs : List Nat} (h : ∀ g ∈ gs, g < BASE) :
    parseGroups atEnd (joined gs) = some gs := by
  cases gs with
  | nil => rfl
  | cons g gs =>
      rw [parseGroups, if_neg (joined_ne_nil g gs), pieces_joined, parsePieces_map atEnd h]

theorem splitGap_append {u : Text} (hu : ':' ∉ u) (s : Text) :
    splitGap (u ++ s) = (u ++ (splitGap s).1, (splitGap s).2) := by
  induction u with
  | nil => rfl
  | cons c u ih =>
      have hc : c ≠ ':' := fun h => hu (h ▸ List.mem_cons_self)
      have hrest := ih fun h => hu (List.mem_cons_of_mem c h)
      rw [List.cons_append, splitGap, if_neg fun h => hc h.1, hrest]
      rfl

theorem splitGap_colon {s : Text} (hs : s.head? ≠ some ':') :
    splitGap (':' :: s) = (':' :: (splitGap s).1, (splitGap s).2) := by
  rw [splitGap, if_neg fun h => hs h.2]

theorem head?_joined (g : Nat) (gs : List Nat) (s : Text) :
    (joined (g :: gs) ++ s).head? ≠ some ':' := by
  have hhead : ∀ t, (writeGroup g ++ t).head? ≠ some ':' := by
    intro t h
    rw [List.head?_append_of_ne_nil _ (writeGroup_ne_nil g)] at h
    exact colon_notMem_writeGroup g (List.mem_of_mem_head? h)
  cases gs with
  | nil => exact hhead s
  | cons g' gs =>
      rw [joined_cons, List.append_assoc]
      exact hhead _

/-- The groups have no gap among them. -/
theorem splitGap_joined (g : Nat) (gs : List Nat) (s : Text) (hs : s = [] ∨ s = [':', ':']) :
    splitGap (joined (g :: gs) ++ s) = (joined (g :: gs), if s = [] then none else some []) := by
  induction gs generalizing g with
  | nil =>
      rw [show joined [g] = writeGroup g from rfl, splitGap_append (colon_notMem_writeGroup g)]
      rcases hs with rfl | rfl <;> simp [splitGap]
  | cons g' gs ih =>
      rw [joined_cons, List.append_assoc, splitGap_append (colon_notMem_writeGroup g),
        List.cons_append, splitGap_colon (head?_joined g' gs s), ih]

theorem parse_joined {gs : List Nat} (hne : gs ≠ []) (h : ∀ g ∈ gs, g < BASE) :
    parse (joined gs) = if gs.length = 8 then some (ofGroups gs) else none := by
  obtain ⟨g, gs, rfl⟩ := List.exists_cons_of_ne_nil hne
  have hsplit := splitGap_joined g gs [] (Or.inl rfl)
  rw [List.append_nil] at hsplit
  rw [parse, hsplit]
  simp [parseGroups_joined true h]

/-- Groups in front of a gap that goes to the end. -/
theorem parse_joined_gap {gs : List Nat} (hne : gs ≠ []) (h : ∀ g ∈ gs, g < BASE) :
    parse (joined gs ++ [':', ':']) =
      if gs.length ≤ 7 then some (ofGroups (gs ++ List.replicate (8 - gs.length) 0)) else none := by
  obtain ⟨g, gs, rfl⟩ := List.exists_cons_of_ne_nil hne
  have hlow : parseGroups true [] = some [] := rfl
  rw [parse, splitGap_joined g gs _ (Or.inr rfl)]
  simp [parseGroups_joined false h, hlow]

/-! ### Groups of an address -/

theorem lt_of_mem_groupsOf {a g : Nat} (h : g ∈ groupsOf a) : g < BASE :=
  Nat.digits_lt_base (by decide) (List.mem_reverse.mp h)

theorem length_groupsOf_le_iff {a k : Nat} : (groupsOf a).length ≤ k ↔ a < BASE ^ k := by
  rw [groupsOf, List.length_reverse]
  exact Nat.digits_length_le_iff (by decide) a

theorem groupsOf_ne_nil {a : Nat} (h : a ≠ 0) : groupsOf a ≠ [] := by
  rw [groupsOf, ne_eq, List.reverse_eq_nil_iff]
  exact Nat.digits_ne_nil_iff_ne_zero.mpr h

theorem groupsOf_of_ne {a : Nat} (h : a ≠ 0) :
    groupsOf a = groupsOf (a / BASE) ++ [a % BASE] := by
  rw [groupsOf, Nat.digits_def' (by decide) (by omega), List.reverse_cons, groupsOf]

theorem ofGroups_groupsOf_replicate (a k : Nat) :
    ofGroups (groupsOf a ++ List.replicate k 0) = BitVec.ofNat 128 (a * BASE ^ k) := by
  rw [ofGroups, groupsOf, List.reverse_append, List.reverse_reverse, List.reverse_replicate,
    Nat.ofDigits_append, Nat.ofDigits_replicate_zero, Nat.ofDigits_digits, List.length_replicate,
    Nat.zero_add, Nat.mul_comm]

end Ipv6

end OpenVpnAndroid
