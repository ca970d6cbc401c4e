/-
  OpenVpnAndroid/Utf8.lean
  ========================
  **A decoder that replaces what it cannot read**, over lists of bytes.

  `decode` turns every malformed sequence into one U+FFFD, where a sequence is as
  long as a prefix of a character can be (the replacement rule of the Unicode
  standard).  A text is read back as it was written (`decode_encode`).

  A stream that is decoded in chunks is read back exactly if every chunk consists
  of whole characters: a cut inside a character turns it into two replacement
  characters at least (`chunks_whole`).
-/
import Mathlib

namespace OpenVpnAndroid.Utf8

def encode (s : List Char) : List UInt8 := s.flatMap String.utf8EncodeChar

/-- The character at the start of the bytes. -/
def firstChar (bytes : List UInt8) : Option Char := bytes.toByteArray.utf8DecodeChar? 0

def REPLACEMENT : Char := '\ufffd'

/-! ### The decoder -/

/-- How many bytes follow a first byte, and the range of the next one. -/
def following (lead : UInt8) : Option (Nat × UInt8 × UInt8) :=
  if 0xC2 ≤ lead ∧ lead ≤ 0xDF then some (1, 0x80, 0xBF)
  else if lead = 0xE0 then some (2, 0xA0, 0xBF)
  else if lead = 0xED then some (2, 0x80, 0x9F)
  else if 0xE1 ≤ lead ∧ lead ≤ 0xEF then some (2, 0x80, 0xBF)
  else if lead = 0xF0 then some (3, 0x90, 0xBF)
  else if 0xF1 ≤ lead ∧ lead ≤ 0xF3 then some (3, 0x80, 0xBF)
  else if lead = 0xF4 then some (3, 0x80, 0x8F)
  else none

/-- How many of the bytes can follow, `n` of them at most. -/
def accepted : Nat → UInt8 → UInt8 → List UInt8 → Nat
  | 0, _, _, _ => 0
  | _ + 1, _, _, [] => 0
  | n + 1, lower, upper, b :: rest =>
      if lower ≤ b ∧ b ≤ upper then accepted n 0x80 0xBF rest + 1 else 0

/-- The length of a malformed sequence behind its first byte. -/
def malformedRest (lead : UInt8) (rest : List UInt8) : Nat :=
  match following lead with
  | some (n, lower, upper) => accepted n lower upper rest
  | none => 0

/-- The text of the bytes behind the next `n` ones. -/
def decodeAfter : Nat → List UInt8 → List Char
  | _, [] => []
  | n + 1, _ :: rest => decodeAfter n rest
  | 0, b :: rest =>
      match firstChar (b :: rest) with
      | some c => c :: decodeAfter (c.utf8Size - 1) rest
      | none => REPLACEMENT :: decodeAfter (malformedRest b rest) rest

def decode (bytes : List UInt8) : List Char := decodeAfter 0 bytes

@[simp] theorem decode_nil : decode [] = [] := rfl

theorem decode_ne_nil (b : UInt8) (rest : List UInt8) : decode (b :: rest) ≠ [] := by
  rw [decode, decodeAfter]
  split <;> exact List.cons_ne_nil _ _

theorem decodeAfter_eq (n : Nat) (bytes : List UInt8) :
    decodeAfter n bytes = decode (bytes.drop n) := by
  induction bytes generalizing n with
  | nil => cases n <;> rfl
  | cons b rest ih =>
      cases n with
      | zero => rfl
      | succ n => exact ih n

/-! ### The first character -/

theorem firstChar_append (c : Char) (rest : List UInt8) :
    firstChar (String.utf8EncodeChar c ++ rest) = some c := by
  rw [firstChar, List.toByteArray_append]
  exact ByteArray.utf8DecodeChar?_utf8EncodeChar_append

theorem exists_of_firstChar {bytes : List UInt8} {c : Char} (h : firstChar bytes = some c) :
    ∃ rest, bytes = String.utf8EncodeChar c ++ rest := by
  obtain ⟨l, hl⟩ := ByteArray.exists_of_utf8DecodeChar?_eq_some h
  have hlist : l = l.data.toList.toByteArray := by
    apply ByteArray.ext
    rw [List.data_toByteArray, Array.toArray_toList]
  refine ⟨l.data.toList, ?_⟩
  apply List.toByteArray_inj.mp
  rw [hl, List.toByteArray_append, ← hlist]

/-- Only the first byte of a character can start one. -/
theorem not_first_of_split {c : Char} {p s : List UInt8} {b : UInt8}
    (h : String.utf8EncodeChar c = p ++ b :: s) (hp : p ≠ []) : ¬ b.IsUTF8FirstByte := by
  have hlt : p.length < (String.utf8EncodeChar c).length := by rw [h]; simp
  have hget : (String.utf8EncodeChar c)[p.length] = b := by simp [h]
  intro hfirst
  rw [← hget, UInt8.isUTF8FirstByte_getElem_utf8EncodeChar] at hfirst
  exact hp (List.length_eq_zero_iff.mp hfirst)

theorem utf8EncodeChar_cons (c : Char) :
    ∃ b rest, String.utf8EncodeChar c = b :: rest ∧ b.IsUTF8FirstByte := by
  have hpos : 0 < (String.utf8EncodeChar c).length := by
    rw [String.length_utf8EncodeChar]
    exact c.utf8Size_pos
  obtain ⟨b, rest, h⟩ := List.exists_cons_of_length_pos hpos
  refine ⟨b, rest, h, ?_⟩
  have hget : (String.utf8EncodeChar c)[0] = b := by simp [h]
  rw [← hget, UInt8.isUTF8FirstByte_getElem_utf8EncodeChar]

theorem forall_byte {P : UInt8 → Prop} (h : ∀ n : Fin 256, P (UInt8.ofNat n)) (b : UInt8) : P b := by
  have hb := h ⟨b.toNat, b.toNat_lt⟩
  rwa [UInt8.ofNat_toNat] at hb

/-- The bytes of these ranges stand inside a character. -/
theorem not_first_of_range : ∀ b : UInt8, 0x80 ≤ b → b ≤ 0xBF → ¬ b.IsUTF8FirstByte := by
  apply forall_byte
  decide +kernel

theorem following_of_not_first : ∀ b : UInt8, ¬ b.IsUTF8FirstByte → following b = none := by
  apply forall_byte
  decide +kernel

/-- The ranges of `following` lie in the range of the bytes inside a character. -/
theorem following_range : ∀ b, ∀ f ∈ following b, 0x80 ≤ f.2.1 ∧ f.2.2 ≤ 0xBF := by
  apply forall_byte
  decide +kernel

/-! ### Decoding in parts -/

/-- The bytes are empty or start with the first byte of a character. -/
def StartsChar (bytes : List UInt8) : Prop := ∀ b ∈ bytes.head?, b.IsUTF8FirstByte

theorem firstChar_append_none {x y : List UInt8} (hx : firstChar x = none) (hne : x ≠ [])
    (hy : StartsChar y) : firstChar (x ++ y) = none := by
  by_contra hsome
  obtain ⟨c, hc⟩ := Option.ne_none_iff_exists'.mp hsome
  obtain ⟨l, hl⟩ := exists_of_firstChar hc
  rcases List.append_eq_append_iff.mp hl with ⟨a, hchar, hrest⟩ | ⟨a, hx', -⟩
  · cases a with
    | nil =>
        rw [List.append_nil] at hchar
        have hx' := firstChar_append c []
        rw [List.append_nil, hchar, hx] at hx'
        cases hx'
    | cons b a =>
        apply not_first_of_split hchar hne
        exact hy b (by rw [hrest]; rfl)
  · rw [hx', firstChar_append] at hx
    cases hx

theorem accepted_append {n : Nat} {lower upper : UInt8} (hlower : 0x80 ≤ lower)
    (hupper : upper ≤ 0xBF) (x : List UInt8) {y : List UInt8} (hy : StartsChar y) :
    accepted n lower upper (x ++ y) = accepted n lower upper x := by
  induction x generalizing n lower upper with
  | nil =>
      cases n with
      | zero => rfl
      | succ n =>
          cases y with
          | nil => rfl
          | cons b y =>
              apply if_neg
              rintro ⟨hb, hb'⟩
              exact not_first_of_range b (UInt8.le_trans hlower hb) (UInt8.le_trans hb' hupper)
                (hy b rfl)
  | cons b x ih =>
      cases n with
      | zero => rfl
      | succ n =>
          rw [List.cons_append, accepted, accepted, ih UInt8.le_rfl UInt8.le_rfl]

theorem accepted_le (n : Nat) (lower upper : UInt8) (x : List UInt8) :
    accepted n lower upper x ≤ x.length := by
  induction x generalizing n lower upper with
  | nil => cases n <;> exact Nat.le_refl 0
  | cons b x ih =>
      cases n with
      | zero => exact Nat.zero_le _
      | succ n =>
          rw [accepted]
          split
          · exact Nat.succ_le_succ (ih n _ _)
          · exact Nat.zero_le _

theorem malformedRest_append (b : UInt8) (x : List UInt8) {y : List UInt8} (hy : StartsChar y) :
    malformedRest b (x ++ y) = malformedRest b x := by
  rw [malformedRest, malformedRest]
  cases hfollowing : following b with
  | none => rfl
  | some f =>
      obtain ⟨hlower, hupper⟩ := following_range b f hfollowing
      exact accepted_append hlower hupper x hy

theorem malformedRest_le (b : UInt8) (x : List UInt8) : malformedRest b x ≤ x.length := by
  rw [malformedRest]
  split
  · exact accepted_le _ _ _ _
  · exact Nat.zero_le _

theorem decode_char_append (c : Char) (rest : List UInt8) :
    decode (String.utf8EncodeChar c ++ rest) = c :: decode rest := by
  obtain ⟨b, tail, hchar, -⟩ := utf8EncodeChar_cons c
  have hlength : c.utf8Size - 1 = tail.length := by
    rw [← String.length_utf8EncodeChar, hchar, List.length_cons, Nat.add_sub_cancel]
  have hfirst : firstChar (b :: (tail ++ rest)) = some c := by
    rw [← List.cons_append, ← hchar]
    exact firstChar_append c rest
  rw [hchar, List.cons_append, decode, decodeAfter, hfirst]
  dsimp only
  rw [decodeAfter_eq, hlength, List.drop_left]

theorem decode_malformed {b : UInt8} {rest : List UInt8} (h : firstChar (b :: rest) = none) :
    decode (b :: rest) = REPLACEMENT :: decode (rest.drop (malformedRest b rest)) := by
  rw [decode, decodeAfter, h]
  dsimp only
  rw [decodeAfter_eq]

/-- The parts of a stream can be decoded one by one if no part starts inside a
    character. -/
theorem decode_append (x : List UInt8) {y : List UInt8} (hy : StartsChar y) :
    decode (x ++ y) = decode x ++ decode y := by
  -- along the sequences of `x`
  induction hn : x.length using Nat.strongRecOn generalizing x with
  | ind n ih =>
      cases x with
      | nil => rfl
      | cons b rest =>
          cases hfirst : firstChar (b :: rest) with
          | some c =>
              obtain ⟨l, hl⟩ := exists_of_firstChar hfirst
              have hlt : l.length < n := by
                rw [← hn, hl, List.length_append, String.length_utf8EncodeChar]
                exact Nat.lt_add_of_pos_left c.utf8Size_pos
              rw [hl, List.append_assoc, decode_char_append, decode_char_append,
                ih l.length hlt l rfl]
              rfl
          | none =>
              have hnone : firstChar (b :: (rest ++ y)) = none :=
                firstChar_append_none hfirst (List.cons_ne_nil b rest) hy
              have hlt : (rest.drop (malformedRest b rest)).length < n := by
                rw [← hn, List.length_drop, List.length_cons]
                exact Nat.lt_succ_of_le (Nat.sub_le _ _)
              rw [List.cons_append, decode_malformed hnone, decode_malformed hfirst,
                malformedRest_append b rest hy, List.drop_append_of_le_length
                  (malformedRest_le b rest), ih _ hlt _ rfl]
              rfl

/-! ### Texts -/

@[simp] theorem encode_nil : encode [] = [] := rfl

theorem encode_cons (c : Char) (s : List Char) :
    encode (c :: s) = String.utf8EncodeChar c ++ encode s := List.flatMap_cons

theorem encode_append (s t : List Char) : encode (s ++ t) = encode s ++ encode t :=
  List.flatMap_append

theorem startsChar_encode (s : List Char) (rest : List UInt8) (h : StartsChar rest) :
    StartsChar (encode s ++ rest) := by
  cases s with
  | nil => exact h
  | cons c s =>
      obtain ⟨b, tail, hchar, hfirst⟩ := utf8EncodeChar_cons c
      intro b' hb'
      rw [encode_cons, hchar] at hb'
      obtain rfl := Option.some.inj hb'
      exact hfirst

theorem decode_encode (s : List Char) : decode (encode s) = s := by
  induction s with
  | nil => rfl
  | cons c s ih => rw [encode_cons, decode_char_append, ih]

theorem encode_injective : Function.Injective encode :=
  Function.LeftInverse.injective decode_encode

/-! ### Characters that are cut -/

/-- The first part of a character cannot be read. -/
theorem replacement_mem_decode {c : Char} {p s : List UInt8}
    (h : String.utf8EncodeChar c = p ++ s) (hp : p ≠ []) (hs : s ≠ []) :
    REPLACEMENT ∈ decode p := by
  have hnone : firstChar p = none := by
    by_contra hsome
    obtain ⟨d, hd⟩ := Option.ne_none_iff_exists'.mp hsome
    obtain ⟨l, rfl⟩ := exists_of_firstChar hd
    have hcd : c = d := by
      have hchar := firstChar_append c []
      rw [List.append_nil, h, List.append_assoc, firstChar_append] at hchar
      exact (Option.some.inj hchar).symm
    have hlength := congrArg List.length h
    rw [hcd, List.length_append, List.length_append] at hlength
    have hpos : 0 < s.length := List.length_pos_iff.mpr hs
    omega
  cases p with
  | nil => exact absurd rfl hp
  | cons b p =>
      rw [decode_malformed hnone]
      exact List.mem_cons_self

/-- Bytes from the inside of a character are replaced one by one. -/
theorem decode_inside_append (s rest : List UInt8) (hs : ∀ b ∈ s, ¬ b.IsUTF8FirstByte) :
    decode (s ++ rest) = List.replicate s.length REPLACEMENT ++ decode rest := by
  induction s with
  | nil => rfl
  | cons b s ih =>
      have hb : ¬ b.IsUTF8FirstByte := hs b List.mem_cons_self
      have hnone : firstChar (b :: (s ++ rest)) = none := by
        by_contra hsome
        obtain ⟨c, hc⟩ := Option.ne_none_iff_exists'.mp hsome
        obtain ⟨l, hl⟩ := exists_of_firstChar hc
        obtain ⟨b', tail, hchar, hfirst⟩ := utf8EncodeChar_cons c
        rw [hchar] at hl
        obtain ⟨rfl, -⟩ := List.cons.inj hl
        exact hb hfirst
      have hrest : malformedRest b (s ++ rest) = 0 := by
        rw [malformedRest, following_of_not_first b hb]
      rw [List.cons_append, decode_malformed hnone, hrest, List.drop_zero,
        ih fun b' hb' => hs b' (List.mem_cons_of_mem b hb')]
      rfl

/-- The two parts of the bytes of a text. -/
inductive Cut : List Char → List UInt8 → List UInt8 → Prop where
  | between (s t : List Char) : Cut (s ++ t) (encode s) (encode t)
  | inside (s : List Char) (c : Char) (t : List Char) (p q : List UInt8)
      (h : String.utf8EncodeChar c = p ++ q) (hp : p ≠ []) (hq : q ≠ []) :
      Cut (s ++ c :: t) (encode s ++ p) (q ++ encode t)

theorem Cut.cons {s : List Char} {x y : List UInt8} (c : Char) (h : Cut s x y) :
    Cut (c :: s) (String.utf8EncodeChar c ++ x) y := by
  cases h with
  | between s t =>
      rw [← encode_cons]
      exact Cut.between (c :: s) t
  | inside s d t p q hd hp hq =>
      rw [← List.append_assoc, ← encode_cons]
      exact Cut.inside (c :: s) d t p q hd hp hq

theorem cut_of_append {s : List Char} {x y : List UInt8} (h : x ++ y = encode s) : Cut s x y := by
  induction s generalizing x with
  | nil =>
      obtain ⟨rfl, rfl⟩ := List.append_eq_nil_iff.mp h
      exact Cut.between [] []
  | cons c s ih =>
      rw [encode_cons] at h
      rcases List.append_eq_append_iff.mp h with ⟨a, hchar, hy⟩ | ⟨a, hx, hs⟩
      · by_cases hxnil : x = []
        · obtain rfl := hxnil
          rw [List.nil_append, ← encode_cons] at h
          rw [h]
          exact Cut.between [] (c :: s)
        · by_cases hanil : a = []
          · obtain rfl := hanil
            rw [List.append_nil] at hchar
            rw [hy, ← hchar, List.nil_append]
            have hcut := Cut.between [c] s
            rwa [encode_cons, encode_nil, List.append_nil] at hcut
          · rw [hy]
            exact Cut.inside [] c s x a hchar hxnil hanil
      · rw [hx]
        exact (ih hs.symm).cons c

theorem not_first_inside {c : Char} {p q : List UInt8} (h : String.utf8EncodeChar c = p ++ q)
    (hp : p ≠ []) : ∀ b ∈ q, ¬ b.IsUTF8FirstByte := by
  intro b hb
  obtain ⟨q₁, q₂, rfl⟩ := List.append_of_mem hb
  apply not_first_of_split (p := p ++ q₁) (s := q₂)
  · rw [h, List.append_assoc]
  · exact List.append_ne_nil_of_left_ne_nil hp q₁

theorem startsChar_of_inside {c : Char} {p q : List UInt8} (h : String.utf8EncodeChar c = p ++ q)
    (hp : p ≠ []) : StartsChar p := by
  obtain ⟨b, tail, hchar, hfirst⟩ := utf8EncodeChar_cons c
  cases p with
  | nil => exact absurd rfl hp
  | cons b' p =>
      rw [hchar] at h
      obtain ⟨rfl, -⟩ := List.cons.inj h
      intro b' hb'
      obtain rfl := Option.some.inj hb'
      exact hfirst

/-! ### Chunks -/

/-- How many characters of a chunk are replacements. -/
def replacements (bytes : List UInt8) : Nat := (decode bytes).count REPLACEMENT

theorem replacements_inside_append (q rest : List UInt8) (hq : ∀ b ∈ q, ¬ b.IsUTF8FirstByte) :
    replacements (q ++ rest) = q.length + replacements rest := by
  rw [replacements, decode_inside_append q rest hq, List.count_append, List.count_replicate_self,
    replacements]

theorem replacements_encode_append (s : List Char) {rest : List UInt8} (h : StartsChar rest) :
    replacements (encode s ++ rest) = s.count REPLACEMENT + replacements rest := by
  rw [replacements, decode_append _ h, decode_encode, List.count_append, replacements]

theorem replacements_encode (s : List Char) :
    replacements (encode s) = s.count REPLACEMENT := by
  rw [replacements, decode_encode]

theorem replacements_pos {c : Char} {p q : List UInt8}
    (h : String.utf8EncodeChar c = p ++ q) (hp : p ≠ []) (hq : q ≠ []) : 0 < replacements p :=
  List.count_pos_iff.mpr (replacement_mem_decode h hp hq)

/-- A character that is cut is worth two replacements. -/
theorem replacements_cut {c : Char} {p q : List UInt8} (h : String.utf8EncodeChar c = p ++ q)
    (hp : p ≠ []) (hq : q ≠ []) (s t : List Char) :
    (s ++ c :: t).count REPLACEMENT <
      replacements (encode s ++ p) + (q.length + t.count REPLACEMENT) := by
  have hpos : 0 < replacements p := replacements_pos h hp hq
  have hq : 0 < q.length := List.length_pos_iff.mpr hq
  rw [replacements_encode_append s (startsChar_of_inside h hp), List.count_append,
    List.count_cons]
  split <;> omega

/-- Chunks lose no replacement. -/
theorem replacements_chunks_ge (chunks : List (List UInt8)) (q : List UInt8) (s : List Char)
    (hq : ∀ b ∈ q, ¬ b.IsUTF8FirstByte) (h : chunks.flatten = q ++ encode s) :
    q.length + s.count REPLACEMENT ≤ (chunks.map replacements).sum := by
  induction chunks generalizing q s with
  | nil =>
      obtain ⟨rfl, hs⟩ := List.append_eq_nil_iff.mp h.symm
      obtain rfl : s = [] := encode_injective hs
      exact Nat.le_refl 0
  | cons x chunks ih =>
      rw [List.flatten_cons] at h
      rw [List.map_cons, List.sum_cons]
      rcases List.append_eq_append_iff.mp h with ⟨a, rfl, hrest⟩ | ⟨a, rfl, hs⟩
      · have hx : replacements x = x.length := by
          have hinside := replacements_inside_append x [] fun b hb => hq b (List.mem_append_left a hb)
          rwa [List.append_nil] at hinside
        have hge := ih a s (fun b hb => hq b (List.mem_append_right x hb)) hrest
        rw [hx, List.length_append, Nat.add_assoc]
        exact Nat.add_le_add_left hge _
      · rw [replacements_inside_append q a hq, Nat.add_assoc]
        apply Nat.add_le_add_left
        have hcut : Cut s a chunks.flatten := cut_of_append hs.symm
        generalize hrest : chunks.flatten = rest at hcut
        cases hcut with
        | between s t =>
            have hge := ih [] t (fun _ hb => nomatch hb) hrest
            rw [List.length_nil, Nat.zero_add] at hge
            rw [replacements_encode, List.count_append]
            exact Nat.add_le_add_left hge _
        | inside s c t p q hchar hp hq =>
            have hge := ih q t (not_first_inside hchar hp) hrest
            apply Nat.le_trans (Nat.le_of_lt (replacements_cut hchar hp hq s t))
            exact Nat.add_le_add_left hge _

/-- A stream whose chunks have no more replacements than its text is cut between
    characters only. -/
theorem chunks_whole (chunks : List (List UInt8)) (s : List Char)
    (h : chunks.flatten = encode s)
    (hcount : (chunks.map replacements).sum ≤ s.count REPLACEMENT) :
    ∃ parts : List (List Char), chunks = parts.map encode := by
  induction chunks generalizing s with
  | nil => exact ⟨[], rfl⟩
  | cons x chunks ih =>
      rw [List.flatten_cons] at h
      rw [List.map_cons, List.sum_cons] at hcount
      have hcut : Cut s x chunks.flatten := cut_of_append h
      generalize hrest : chunks.flatten = rest at hcut
      cases hcut with
      | between s t =>
          rw [replacements_encode, List.count_append] at hcount
          obtain ⟨parts, rfl⟩ := ih t hrest (Nat.le_of_add_le_add_left hcount)
          exact ⟨s :: parts, rfl⟩
      | inside s c t p q hchar hp hq =>
          have hge := replacements_chunks_ge chunks q t (not_first_inside hchar hp) hrest
          have hlt := replacements_cut hchar hp hq s t
          have hgt := Nat.lt_of_lt_of_le hlt (Nat.add_le_add_left hge _)
          exact absurd hcount (Nat.not_le_of_gt hgt)

/-- Whole characters are read back. -/
theorem decode_parts (parts : List (List Char)) :
    (parts.map encode).flatMap decode = parts.flatten := by
  induction parts with
  | nil => rfl
  | cons s parts ih =>
      rw [List.map_cons, List.flatMap_cons, decode_encode, ih]
      rfl

theorem encode_flatten (parts : List (List Char)) :
    encode parts.flatten = (parts.map encode).flatten := by
  induction parts with
  | nil => rfl
  | cons s parts ih => rw [List.flatten_cons, encode_append, ih, List.map_cons, List.flatten_cons]

theorem sum_replacements (chunks : List (List UInt8)) :
    (chunks.map replacements).sum = (chunks.flatMap decode).count REPLACEMENT := by
  induction chunks with
  | nil => rfl
  | cons x chunks ih =>
      rw [List.map_cons, List.sum_cons, ih, List.flatMap_cons, List.count_append, replacements]

/-- The last character is read back if it is a whole one, such as a line break. -/
theorem decode_append_char (x : List UInt8) (c : Char) :
    decode (x ++ String.utf8EncodeChar c) = decode x ++ [c] := by
  have hchar : encode [c] = String.utf8EncodeChar c := List.append_nil _
  rw [← hchar, decode_append x, decode_encode]
  have hstarts := startsChar_encode [c] [] fun _ hb => nomatch hb
  rwa [List.append_nil] at hstarts

end OpenVpnAndroid.Utf8
