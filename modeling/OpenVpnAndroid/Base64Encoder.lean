/-
  OpenVpnAndroid/Base64Encoder.lean
  =================================
  **`Base64Encoder` and `Base64`.**

  The bytes of an array are encoded as the library says (`encode_eq`), whatever part
  of the array is asked for.  `decode` skips blanks before every character but not
  inside the last four (`decode_spread`), so it reads back every text that
  `encode` wrote (`decode_encode`), also with blanks added in front of the last
  group or behind it.  An empty text is not one of them (`decode_blank`).
-/
import OpenVpnAndroid.JavaText
import OpenVpnAndroid.Commands
import OpenVpnAndroid.Radix64

namespace OpenVpnAndroid

namespace Base64Encoder

open Radix64
open Commands (Yields ok_bind ok_of_bind)

def encodingTable : List UInt8 :=
  ("ABCDEFGHIJKLMNOPQRSTUVWXYZabcdefghijklmnopqrstuvwxyz0123456789+/" : Text).map
    fun c => UInt8.ofNat c.toNat

def padding : UInt8 := 0x3d

/-- `initialiseDecodingTable`: the other entries of the new array are zero. -/
def decodingTable : List Nat :=
  (List.range encodingTable.length).foldl
    (fun table i => table.set encodingTable[i]!.toNat i) (List.replicate 128 0)

/-! ### Encoding -/

/-- `encodingTable[i]` for an index that was masked. -/
def tableEntry (i : Nat) : UInt8 := encodingTable[i]!

/-- The loop over the whole groups, from `data[i]` on. -/
def encodeGroups (data : List UInt8) : Nat → Nat → Java (List UInt8)
  | 0, _ => return []
  | rounds + 1, i => do
      let a1 := (← vectorGet data i).toNat
      let a2 := (← vectorGet data (i + 1)).toNat
      let a3 := (← vectorGet data (i + 2)).toNat
      let rest ← encodeGroups data rounds (i + 3)
      return tableEntry ((a1 >>> 2) &&& 0x3f) :: tableEntry (((a1 <<< 4) ||| (a2 >>> 4)) &&& 0x3f) ::
        tableEntry (((a2 <<< 2) ||| (a3 >>> 6)) &&& 0x3f) :: tableEntry (a3 &&& 0x3f) :: rest

/-- The tail end, `modulus` bytes from `data[i]` on. -/
def encodeTail (data : List UInt8) (i modulus : Nat) : Java (List UInt8) :=
  match modulus with
  | 1 => do
      let d1 := (← vectorGet data i).toNat
      return [tableEntry ((d1 >>> 2) &&& 0x3f), tableEntry ((d1 <<< 4) &&& 0x3f), padding, padding]
  | 2 => do
      let d1 := (← vectorGet data i).toNat
      let d2 := (← vectorGet data (i + 1)).toNat
      return [tableEntry ((d1 >>> 2) &&& 0x3f),
        tableEntry (((d1 <<< 4) ||| (d2 >>> 4)) &&& 0x3f), tableEntry ((d2 <<< 2) &&& 0x3f), padding]
  | _ => return []

/-- `encode(data, off, length, out)`: what is written to `out`, and the number that is
    returned. -/
def encode (data : List UInt8) (off length : Nat) : Java (List UInt8 × Nat) := do
  let modulus := length % 3
  let dataLength := length - modulus
  let groups ← encodeGroups data (dataLength / 3) off
  let tail ← encodeTail data (off + dataLength) modulus
  return (groups ++ tail, dataLength / 3 * 4 + (if modulus = 0 then 0 else 4))

/-! ### Decoding -/

def ignore (c : Char) : Bool := c == '\n' || c == '\r' || c == '\t' || c == ' '

/-- `decodingTable[c]` -/
def decodeChar (c : Char) : Java Nat := vectorGet decodingTable c.toNat

/-- `nextI`, on the characters from `i` up to `end`: `finish` is four before the end. -/
def nextI : Text → Text
  | [] => []
  | c :: rest => if 4 < (c :: rest).length && ignore c then nextI rest else c :: rest

/-- `decodingTable[data.charAt(i++)]` -/
def readDigit : Text → Java (Nat × Text)
  | [] => throwJava .stringIndexOutOfBounds
  | c :: rest => return (← decodeChar c, rest)

/-- `out.write(x)` keeps the low byte. -/
def byte (x : Nat) : UInt8 := UInt8.ofNat x

/-- The body of the loop. -/
def decodeGroup (rest : Text) : Java (List UInt8 × Text) := do
  let (b1, rest) ← readDigit rest
  let (b2, rest) ← readDigit (nextI rest)
  let (b3, rest) ← readDigit (nextI rest)
  let (b4, rest) ← readDigit (nextI rest)
  return ([byte ((b1 <<< 2) ||| (b2 >>> 4)), byte ((b2 <<< 4) ||| (b3 >>> 2)),
    byte ((b3 <<< 6) ||| b4)], nextI rest)

/-- `while (i < finish)`, with a bound on the rounds. -/
def decodeGroups : Nat → Text → Java (List UInt8)
  | 0, _ => .error .loops
  | rounds + 1, rest =>
      if 4 < rest.length then do
        let (out, rest) ← decodeGroup rest
        return out ++ (← decodeGroups rounds rest)
      else return []

def decodeLastBlock (c1 c2 c3 c4 : Char) : Java (List UInt8) :=
  if c3.toNat = padding.toNat then do
    let b1 ← decodeChar c1
    let b2 ← decodeChar c2
    return [byte ((b1 <<< 2) ||| (b2 >>> 4))]
  else if c4.toNat = padding.toNat then do
    let b1 ← decodeChar c1
    let b2 ← decodeChar c2
    let b3 ← decodeChar c3
    return [byte ((b1 <<< 2) ||| (b2 >>> 4)), byte ((b2 <<< 4) ||| (b3 >>> 2))]
  else do
    let b1 ← decodeChar c1
    let b2 ← decodeChar c2
    let b3 ← decodeChar c3
    let b4 ← decodeChar c4
    return [byte ((b1 <<< 2) ||| (b2 >>> 4)), byte ((b2 <<< 4) ||| (b3 >>> 2)),
      byte ((b3 <<< 6) ||| b4)]

/-- Without the blanks at the end: the text up to `end`. -/
def upToEnd (data : Text) : Text := (data.reverse.dropWhile ignore).reverse

/-- `data.charAt(end - 4)` to `data.charAt(end - 1)` -/
def lastBlock (data : Text) : Java (List UInt8) :=
  match data.drop (data.length - 4) with
  | [c1, c2, c3, c4] => decodeLastBlock c1 c2 c3 c4
  | _ => throwJava .stringIndexOutOfBounds

/-- `decode(data, out)`: what is written to `out`. -/
def decode (data : Text) : Java (List UInt8) := do
  let text := upToEnd data
  let groups ← decodeGroups (text.length + 1) (nextI text)
  return groups ++ (← lastBlock text)

/-! ### The alphabet -/

theorem decodingTable_tableEntry :
    ∀ d : Fin 64, decodingTable[(tableEntry d).toNat]? = some (d : Nat) := by
  decide +kernel

theorem tableEntry_injective : Function.Injective fun d : Fin 64 => tableEntry d := by
  intro d d' h
  have hd := decodingTable_tableEntry d
  rw [show tableEntry d = tableEntry d' from h, decodingTable_tableEntry d'] at hd
  exact Fin.ext (Option.some.inj hd).symm

theorem tableEntry_ne_padding : ∀ d : Fin 64, tableEntry d ≠ padding := by decide

def alphabet : Alphabet UInt8 where
  symbol d := tableEntry d
  pad := padding
  symbol_injective := tableEntry_injective
  symbol_ne_pad := tableEntry_ne_padding

theorem toNat_toChar (b : UInt8) : b.toChar.toNat = b.toNat := rfl

/-- What `encode` writes, as text. -/
def encoded (bytes : List UInt8) : Text := (Radix64.encode alphabet bytes).map UInt8.toChar

@[simp] theorem length_encoded (bytes : List UInt8) :
    (encoded bytes).length = (bytes.length + 2) / 3 * 4 := by
  rw [encoded, List.length_map, length_encode]

def digitChar (d : Fin 64) : Char := (tableEntry d).toChar

theorem decodeChar_digitChar (d : Fin 64) : decodeChar (digitChar d) = .ok (d : Nat) := by
  rw [decodeChar, digitChar, toNat_toChar]
  exact vectorGet_of_getElem? (decodingTable_tableEntry d)

theorem not_ignore_digitChar : ∀ d : Fin 64, ignore (digitChar d) = false := by
  decide +kernel

theorem digitChar_ne_padding (d : Fin 64) : (digitChar d).toNat ≠ padding.toNat := by
  rw [digitChar, toNat_toChar]
  exact fun h => tableEntry_ne_padding d (UInt8.toNat.inj h)

/-- Every character of an encoded text is a digit or the padding. -/
theorem mem_encoded {bytes : List UInt8} {c : Char} (hc : c ∈ encoded bytes) :
    (∃ d, c = digitChar d) ∨ c = '=' := by
  obtain ⟨b, hb, rfl⟩ := List.mem_map.mp hc
  rcases mem_encode alphabet hb with ⟨d, rfl⟩ | rfl
  · exact .inl ⟨d, rfl⟩
  · exact .inr rfl

theorem not_ignore_encoded {bytes : List UInt8} {c : Char} (hc : c ∈ encoded bytes) :
    ignore c = false := by
  rcases mem_encoded hc with ⟨d, rfl⟩ | rfl
  · exact not_ignore_digitChar d
  · rfl

/-! ### What is encoded -/

theorem encodeGroups_eq (data : List UInt8) (rounds i : Nat) (h : i + 3 * rounds ≤ data.length) :
    encodeGroups data rounds i =
      .ok (Radix64.encode alphabet ((data.drop i).take (3 * rounds))) := by
  induction rounds generalizing i with
  | zero => rfl
  | succ rounds ih =>
      have h0 : i < data.length := by omega
      have h1 : i + 1 < data.length := by omega
      have h2 : i + 2 < data.length := by omega
      have htake : (data.drop i).take (3 * (rounds + 1)) =
          data[i] :: data[i + 1] :: data[i + 2] :: (data.drop (i + 3)).take (3 * rounds) := by
        rw [List.drop_eq_getElem_cons h0, List.drop_eq_getElem_cons h1,
          List.drop_eq_getElem_cons h2]
        rfl
      obtain ⟨d3, d2, d1, d0⟩ := digitAt_group data[i] data[i + 1] data[i + 2]
      rw [encodeGroups, vectorGet_of_getElem? (List.getElem?_eq_getElem h0),
        vectorGet_of_getElem? (List.getElem?_eq_getElem h1),
        vectorGet_of_getElem? (List.getElem?_eq_getElem h2), ih (i + 3) (by omega), htake,
        Radix64.encode]
      simp only [alphabet, d3, d2, d1, d0]
      rfl

theorem encodeTail_eq {data : List UInt8} {i modulus : Nat} (hmod : modulus < 3)
    (h : i + modulus ≤ data.length) :
    encodeTail data i modulus =
      .ok (Radix64.encode alphabet ((data.drop i).take modulus)) := by
  rcases modulus with _ | _ | _ | modulus
  · rfl
  · have h0 : i < data.length := by omega
    have htake : (data.drop i).take 1 = [data[i]] := by
      rw [List.drop_eq_getElem_cons h0]
      rfl
    obtain ⟨d3, d2, -, -⟩ := digitAt_group data[i] 0 0
    rw [encodeTail, vectorGet_of_getElem? (List.getElem?_eq_getElem h0), htake, Radix64.encode]
    rw [show UInt8.toNat 0 >>> 4 = 0 from rfl, Nat.or_zero] at d2
    simp only [alphabet, d3, d2]
    rfl
  · have h0 : i < data.length := by omega
    have h1 : i + 1 < data.length := by omega
    have htake : (data.drop i).take 2 = [data[i], data[i + 1]] := by
      rw [List.drop_eq_getElem_cons h0, List.drop_eq_getElem_cons h1]
      rfl
    obtain ⟨d3, d2, d1, -⟩ := digitAt_group data[i] data[i + 1] 0
    rw [encodeTail, vectorGet_of_getElem? (List.getElem?_eq_getElem h0),
      vectorGet_of_getElem? (List.getElem?_eq_getElem h1), htake, Radix64.encode]
    rw [show UInt8.toNat 0 >>> 6 = 0 from rfl, Nat.or_zero] at d1
    simp only [alphabet, d3, d2, d1]
    rfl
  · omega

/-- The part of the array that is asked for is encoded, and the number that is returned
    counts the bytes. -/
theorem encode_eq {data : List UInt8} {off length : Nat} (h : off + length ≤ data.length) :
    encode data off length =
      .ok (Radix64.encode alphabet ((data.drop off).take length), (length + 2) / 3 * 4) := by
  have hlength : length - length % 3 = 3 * (length / 3) := by omega
  have hdiv : 3 * (length / 3) / 3 = length / 3 := by omega
  have hsplit : (data.drop off).take length =
      (data.drop off).take (3 * (length / 3)) ++
        (data.drop (off + 3 * (length / 3))).take (length % 3) := by
    rw [← List.drop_drop, ← List.take_add]
    congr 1
    omega
  have hthree : 3 ∣ ((data.drop off).take (3 * (length / 3))).length := by
    rw [List.length_take, List.length_drop, Nat.min_eq_left (by omega)]
    exact ⟨_, rfl⟩
  have hcount : length / 3 * 4 + (if length % 3 = 0 then 0 else 4) = (length + 2) / 3 * 4 := by
    split <;> omega
  rw [encode, hlength, hdiv, encodeGroups_eq data _ off (by omega),
    encodeTail_eq (Nat.mod_lt _ (by decide)) (by omega), hsplit, encode_append _ hthree, hcount]
  rfl

/-! ### Blanks -/

theorem nextI_of_le {rest : Text} (h : rest.length ≤ 4) : nextI rest = rest := by
  cases rest with
  | nil => rfl
  | cons c rest => rw [nextI, decide_eq_false (by omega)]; rfl

theorem nextI_of_not_ignore {c : Char} (hc : ignore c = false) (rest : Text) :
    nextI (c :: rest) = c :: rest := by
  rw [nextI, hc, Bool.and_false]
  rfl

theorem nextI_blanks {blanks : Text} (hblanks : ∀ c ∈ blanks, ignore c = true) {rest : Text}
    (h : 4 ≤ rest.length) : nextI (blanks ++ rest) = nextI rest := by
  induction blanks with
  | nil => rfl
  | cons c blanks ih =>
      have hlen : 4 < (c :: (blanks ++ rest)).length := by
        rw [List.length_cons, List.length_append]
        omega
      rw [List.cons_append, nextI, hblanks c List.mem_cons_self, decide_eq_true hlen]
      exact ih fun x hx => hblanks x (List.mem_cons_of_mem c hx)

theorem nextI_length_le (rest : Text) : (nextI rest).length ≤ rest.length := by
  induction rest with
  | nil => exact Nat.le_refl _
  | cons c rest ih =>
      rw [nextI]
      split
      · exact Nat.le_succ_of_le ih
      · exact Nat.le_refl _

/-- The characters that are not skipped. -/
def significant (s : Text) : Text := s.filter fun c => !ignore c

/-- The next digit is read from behind the blanks before it. -/
theorem readDigit_nextI {pre last tail : Text} {d : Fin 64}
    (h : significant pre = digitChar d :: tail) (hlast : 4 ≤ last.length) :
    ∃ pre', significant pre' = tail ∧
      readDigit (nextI (pre ++ last)) = .ok ((d : Nat), pre' ++ last) := by
  obtain ⟨blanks, pre', rfl, hblanks, -, htail⟩ := List.filter_eq_cons_iff.mp h
  refine ⟨pre', htail, ?_⟩
  have hlen : 4 ≤ (digitChar d :: (pre' ++ last)).length := by
    rw [List.length_cons, List.length_append]
    omega
  rw [List.append_assoc, List.cons_append, nextI_blanks (by simpa using hblanks) hlen,
    nextI_of_not_ignore (not_ignore_digitChar d), readDigit, decodeChar_digitChar]
  rfl

/-! ### What is decoded -/

/-- A whole group, with blanks in front of its characters. -/
theorem decodeGroup_eq {pre last tail : Text} {a b c : UInt8}
    (h : significant pre = digitChar (digitAt 3 (group a b c)) ::
      digitChar (digitAt 2 (group a b c)) :: digitChar (digitAt 1 (group a b c)) ::
      digitChar (digitAt 0 (group a b c)) :: tail) (hlast : 4 ≤ last.length) :
    ∃ pre', significant pre' = tail ∧
      decodeGroup (nextI (pre ++ last)) = .ok ([a, b, c], nextI (pre' ++ last)) := by
  obtain ⟨pre₁, h₁, hread₁⟩ := readDigit_nextI h hlast
  obtain ⟨pre₂, h₂, hread₂⟩ := readDigit_nextI h₁ hlast
  obtain ⟨pre₃, h₃, hread₃⟩ := readDigit_nextI h₂ hlast
  obtain ⟨pre₄, h₄, hread₄⟩ := readDigit_nextI h₃ hlast
  refine ⟨pre₄, h₄, ?_⟩
  obtain ⟨ha, hb, hc⟩ := byteAt_join (digitAt 3 (group a b c))
    (digitAt 2 (group a b c)).isLt (digitAt 1 (group a b c)).isLt (digitAt 0 (group a b c)).isLt
  rw [join_digits (group_lt a b c)] at ha hb hc
  rw [byteAt_two_group] at ha
  rw [byteAt_one_group] at hb
  rw [byteAt_zero_group] at hc
  simp only [decodeGroup, hread₁, ok_bind, hread₂, hread₃, hread₄, byte, ← ha, ← hb, ← hc]
  rfl

theorem digitChars_encoded (a b c : UInt8) (bytes : List UInt8) :
    encoded (a :: b :: c :: bytes) = digitChar (digitAt 3 (group a b c)) ::
      digitChar (digitAt 2 (group a b c)) :: digitChar (digitAt 1 (group a b c)) ::
      digitChar (digitAt 0 (group a b c)) :: encoded bytes := by
  rw [encoded, Radix64.encode]
  rfl

/-- The loop reads the whole groups before the last four characters. -/
theorem decodeGroups_eq {bytes : List UInt8} (hthree : 3 ∣ bytes.length) {pre last : Text}
    (h : significant pre = encoded bytes) (hlast : last.length = 4) {rounds : Nat}
    (hrounds : bytes.length < rounds) :
    decodeGroups rounds (nextI (pre ++ last)) = .ok bytes := by
  induction bytes using groups_induction generalizing pre rounds with
  | nil =>
      obtain ⟨rounds, rfl⟩ := Nat.exists_eq_succ_of_ne_zero (Nat.ne_of_gt hrounds)
      have hblanks : ∀ c ∈ pre, ignore c = true := by
        intro c hc
        have hnil := List.filter_eq_nil_iff.mp h c hc
        simpa using hnil
      rw [nextI_blanks hblanks hlast.ge, nextI_of_le hlast.le, decodeGroups,
        if_neg (by omega)]
      rfl
  | one a => exact absurd hthree (by simp)
  | two a b => exact absurd hthree (by simp [Nat.dvd_iff_mod_eq_zero])
  | three a b c bytes ih =>
      obtain ⟨rounds, rfl⟩ := Nat.exists_eq_succ_of_ne_zero (Nat.ne_zero_of_lt hrounds)
      rw [digitChars_encoded] at h
      obtain ⟨pre', h', hgroup⟩ := decodeGroup_eq h hlast.ge
      have hlong : 4 < (nextI (pre ++ last)).length := by
        obtain ⟨blanks, pre₀, rfl, hblanks, -, -⟩ := List.filter_eq_cons_iff.mp h
        rw [List.append_assoc, List.cons_append, nextI_blanks (by simpa using hblanks),
          nextI_of_not_ignore (not_ignore_digitChar _)]
        · rw [List.length_cons, List.length_append]
          omega
        · rw [List.length_cons, List.length_append]
          omega
      rw [List.length_cons, List.length_cons, List.length_cons] at hthree hrounds
      rw [decodeGroups, if_pos hlong, hgroup, ok_bind]
      dsimp only
      rw [ih (by omega) h' (by omega : bytes.length < rounds)]
      rfl

/-- The last group, with or without padding. -/
theorem lastBlock_eq (pre : Text) {last : List UInt8} (hne : last ≠ []) (hle : last.length ≤ 3) :
    lastBlock (pre ++ encoded last) = .ok last := by
  have hlen : (encoded last).length = 4 := by
    have hpos := List.length_pos_of_ne_nil hne
    rw [length_encoded]
    omega
  have hdrop : (pre ++ encoded last).drop ((pre ++ encoded last).length - 4) = encoded last := by
    rw [List.length_append, hlen, Nat.add_sub_cancel, List.drop_left]
  rw [lastBlock, hdrop]
  rcases last with _ | ⟨a, _ | ⟨b, _ | ⟨c, last⟩⟩⟩
  · exact absurd rfl hne
  · obtain ⟨ha, -, -⟩ := byteAt_join (digitAt 3 (group a 0 0))
      (digitAt 2 (group a 0 0)).isLt (digitAt 1 (group a 0 0)).isLt (digitAt 0 (group a 0 0)).isLt
    rw [join_digits (group_lt a 0 0), byteAt_two_group] at ha
    change decodeLastBlock (digitChar (digitAt 3 (group a 0 0)))
      (digitChar (digitAt 2 (group a 0 0))) '=' '=' = _
    rw [decodeLastBlock, if_pos (by decide), decodeChar_digitChar, ok_bind, decodeChar_digitChar,
      ok_bind, byte, ← ha]
    rfl
  · obtain ⟨ha, hb, -⟩ := byteAt_join (digitAt 3 (group a b 0))
      (digitAt 2 (group a b 0)).isLt (digitAt 1 (group a b 0)).isLt (digitAt 0 (group a b 0)).isLt
    rw [join_digits (group_lt a b 0)] at ha hb
    rw [byteAt_two_group] at ha
    rw [byteAt_one_group] at hb
    change decodeLastBlock (digitChar (digitAt 3 (group a b 0)))
      (digitChar (digitAt 2 (group a b 0))) (digitChar (digitAt 1 (group a b 0))) '=' = _
    rw [decodeLastBlock, if_neg (digitChar_ne_padding _), if_pos (by decide),
      decodeChar_digitChar, ok_bind, decodeChar_digitChar, ok_bind, decodeChar_digitChar, ok_bind,
      byte, byte, ← ha, ← hb]
    rfl
  · obtain rfl : last = [] := by
      rw [List.length_cons, List.length_cons, List.length_cons] at hle
      exact List.eq_nil_of_length_eq_zero (by omega)
    obtain ⟨ha, hb, hc⟩ := byteAt_join (digitAt 3 (group a b c))
      (digitAt 2 (group a b c)).isLt (digitAt 1 (group a b c)).isLt (digitAt 0 (group a b c)).isLt
    rw [join_digits (group_lt a b c)] at ha hb hc
    rw [byteAt_two_group] at ha
    rw [byteAt_one_group] at hb
    rw [byteAt_zero_group] at hc
    change decodeLastBlock (digitChar (digitAt 3 (group a b c)))
      (digitChar (digitAt 2 (group a b c))) (digitChar (digitAt 1 (group a b c)))
      (digitChar (digitAt 0 (group a b c))) = _
    rw [decodeLastBlock, if_neg (digitChar_ne_padding _), if_neg (digitChar_ne_padding _),
      decodeChar_digitChar, ok_bind, decodeChar_digitChar, ok_bind, decodeChar_digitChar, ok_bind,
      decodeChar_digitChar, ok_bind, byte, byte, byte, ← ha, ← hb, ← hc]
    rfl

theorem upToEnd_append {s blanks : Text} {c : Char} (hc : ignore c = false)
    (hblanks : ∀ x ∈ blanks, ignore x = true) : upToEnd (s ++ [c] ++ blanks) = s ++ [c] := by
  rw [upToEnd, List.reverse_append, List.dropWhile_append_of_pos (by simpa using hblanks),
    List.reverse_append, List.reverse_singleton, List.singleton_append,
    List.dropWhile_cons_of_neg (by simp [hc]), List.reverse_cons, List.reverse_reverse]

/-- Blanks may be added anywhere but inside the last group. -/
theorem decode_spread {bytes : List UInt8} {pre last blanks : Text} (hne : bytes ≠ [])
    (hpre : significant pre ++ last = encoded bytes) (hlast : last.length = 4)
    (hblanks : ∀ c ∈ blanks, ignore c = true) : decode (pre ++ last ++ blanks) = .ok bytes := by
  obtain ⟨xs, ys, rfl, hthree, hys, hle⟩ := exists_groups hne
  have hsplit : encoded (xs ++ ys) = encoded xs ++ encoded ys := by
    rw [encoded, encode_append _ hthree, List.map_append]
    rfl
  have hlen : (encoded ys).length = 4 := by
    have hpos := List.length_pos_of_ne_nil hys
    rw [length_encoded]
    omega
  rw [hsplit] at hpre
  obtain ⟨hxs, rfl⟩ := List.append_inj' hpre (by rw [hlast, hlen])
  have hend : upToEnd (pre ++ encoded ys ++ blanks) = pre ++ encoded ys := by
    have hyne : encoded ys ≠ [] := List.ne_nil_of_length_pos (by omega)
    have hc := not_ignore_encoded (List.getLast_mem hyne)
    rw [← List.dropLast_append_getLast hyne, ← List.append_assoc]
    exact upToEnd_append hc hblanks
  have hrounds : xs.length < (pre ++ encoded ys).length + 1 := by
    have hfilter : (significant pre).length ≤ pre.length := List.length_filter_le _ _
    rw [hxs, length_encoded] at hfilter
    rw [List.length_append]
    omega
  rw [decode, hend, decodeGroups_eq hthree hxs hlen hrounds, ok_bind, lastBlock_eq pre hys hle]
  rfl

/-- A text without any character that counts is refused. -/
theorem decode_blank {data : Text} (h : ∀ c ∈ data, ignore c = true) :
    decode data = throwJava .stringIndexOutOfBounds := by
  have hend : upToEnd data = [] := by
    rw [upToEnd, List.dropWhile_eq_nil_iff.mpr (by simpa using h)]
    rfl
  rw [decode, hend]
  rfl

theorem lastBlock_ne_nil {data : Text} : lastBlock data ≠ .ok [] := by
  intro h
  rw [lastBlock] at h
  split at h
  · unfold decodeLastBlock at h
    split at h
    · obtain ⟨b1, -, h⟩ := ok_of_bind h
      obtain ⟨b2, -, h⟩ := ok_of_bind h
      cases h
    · split at h
      · obtain ⟨b1, -, h⟩ := ok_of_bind h
        obtain ⟨b2, -, h⟩ := ok_of_bind h
        obtain ⟨b3, -, h⟩ := ok_of_bind h
        cases h
      · obtain ⟨b1, -, h⟩ := ok_of_bind h
        obtain ⟨b2, -, h⟩ := ok_of_bind h
        obtain ⟨b3, -, h⟩ := ok_of_bind h
        obtain ⟨b4, -, h⟩ := ok_of_bind h
        cases h
  · cases h

/-- Something is decoded, whatever is accepted. -/
theorem decode_ne_nil {data : Text} {bytes : List UInt8} (h : decode data = .ok bytes) :
    bytes ≠ [] := by
  rintro rfl
  obtain ⟨groups, -, h⟩ := ok_of_bind h
  obtain ⟨last, hlast, h⟩ := ok_of_bind h
  have hnil : groups ++ last = [] := Except.ok.inj h
  obtain ⟨-, rfl⟩ := List.append_eq_nil_iff.mp hnil
  exact lastBlock_ne_nil hlast

/-! ### The loop ends -/

theorem yields_decodeChar (c : Char) : Yields (· ≠ .loops) (fun _ => True) (decodeChar c) := by
  unfold decodeChar vectorGet
  split
  · trivial
  · exact fun h => Stop.noConfusion h

theorem yields_readDigit (rest : Text) :
    Yields (· ≠ .loops) (fun r => r.2.length < rest.length) (readDigit rest) := by
  cases rest with
  | nil => exact fun h => Stop.noConfusion h
  | cons c rest => exact (yields_decodeChar c).bind fun b _ => Nat.lt_succ_self _

/-- A round takes characters away. -/
theorem yields_decodeGroup (rest : Text) :
    Yields (· ≠ .loops) (fun r => r.2.length < rest.length) (decodeGroup rest) := by
  refine (yields_readDigit rest).bind fun r₁ h₁ => ?_
  refine (yields_readDigit (nextI r₁.2)).bind fun r₂ h₂ => ?_
  refine (yields_readDigit (nextI r₂.2)).bind fun r₃ h₃ => ?_
  refine (yields_readDigit (nextI r₃.2)).bind fun r₄ h₄ => ?_
  have hle₁ := nextI_length_le r₁.2
  have hle₂ := nextI_length_le r₂.2
  have hle₃ := nextI_length_le r₃.2
  have hle₄ := nextI_length_le r₄.2
  change (nextI r₄.2).length < rest.length
  omega

theorem yields_decodeGroups {rounds : Nat} {rest : Text} (h : rest.length < rounds) :
    Yields (· ≠ .loops) (fun _ => True) (decodeGroups rounds rest) := by
  induction rounds generalizing rest with
  | zero => exact absurd h (Nat.not_lt_zero _)
  | succ rounds ih =>
      rw [decodeGroups]
      split
      · refine (yields_decodeGroup rest).bind fun r hr => ?_
        exact (ih (by omega)).bind fun _ _ => trivial
      · trivial

theorem yields_lastBlock (data : Text) :
    Yields (· ≠ .loops) (fun _ => True) (lastBlock data) := by
  unfold lastBlock
  split
  · next c1 c2 c3 c4 _ =>
      unfold decodeLastBlock
      split_ifs
      · exact (yields_decodeChar c1).bind fun _ _ => (yields_decodeChar c2).bind fun _ _ => trivial
      · refine (yields_decodeChar c1).bind fun _ _ => (yields_decodeChar c2).bind fun _ _ => ?_
        exact (yields_decodeChar c3).bind fun _ _ => trivial
      · refine (yields_decodeChar c1).bind fun _ _ => (yields_decodeChar c2).bind fun _ _ => ?_
        exact (yields_decodeChar c3).bind fun _ _ => (yields_decodeChar c4).bind fun _ _ => trivial
  · exact fun h => Stop.noConfusion h

/-- `decode` comes to an end for every text. -/
theorem yields_decode (data : Text) : Yields (· ≠ .loops) (fun _ => True) (decode data) := by
  have hle := nextI_length_le (upToEnd data)
  refine (yields_decodeGroups (Nat.lt_succ_of_le hle)).bind fun _ _ => ?_
  exact (yields_lastBlock _).bind fun _ _ => trivial

end Base64Encoder

namespace SpongycastleBase64

/-- `Base64.encode(data)` -/
def encode (data : List UInt8) : Java (List UInt8) :=
  Prod.fst <$> Base64Encoder.encode data 0 data.length

/-- `Base64.decode(data)` -/
def decode (data : Text) : Java (List UInt8) := Base64Encoder.decode data

open Base64Encoder

theorem encode_eq (data : List UInt8) : encode data = .ok (Radix64.encode alphabet data) := by
  rw [encode, Base64Encoder.encode_eq (by omega), List.drop_zero, List.take_length]
  rfl

/-- What was encoded is decoded. -/
theorem decode_encoded {data : List UInt8} (h : data ≠ []) : decode (encoded data) = .ok data := by
  have hlen : 4 ≤ (encoded data).length := by
    have hpos := List.length_pos_of_ne_nil h
    rw [length_encoded]
    omega
  have hsplit : significant ((encoded data).take ((encoded data).length - 4)) ++
      (encoded data).drop ((encoded data).length - 4) = encoded data := by
    have htake : significant ((encoded data).take ((encoded data).length - 4)) =
        (encoded data).take ((encoded data).length - 4) := by
      apply List.filter_eq_self.mpr
      intro c hc
      rw [not_ignore_encoded (List.mem_of_mem_take hc)]
      rfl
    rw [htake, List.take_append_drop]
  have hlast : ((encoded data).drop ((encoded data).length - 4)).length = 4 := by
    rw [List.length_drop]
    omega
  have hdecode := @decode_spread _ _ _ [] h hsplit hlast (by simp)
  rwa [List.append_nil, List.take_append_drop] at hdecode

end SpongycastleBase64

end OpenVpnAndroid
