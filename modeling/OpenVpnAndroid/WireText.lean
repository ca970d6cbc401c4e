/-
  OpenVpnAndroid/WireText.lean
  ============================
  **Java text on the management socket, as OpenVPN sees it.**

  The Java side writes UTF-8 and the C side has one character a byte (`wire`).  A
  character beyond ASCII becomes bytes beyond ASCII, so that everything that the two
  sides agree on, and `openVpnEscape` in particular, is the same on both.
-/
import OpenVpnAndroid.ManagementQueries
import OpenVpnAndroid.Utf8

namespace OpenVpnAndroid

/-- The characters of the UTF-8 of a text. -/
def wire (text : Text) : Text := cText (Utf8.encode text)

def Ascii7 (text : Text) : Prop := ∀ c ∈ text, c.toNat < 128

theorem ascii7_of_all {text : Text} (h : text.all (fun c => c.toNat < 128) = true) :
    Ascii7 text := by
  simpa [Ascii7] using h

theorem utf8EncodeChar_of_lt {c : Char} (h : c.toNat < 128) :
    String.utf8EncodeChar c = [UInt8.ofNat c.toNat] := by
  have hle : c.val.toNat ≤ 0x7f := Nat.le_of_lt_succ h
  rw [String.utf8EncodeChar]
  exact if_pos hle

/-- Every byte of another character is beyond ASCII. -/
theorem le_of_mem_utf8EncodeChar {c : Char} (h : 128 ≤ c.toNat) {b : UInt8}
    (hb : b ∈ String.utf8EncodeChar c) : 128 ≤ b.toNat := by
  have hlarge : ¬ c.val.toNat ≤ 0x7f := Nat.not_le.mpr h
  have hbyte : ∀ n base : Nat, n < 256 - base → 128 ≤ base → 128 ≤ (UInt8.ofNat (n + base)).toNat := by
    intro n base hn hbase
    rw [UInt8.toNat_ofNat_of_lt' (by rw [UInt8.size]; omega)]
    omega
  simp only [String.utf8EncodeChar, if_neg hlarge] at hb
  split_ifs at hb <;> simp only [List.mem_cons, List.not_mem_nil, or_false] at hb
  · rcases hb with rfl | rfl
    · exact hbyte _ _ (by omega) (by decide)
    · exact hbyte _ _ (by omega) (by decide)
  · rcases hb with rfl | rfl | rfl
    · exact hbyte _ _ (by omega) (by decide)
    · exact hbyte _ _ (by omega) (by decide)
    · exact hbyte _ _ (by omega) (by decide)
  · rcases hb with rfl | rfl | rfl | rfl
    · exact hbyte _ _ (by omega) (by decide)
    · exact hbyte _ _ (by omega) (by decide)
    · exact hbyte _ _ (by omega) (by decide)
    · exact hbyte _ _ (by omega) (by decide)

theorem toChar_ofNat {c : Char} (h : c.toNat < 128) : (UInt8.ofNat c.toNat).toChar = c := by
  have hlt : c.toNat < UInt8.size := by rw [UInt8.size]; omega
  apply Char.toNat_inj.mp
  change (UInt8.ofNat c.toNat).toNat = c.toNat
  exact UInt8.toNat_ofNat_of_lt' hlt

theorem cText_injective : Function.Injective cText := by
  refine List.map_injective_iff.mpr fun a b h => ?_
  exact UInt8.toNat_inj.mp (congrArg Char.toNat h)

theorem wire_injective : Function.Injective wire := cText_injective.comp Utf8.encode_injective

@[simp] theorem wire_nil : wire [] = [] := rfl

@[simp] theorem wire_append (s t : Text) : wire (s ++ t) = wire s ++ wire t := by
  rw [wire, Utf8.encode_append, cText, List.map_append]
  rfl

theorem wire_cons (c : Char) (s : Text) : wire (c :: s) = wire [c] ++ wire s := wire_append [c] s

theorem length_wire (text : Text) : (wire text).length = (Utf8.encode text).length :=
  List.length_map _

theorem wire_char {c : Char} (h : c.toNat < 128) : wire [c] = [c] := by
  rw [wire, Utf8.encode, List.flatMap_singleton, utf8EncodeChar_of_lt h, cText, List.map_singleton,
    toChar_ofNat h]

theorem le_of_mem_wire_char {c d : Char} (h : 128 ≤ c.toNat) (hd : d ∈ wire [c]) :
    128 ≤ d.toNat := by
  rw [wire, Utf8.encode, List.flatMap_singleton, cText] at hd
  obtain ⟨b, hb, rfl⟩ := List.mem_map.mp hd
  exact le_of_mem_utf8EncodeChar h hb

/-- ASCII text is the same on both sides. -/
theorem wire_of_ascii {text : Text} (h : Ascii7 text) : wire text = text := by
  induction text with
  | nil => rfl
  | cons c text ih =>
      obtain ⟨hc, htext⟩ := List.forall_mem_cons.mp h
      rw [wire_cons, wire_char hc, ih htext, List.singleton_append]

theorem wire_eq_nil_iff {text : Text} : wire text = [] ↔ text = [] :=
  ⟨fun h => wire_injective h, fun h => by rw [h, wire_nil]⟩

/-! ### Escaping -/

open ConfigParser (special quoted escapeChar)

theorem special_of_le {d : Char} (h : 128 ≤ d.toNat) : special d = false := by
  have hne : ∀ x : Char, x.toNat < 128 → d ≠ x := by
    rintro x hx rfl
    omega
  simp [special, hne BACKSLASH (by decide), hne QUOTE (by decide), hne '\n' (by decide),
    hne ' ' (by decide), hne '#' (by decide), hne ';' (by decide), hne APOSTROPHE (by decide)]

theorem any_special_wire_char (c : Char) : (wire [c]).any special = special c := by
  by_cases h : c.toNat < 128
  · rw [wire_char h, List.any_cons, List.any_nil, Bool.or_false]
  · rw [Nat.not_lt] at h
    rw [special_of_le h, List.any_eq_false]
    intro d hd
    rw [special_of_le (le_of_mem_wire_char h hd)]
    exact Bool.false_ne_true

theorem quoted_wire (text : Text) : quoted (wire text) = quoted text := by
  have hany : (wire text).any special = text.any special := by
    induction text with
    | nil => rfl
    | cons c text ih => rw [wire_cons, List.any_append, any_special_wire_char, ih, List.any_cons]
  have hempty : (wire text).isEmpty = text.isEmpty := by
    rw [Bool.eq_iff_iff, List.isEmpty_iff, List.isEmpty_iff, wire_eq_nil_iff]
  rw [quoted, quoted, hany, hempty]

theorem escapeChar_wire_char (c : Char) : (wire [c]).flatMap escapeChar = wire (escapeChar c) := by
  by_cases h : c.toNat < 128
  · rw [wire_char h, List.flatMap_singleton]
    refine (wire_of_ascii fun d hd => ?_).symm
    rw [escapeChar] at hd
    split_ifs at hd <;> simp only [List.mem_cons, List.not_mem_nil, or_false] at hd
    · rcases hd with rfl | rfl <;> decide
    · rcases hd with rfl | rfl <;> decide
    · rcases hd with rfl | rfl <;> decide
    · rw [hd]
      exact h
  · rw [Nat.not_lt] at h
    rw [ConfigParser.escapeChar_of_not_special (special_of_le h)]
    have hplain : ∀ d ∈ wire [c], escapeChar d = [d] := fun d hd =>
      ConfigParser.escapeChar_of_not_special (special_of_le (le_of_mem_wire_char h hd))
    rw [List.flatMap_congr hplain, List.flatMap_singleton']

/-- Escaping on the Java side is escaping on the C side. -/
theorem wire_openVpnEscape (text : Text) :
    wire (VpnProfile.openVpnEscape text) = VpnProfile.openVpnEscape (wire text) := by
  have hflat : wire (text.flatMap escapeChar) = (wire text).flatMap escapeChar := by
    induction text with
    | nil => rfl
    | cons c text ih =>
        rw [List.flatMap_cons, wire_append, ih, wire_cons c text, List.flatMap_append,
          escapeChar_wire_char]
  rw [ConfigParser.openVpnEscape_eq, ConfigParser.openVpnEscape_eq, quoted_wire]
  split_ifs
  · rw [wire_cons, wire_append, hflat, wire_char (by decide)]
    rfl
  · rfl

theorem length_openVpnEscape_le (arg : Text) :
    (VpnProfile.openVpnEscape arg).length ≤ 2 * arg.length + 2 := by
  have hflat : (arg.flatMap escapeChar).length ≤ 2 * arg.length := by
    induction arg with
    | nil => exact Nat.zero_le _
    | cons c arg ih =>
        have hc : (escapeChar c).length ≤ 2 := by
          rw [escapeChar]
          split_ifs <;> simp
        rw [List.flatMap_cons, List.length_append, List.length_cons]
        omega
  rw [ConfigParser.openVpnEscape_eq]
  split_ifs
  · rw [List.length_cons, List.length_append, List.length_singleton]
    omega
  · omega

theorem printable_openVpnEscape {arg : Text} (h : ∀ c ∈ arg, 32 ≤ c.toNat ∧ c.toNat ≠ 127) :
    ∀ c ∈ VpnProfile.openVpnEscape arg, 32 ≤ c.toNat ∧ c.toNat ≠ 127 := by
  have hchar : ∀ d ∈ arg, ∀ c ∈ escapeChar d, 32 ≤ c.toNat ∧ c.toNat ≠ 127 := by
    intro d hd c hc
    rw [escapeChar] at hc
    split_ifs at hc <;> simp only [List.mem_cons, List.not_mem_nil, or_false] at hc
    · rcases hc with rfl | rfl <;> decide
    · rcases hc with rfl | rfl <;> decide
    · rcases hc with rfl | rfl <;> decide
    · rw [hc]
      exact h d hd
  intro c hc
  rw [ConfigParser.openVpnEscape_eq] at hc
  split_ifs at hc
  · rcases List.mem_cons.mp hc with rfl | hc
    · decide
    · rcases List.mem_append.mp hc with hc | hc
      · obtain ⟨d, hd, hc⟩ := List.mem_flatMap.mp hc
        exact hchar d hd c hc
      · rw [List.mem_singleton.mp hc]
        decide
  · exact h c hc

/-! ### What arrives -/

open ManagementConnection in
/-- A value that a query can return as it is. -/
structure Deliverable (text : Text) : Prop where
  printable : ∀ c ∈ text, 32 ≤ c.toNat ∧ c.toNat ≠ 127
  length_lt : (Utf8.encode text).length < USER_PASS_LEN

theorem printable_wire_iff {text : Text} :
    ManagementConnection.Printable (wire text) ↔ ∀ c ∈ text, 32 ≤ c.toNat ∧ c.toNat ≠ 127 := by
  induction text with
  | nil => simp [ManagementConnection.Printable]
  | cons c text ih =>
      rw [ManagementConnection.Printable, wire_cons, List.forall_mem_append, List.forall_mem_cons,
        ← ih]
      refine and_congr ?_ Iff.rfl
      by_cases h : c.toNat < 128
      · rw [wire_char h, List.forall_mem_singleton]
        omega
      · rw [Nat.not_lt] at h
        refine iff_of_true (fun d hd => ?_) (by omega)
        have hle := le_of_mem_wire_char h hd
        obtain ⟨b, -, rfl⟩ := List.mem_map.mp hd
        exact ⟨by omega, by omega, b.toNat_lt⟩

theorem Deliverable.of_read {text : Text} (hprintable : ManagementConnection.Printable (wire text))
    (hlen : (wire text).length < ManagementConnection.USER_PASS_LEN) : Deliverable text :=
  ⟨printable_wire_iff.mp hprintable, by rwa [length_wire] at hlen⟩

theorem Deliverable.wire_printable {text : Text} (h : Deliverable text) :
    ManagementConnection.Printable (wire text) := printable_wire_iff.mpr h.printable

/-- The bytes of a printable text are added to the buffer, and none of them ends a line. -/
theorem clean_encode {text : Text} (h : ∀ c ∈ text, 32 ≤ c.toNat ∧ c.toNat ≠ 127) :
    CommandLine.Clean (Utf8.encode text) ∧ LINE_FEED ∉ Utf8.encode text := by
  have hbyte : ∀ b ∈ Utf8.encode text, 32 ≤ b.toNat ∧ b.toNat ≠ 127 := fun b hb =>
    have hb := printable_wire_iff.mpr h b.toChar (List.mem_map_of_mem hb)
    ⟨hb.1, hb.2.1⟩
  refine ⟨fun b hb => ?_, fun hmem => absurd (hbyte _ hmem).1 (by decide)⟩
  obtain ⟨hlow, hdel⟩ := hbyte b hb
  have hle : 32 ≤ b := UInt8.le_iff_toNat_le.mpr hlow
  have hne : b ≠ 127 := fun heq => hdel (congrArg UInt8.toNat heq)
  have hzero : b ≠ 0 := by
    rintro rfl
    exact absurd hlow (by decide)
  simp [CommandLine.accepts, hle, hne, hzero]

end OpenVpnAndroid
