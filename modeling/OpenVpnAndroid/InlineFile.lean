/-
  OpenVpnAndroid/InlineFile.lean
  ==============================
  **Inline files: what `insertFileData` writes and `parseConfig` reads back.**

  The profile keeps a certificate or a key as `[[INLINE]]` and its content, with
  a display name before the tag where there is one.  The generator writes the
  content between `<name>` and `</name>`, each on a line of its own; the parser
  puts the lines together again, a line feed after each, and takes one line feed
  off at the end.

  The last line feed is the one that the generator wrote before the end tag, so
  a content that is empty or ends in line feeds keeps its length
  (`flatMap_pieces`).  The content starts after the *first* tag, and a tag cannot
  begin inside a display name that holds none (`afterFirst_append`).
-/
import OpenVpnAndroid.ConfigParser
import OpenVpnAndroid.EscapeRoundTrip
import OpenVpnAndroid.TextDecoding

namespace OpenVpnAndroid

/-! ### Looking for a text in a text -/

/-- No proper end of the text is one of its beginnings, so that two occurrences
    never overlap. -/
def Unbordered (sub : Text) : Prop := ∀ t ∈ sub.tails, t <+: sub → t = [] ∨ t = sub

instance (sub : Text) : Decidable (Unbordered sub) := by
  unfold Unbordered; infer_instance

theorem not_prefix_of_containsText {sub : Text} {c : Char} {s : Text}
    (h : containsText sub (c :: s) = false) : ¬ sub <+: c :: s := by
  simp only [containsText, Bool.or_eq_false_iff] at h
  intro hp
  rw [List.isPrefixOf_iff_prefix.mpr hp] at h
  cases h.1

/-- An occurrence that begins before `sub` would end inside it. -/
theorem not_prefix_append {sub : Text} (hb : Unbordered sub) {c : Char} {u : Text}
    (hu : containsText sub (c :: u) = false) (rest : Text) :
    ¬ sub <+: c :: u ++ (sub ++ rest) := by
  intro h
  have hnot := not_prefix_of_containsText hu
  rcases List.prefix_or_prefix_of_prefix h (List.prefix_append (c :: u) (sub ++ rest)) with hp | hp
  · exact hnot hp
  · obtain ⟨t, rfl⟩ := hp
    have ht : t <+: c :: u ++ t :=
      List.prefix_of_prefix_length_le ((List.prefix_append_right_inj _).mp h)
        (List.prefix_append _ _) (by simp; omega)
    rcases hb t ((List.mem_tails _ _).mpr (List.suffix_append _ _)) ht with rfl | heq
    · exact hnot (by simp)
    · have hlen := congrArg List.length heq
      simp at hlen
      omega

/-- The first occurrence of an unbordered text is not before the one written. -/
theorem afterFirst_append {sub : Text} (hne : sub ≠ []) (hb : Unbordered sub) (rest : Text)
    {u : Text} (hu : containsText sub u = false) :
    afterFirst sub (u ++ (sub ++ rest)) = some rest := by
  induction u with
  | nil =>
    cases sub with
    | nil => exact absurd rfl hne
    | cons c s => simp [afterFirst]
  | cons c u ih =>
    have hnot := not_prefix_append hb hu rest
    rw [List.cons_append, ← List.isPrefixOf_iff_prefix] at hnot
    simp only [containsText, Bool.or_eq_false_iff] at hu
    rw [List.cons_append, afterFirst, if_neg hnot]
    exact ih hu.2

/-! ### Lines -/

/-- A line feed after each line gives the text and one line feed. -/
theorem flatMap_pieces (content : Text) :
    (pieces (· == '\n') content).flatMap (· ++ ['\n']) = content ++ ['\n'] := by
  induction content with
  | nil => rfl
  | cons c content ih =>
    by_cases hn : c = '\n'
    · simp [hn, pieces, ih]
    · rw [pieces_eq] at ih
      simp only [List.flatMap_cons] at ih
      simp [pieces, hn, pieces_eq (· == '\n') content, ← ih]

namespace ConfigParser

open VpnProfile

/-! ### The tags -/

/-- A character that `parseline` takes as it is and `openVpnEscape` does not
    quote; letters, digits and the dash are. -/
def Plain (c : Char) : Prop := special c = false ∧ space c = false

instance (c : Char) : Decidable (Plain c) := by
  unfold Plain; infer_instance

theorem plain_of_isAlphanum {c : Char} (h : c.isAlphanum = true ∨ c = '-') : Plain c := by
  have hbound : ∀ n : Fin 128, (Char.ofNat n).isAlphanum = true ∨ Char.ofNat n = '-' →
      Plain (Char.ofNat n) := by decide
  have hlt : c.toNat < 128 := by
    rcases h with h | rfl
    · simp only [Char.isAlphanum, Char.isAlpha, Char.isUpper, Char.isLower, Char.isDigit,
        Bool.or_eq_true, Bool.and_eq_true, decide_eq_true_eq] at h
      rcases h with (⟨-, h⟩ | ⟨-, h⟩) | ⟨-, h⟩ <;> exact Nat.lt_of_le_of_lt h (by decide)
    · decide
  have hc := hbound ⟨c.toNat, hlt⟩
  rw [Char.ofNat_toNat] at hc
  exact hc h

theorem NUL_not_mem_of_plain {s : Text} (h : ∀ c ∈ s, Plain c) : NUL ∉ s := by
  intro hn
  exact absurd (h NUL hn).2 (by decide)

/-- A line of plain characters is one parameter. -/
theorem parseline_of_plain {s : Text} (hne : s ≠ []) (hs : ∀ c ∈ s, Plain c) :
    parseline s = .ok [s] := by
  have hword := scan_word [] [] NUL [] (x := NUL) (by decide) (fun c hc => (hs c hc).1)
    (NUL_not_mem_of_plain hs)
  rw [wordsFrom_of_no_space (fun c hc => (hs c hc).2) (by simpa using hne)] at hword
  simp only [if_true] at hword
  rw [parseline, if_neg hne, LineParser.start, hword]
  simp [scan]

theorem trim_eq_self {a b : Char} {s : Text} (ha : 32 < a.toNat) (hb : 32 < b.toNat) :
    trim (a :: (s ++ [b])) = a :: (s ++ [b]) := by
  have ha' : ¬ a.toNat ≤ 32 := by omega
  have hb' : ¬ b.toNat ≤ 32 := by omega
  simp [trim, ha', hb']

/-- A line of plain characters is a line. -/
theorem readLines_of_plain {s : Text} (hs : ∀ c ∈ s, Plain c) (rest : Text) :
    readLines (s ++ '\n' :: rest) = s :: readLines rest := by
  have hn : '\n' ∉ s := fun hx => absurd (hs _ hx).2 (by decide)
  have hr : '\r' ∉ s := fun hx => absurd (hs _ hx).2 (by decide)
  exact readLines_line hn hr rest

def starttag (argname : Text) : Text := ("<" : Text) ++ argname ++ (">" : Text)

theorem plain_starttag {name : Text} (hname : ∀ c ∈ name, Plain c) :
    ∀ c ∈ starttag name, Plain c := by
  intro c hc
  simp only [starttag, List.mem_append] at hc
  rcases hc with (hc | hc) | hc
  · rw [List.mem_singleton.mp hc]; decide
  · exact hname c hc
  · rw [List.mem_singleton.mp hc]; decide

theorem plain_endtag {name : Text} (hname : ∀ c ∈ name, Plain c) :
    ∀ c ∈ endtag name, Plain c := by
  intro c hc
  have hslash : ∀ c ∈ '/' :: name, Plain c := by
    simpa using ⟨by decide, hname⟩
  exact plain_starttag hslash c hc

theorem parseline_starttag {name : Text} (hname : ∀ c ∈ name, Plain c) :
    parseline (starttag name) = .ok [starttag name] :=
  parseline_of_plain (by simp [starttag]) (plain_starttag hname)

theorem inlineName_starttag (name : Text) : inlineName (starttag name) = some name := by
  have htrim : trim (starttag name) = starttag name :=
    trim_eq_self (a := '<') (b := '>') (by decide) (by decide)
  have hsuffix : (">" : Text).isSuffixOf (starttag name) = true := by
    rw [List.isSuffixOf_iff_suffix]
    exact ⟨("<" : Text) ++ name, rfl⟩
  rw [inlineName, htrim, hsuffix]
  simp [starttag]

theorem trim_endtag (name : Text) : trim (endtag name) = endtag name :=
  trim_eq_self (a := '<') (b := '>') (s := '/' :: name) (by decide) (by decide)

/-! ### The lines of an inline file -/

theorem readConfigLine_starttag {name : Text} (hname : ∀ c ∈ name, Plain c) (p : ConfigParser) :
    readConfigLine .options p (starttag name) = .ok (.inlineFile name INLINE_TAG, p) := by
  have hmeta : META_TAG.isPrefixOf (starttag name) = false := by
    have hhead : META_TAG = '#' :: META_TAG.tail := by decide
    rw [hhead]
    simp [starttag, List.isPrefixOf]
  have hdashes : stripDashes (starttag name) = starttag name := by
    simp [stripDashes, starttag]
  simp [readConfigLine, hmeta, parseline_starttag hname, readOption, hdashes,
    inlineName_starttag]

/-- Lines that do not look like the end tag are collected. -/
theorem readConfig_inlineFile {argname : Text} (p : ConfigParser) {lines : List Text}
    (hlines : ∀ line ∈ lines, trim line ≠ endtag argname) (inlinefile : Text)
    (rest : List Text) :
    readConfig (.inlineFile argname inlinefile) p (lines ++ rest) =
      readConfig (.inlineFile argname (inlinefile ++ lines.flatMap (· ++ ['\n']))) p rest := by
  induction lines generalizing inlinefile with
  | nil => simp
  | cons line lines ih =>
    have hline := hlines line List.mem_cons_self
    have hrest := ih (fun l hl => hlines l (List.mem_cons_of_mem line hl))
      (inlinefile ++ line ++ ("\n" : Text))
    rw [List.cons_append, readConfig, readConfigLine]
    simp only [hline, if_false]
    rw [hrest]
    simp

/-- The end tag takes the last line feed off. -/
theorem readConfigLine_endtag (argname inlinefile : Text) (p : ConfigParser) :
    readConfigLine (.inlineFile argname (inlinefile ++ ['\n'])) p (endtag argname) =
      .ok (.options, p.addOption [argname, inlinefile]) := by
  have hsuffix : ("\n" : Text).isSuffixOf (inlinefile ++ ['\n']) = true := by
    rw [List.isSuffixOf_iff_suffix]
    exact ⟨inlinefile, rfl⟩
  simp only [readConfigLine, trim_endtag, hsuffix, if_true]
  simp

/-! ### The round trip -/

/-- What the profile keeps for an inline file: the content after the tag, with
    or without a display name before it. -/
inductive InlineData (content : Text) : Text → Prop where
  | content : InlineData content (INLINE_TAG ++ content)
  | named (display : Text) (h : containsText INLINE_TAG display = false) :
      InlineData content (DISPLAYNAME_TAG ++ display ++ INLINE_TAG ++ content)

theorem unbordered_INLINE_TAG : Unbordered INLINE_TAG := by decide

/-- The tag of a display name neither holds nor begins the other tag. -/
theorem containsText_displayName {display : Text} (h : containsText INLINE_TAG display = false) :
    containsText INLINE_TAG (DISPLAYNAME_TAG ++ display) = false := by
  have hname : DISPLAYNAME_TAG = ['[', '[', 'N', 'A', 'M', 'E', ']', ']'] := by decide
  have hinline : INLINE_TAG = ['[', '[', 'I', 'N', 'L', 'I', 'N', 'E', ']', ']'] := by decide
  rw [hinline] at h ⊢
  simpa [containsText, hname, List.isPrefixOf] using h

theorem isEmbedded_of_inlineData {content data : Text} (h : InlineData content data) :
    isEmbedded data = true := by
  rw [isEmbedded, Bool.or_eq_true]
  cases h with
  | content => exact .inl (List.isPrefixOf_iff_prefix.mpr (List.prefix_append _ _))
  | named display h =>
    right
    rw [List.append_assoc, List.append_assoc]
    exact List.isPrefixOf_iff_prefix.mpr (List.prefix_append _ _)

theorem getEmbeddedContent_of_inlineData {content data : Text} (h : InlineData content data) :
    getEmbeddedContent data = content := by
  have hne : INLINE_TAG ≠ [] := by decide
  cases h with
  | content =>
    have hfirst := afterFirst_append hne unbordered_INLINE_TAG content (u := []) (by decide)
    simp only [List.nil_append] at hfirst
    rw [getEmbeddedContent, hfirst, Option.getD_some]
  | named display h =>
    have hfirst := afterFirst_append hne unbordered_INLINE_TAG content
      (containsText_displayName h)
    rw [getEmbeddedContent, List.append_assoc, hfirst, Option.getD_some]

/-- What `insertFileData` writes, line by line. -/
theorem readLines_insertFileData {name content data : Text} (hname : ∀ c ∈ name, Plain c)
    (hr : '\r' ∉ content) (h : InlineData content data) :
    readLines (insertFileData name (some data)) =
      starttag name :: (pieces (· == '\n') content ++ [endtag name]) := by
  have hshape : insertFileData name (some data) =
      starttag name ++ '\n' :: (content ++ '\n' :: (endtag name ++ ['\n'])) := by
    simp [insertFileData, isEmbedded_of_inlineData h, getEmbeddedContent_of_inlineData h,
      starttag, endtag]
  have hstart := readLines_of_plain (plain_starttag hname)
    (content ++ '\n' :: (endtag name ++ ['\n']))
  have hstop := readLines_of_plain (plain_endtag hname) []
  rw [hshape, hstart, readLines_append hr, hstop, readLines]

/-- **An inline file comes back byte for byte.** -/
theorem parseConfig_insertFileData {name content data : Text} (hname : ∀ c ∈ name, Plain c)
    (hr : '\r' ∉ content) (hend : ∀ line ∈ pieces (· == '\n') content, trim line ≠ endtag name)
    (h : InlineData content data) :
    parseConfig (insertFileData name (some data)) =
      .ok ⟨[(optionAlias name, [[name, INLINE_TAG ++ content]])], []⟩ := by
  have hzip : isZip (starttag name) = false := by simp [isZip, starttag, List.isPrefixOf]
  have hmark : stripMark (starttag name) = starttag name := rfl
  rw [parseConfig, readLines_insertFileData hname hr h]
  simp only [hzip, hmark, readConfig, readConfigLine_starttag hname]
  rw [readConfig_inlineFile _ hend, flatMap_pieces, ← List.append_assoc, readConfig,
    readConfigLine_endtag]
  simp [readConfig, addOption, OptionMap.add, OptionMap.put, OptionMap.get,
    OptionMap.containsKey, init]

theorem parseConfig_insertFileData_named :
    parseConfig (insertFileData ("ca" : Text)
        (some (DISPLAYNAME_TAG ++ ("my.crt" : Text) ++ INLINE_TAG ++ ("a\n</c>\n\n" : Text)))) =
      .ok ⟨[("ca", [["ca", INLINE_TAG ++ ("a\n</c>\n\n" : Text)]])], []⟩ := by
  have hend : ∀ line ∈ pieces (· == '\n') ("a\n</c>\n\n" : Text),
      trim line ≠ endtag ("ca" : Text) := by decide
  have hname : ("ca" : Text).all Char.isAlphanum = true := by decide
  have hplain : ∀ c ∈ ("ca" : Text), Plain c :=
    fun c hc => plain_of_isAlphanum (.inl (List.all_eq_true.mp hname c hc))
  exact parseConfig_insertFileData hplain (by decide) hend (.named "my.crt" (by decide))

end ConfigParser

end OpenVpnAndroid
