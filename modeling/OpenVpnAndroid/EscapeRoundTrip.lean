/-
  OpenVpnAndroid/EscapeRoundTrip.lean
  ===================================
  **Reading back what `openVpnEscape` wrote.**

  `parseline` on a line of escaped parameters is computed in closed form
  (`parseline_optionLine`): each parameter is read on its own (`reads`), a
  quoted one with a stutter, an unquoted one split at white space.

    * `out` is not reset when a backslash is met, so the character before an
      escape inside a quoted parameter is stored twice (`stutter`);
    * `openVpnEscape` writes a line feed as `\n`, which `parseline` rejects;
    * `openVpnEscape` quotes for a blank but not for the other white space.

  A line is read back exactly when none of the three happens
  (`parseline_optionLine_iff`).
-/
import OpenVpnAndroid.ParseLine

namespace OpenVpnAndroid.ConfigParser

open VpnProfile

/-! ### What `openVpnEscape` writes -/

/-- The characters that make `openVpnEscape` quote a parameter. -/
def special (c : Char) : Bool :=
  c == BACKSLASH || c == QUOTE || c == '\n' || c == ' ' || c == '#' || c == ';'
    || c == APOSTROPHE

def quoted (arg : Text) : Bool := arg.isEmpty || arg.any special

/-- The three `replace` calls on one character. -/
def escapeChar (c : Char) : Text :=
  if c = BACKSLASH then [BACKSLASH, BACKSLASH]
  else if c = QUOTE then [BACKSLASH, QUOTE]
  else if c = '\n' then [BACKSLASH, 'n']
  else [c]

theorem replaceChar_replaceChar (arg : Text) :
    replaceChar '\n' [BACKSLASH, 'n']
        (replaceChar QUOTE [BACKSLASH, QUOTE]
          (replaceChar BACKSLASH [BACKSLASH, BACKSLASH] arg)) =
      arg.flatMap escapeChar := by
  unfold replaceChar
  rw [List.flatMap_assoc, List.flatMap_assoc]
  congr 1
  funext c
  by_cases hb : c = BACKSLASH
  · subst hb; decide
  · by_cases hq : c = QUOTE
    · subst hq; decide
    · simp [escapeChar, hb, hq]

theorem escapeChar_of_not_special {c : Char} (h : special c = false) : escapeChar c = [c] := by
  simp only [special, Bool.or_eq_false_iff, beq_eq_false_iff_ne] at h
  simp [escapeChar, h]

/-- A character that needs no backslash occurs in the escaped text exactly when
    it occurs in the text. -/
theorem mem_flatMap_escapeChar {x : Char} (arg : Text)
    (hx : ∀ c, x ∈ escapeChar c ↔ x = c) :
    x ∈ arg.flatMap escapeChar ↔ x ∈ arg := by
  simp only [List.mem_flatMap, hx]
  constructor
  · rintro ⟨c, hc, rfl⟩; exact hc
  · intro h; exact ⟨x, h, rfl⟩

theorem mem_escapeChar_iff {x : Char}
    (hx : x ≠ BACKSLASH ∧ x ≠ QUOTE ∧ x ≠ '\n' ∧ x ≠ 'n') (c : Char) :
    x ∈ escapeChar c ↔ x = c := by
  unfold escapeChar
  split_ifs with h1 h2 h3 <;> simp_all

theorem length_le_flatMap_escapeChar (arg : Text) :
    arg.length ≤ (arg.flatMap escapeChar).length := by
  induction arg with
  | nil => simp
  | cons c cs ih =>
    have hc : 1 ≤ (escapeChar c).length := by unfold escapeChar; split_ifs <;> simp
    simp only [List.flatMap_cons, List.length_append, List.length_cons]
    omega

/-- The escaped text is the text only when nothing needed a backslash. -/
theorem flatMap_escapeChar_eq_self {arg : Text} (h : arg.flatMap escapeChar = arg) :
    ∀ c ∈ arg, escapeChar c = [c] := by
  induction arg with
  | nil => simp
  | cons c cs ih =>
    by_cases hc : escapeChar c = [c]
    · rw [List.flatMap_cons, hc, List.singleton_append, List.cons.injEq] at h
      intro x hx
      rcases List.mem_cons.mp hx with rfl | hx
      · exact hc
      · exact ih h.2 x hx
    · have hlen : 2 ≤ (escapeChar c).length := by
        unfold escapeChar at hc ⊢
        split_ifs at hc ⊢ <;> simp_all
      have h' := congrArg List.length h
      have hcs := length_le_flatMap_escapeChar cs
      simp only [List.flatMap_cons, List.length_append, List.length_cons] at h'
      omega

theorem openVpnEscape_eq (arg : Text) :
    openVpnEscape arg =
      if quoted arg then QUOTE :: (arg.flatMap escapeChar ++ [QUOTE]) else arg := by
  have hmem : ∀ x : Char, x ≠ BACKSLASH ∧ x ≠ QUOTE ∧ x ≠ '\n' ∧ x ≠ 'n' →
      (x ∈ arg.flatMap escapeChar ↔ x ∈ arg) := fun x hx =>
    mem_flatMap_escapeChar arg (mem_escapeChar_iff hx)
  have hb := hmem ' ' (by decide)
  have hh := hmem '#' (by decide)
  have hs := hmem ';' (by decide)
  have ha := hmem APOSTROPHE (by decide)
  unfold openVpnEscape
  simp only [replaceChar_replaceChar, hb, hh, hs, ha]
  by_cases hq : quoted arg = true
  · rw [if_pos hq, if_neg]
    · rfl
    · rintro ⟨heq, h1, h2, h3, h4, h5⟩
      have hall := flatMap_escapeChar_eq_self heq
      rcases Bool.or_eq_true _ _ ▸ hq with he | hsp
      · rw [heq] at h4
        exact h4 (List.isEmpty_iff.mp he)
      · obtain ⟨c, hc, hspec⟩ := List.any_eq_true.mp hsp
        have hplain := hall c hc
        unfold special at hspec
        simp only [Bool.or_eq_true, beq_iff_eq] at hspec
        rcases hspec with (((((rfl | rfl) | rfl) | rfl) | rfl) | rfl) | rfl
        · exact absurd hplain (by decide)
        · exact absurd hplain (by decide)
        · exact absurd hplain (by decide)
        · exact h1 hc
        · exact h2 hc
        · exact h3 hc
        · exact h5 hc
  · rw [if_neg hq, if_pos]
    simp only [quoted, Bool.or_eq_true, not_or, List.isEmpty_iff, List.any_eq_true,
      not_exists, not_and, Bool.not_eq_true] at hq
    have hplain : arg.flatMap escapeChar = arg := by
      have : ∀ c ∈ arg, escapeChar c = [c] := fun c hc =>
        escapeChar_of_not_special (hq.2 c hc)
      rw [List.flatMap_congr this]
      simp
    have hno : ∀ x : Char, special x = true → x ∉ arg := fun x hx hmem' => by
      rw [hq.2 x hmem'] at hx; cases hx
    rw [hplain]
    exact ⟨rfl, hno _ (by decide), hno _ (by decide), hno _ (by decide), hq.1,
      hno _ (by decide)⟩

/-! ### How one parameter is read -/

/-- The content of a quoted parameter as `parseline` stores it: `out` is the
    character stored last, and it is stored again at every backslash. -/
def stutter (out : Char) : Text → Text
  | [] => []
  | c :: cs =>
      (if (c = BACKSLASH ∨ c = QUOTE) ∧ out ≠ NUL then [out] else []) ++ c :: stutter c cs

/-- The pieces of an unquoted text between white space; `cur` is the piece that
    is being read. -/
def wordsFrom (cur : Text) : Text → List Text
  | [] => if cur = [] then [] else [cur]
  | c :: cs =>
      if space c then (if cur = [] then [] else [cur]) ++ wordsFrom [] cs
      else wordsFrom (cur ++ [c]) cs

/-- What `parseline` makes of one escaped parameter. -/
def reads (arg : Text) : Java (List Text) :=
  if quoted arg then
    if '\n' ∈ arg then .error badBackslash else .ok [stutter NUL arg]
  else .ok (wordsFrom [] arg)

def readsAll : List Text → Java (List Text)
  | [] => .ok []
  | arg :: args =>
      match reads arg, readsAll args with
      | .error e, _ => .error e
      | .ok _, .error e => .error e
      | .ok ws, .ok rest => .ok (ws ++ rest)

/-! ### The scanner on escaped text -/

section Scan

variable (cur : Text) (params : List Text) (out : Char) (rest : Text)

/-- A blank between two parameters is skipped. -/
theorem scan_blank :
    scan ⟨.initial, false, NUL, [], params⟩ (' ' :: rest) =
      scan ⟨.initial, false, NUL, [], params⟩ rest := rfl

theorem scan_open_quote :
    scan ⟨.initial, false, NUL, [], params⟩ (QUOTE :: rest) =
      scan ⟨.readingQuoted, false, NUL, [], params⟩ rest := rfl

theorem scan_close_quote :
    scan ⟨.readingQuoted, false, out, cur, params⟩ (QUOTE :: rest) =
      scan ⟨.initial, false, NUL, [], params ++ [cur]⟩ rest := rfl

/-- An escaped backslash or quote: the carried `out` is stored first. -/
theorem scan_quoted_escape {c : Char} (hc : c = BACKSLASH ∨ c = QUOTE) :
    scan ⟨.readingQuoted, false, out, cur, params⟩ (BACKSLASH :: c :: rest) =
      scan ⟨.readingQuoted, false, c, cur ++ (if out = NUL then [] else [out]) ++ [c], params⟩
        rest := by
  by_cases ho : out = NUL <;> rcases hc with rfl | rfl <;>
    simp [scan, step, LineParser.iterate, startsEscape, LineParser.store, readChar, ho, mayEscape]

theorem n_ne_NUL : 'n' ≠ NUL := by decide

theorem scan_quoted_newline_escape :
    scan ⟨.readingQuoted, false, out, cur, params⟩ (BACKSLASH :: 'n' :: rest) =
      .error badBackslash := by
  have hn : mayEscape space 'n' = false := by decide
  by_cases ho : out = NUL <;>
    simp [scan, step, LineParser.iterate, startsEscape, LineParser.store, readChar, ho, hn, n_ne_NUL]

theorem scan_quoted_plain {c : Char} (hb : c ≠ BACKSLASH) (hq : c ≠ QUOTE) (hn : c ≠ NUL) :
    scan ⟨.readingQuoted, false, out, cur, params⟩ (c :: rest) =
      scan ⟨.readingQuoted, false, c, cur ++ [c], params⟩ rest := by
  simp [scan, step, LineParser.iterate, startsEscape, LineParser.store, readChar, hb, hq, hn]

/-- The content of a quoted parameter up to its closing quote. -/
theorem scan_quoted {s : Text} (hn : NUL ∉ s) :
    scan ⟨.readingQuoted, false, out, cur, params⟩ (s.flatMap escapeChar ++ QUOTE :: rest) =
      if '\n' ∈ s then .error badBackslash
      else scan ⟨.initial, false, NUL, [], params ++ [cur ++ stutter out s]⟩ rest := by
  induction s generalizing out cur with
  | nil => simp [scan_close_quote, stutter]
  | cons c cs ih =>
    rw [List.mem_cons, not_or] at hn
    by_cases hesc : c = BACKSLASH ∨ c = QUOTE
    · have hline : escapeChar c = [BACKSLASH, c] := by
        rcases hesc with rfl | rfl <;> decide
      have hnl : c ≠ '\n' := by rcases hesc with rfl | rfl <;> decide
      rw [List.flatMap_cons, hline, List.append_assoc, List.cons_append, List.cons_append,
        List.nil_append, scan_quoted_escape _ _ _ _ hesc, ih _ _ hn.2]
      by_cases ho : out = NUL <;>
        simp [stutter, hesc, ho, hnl.symm]
    · rw [not_or] at hesc
      by_cases hnl : c = '\n'
      · subst hnl
        have hline : escapeChar '\n' = [BACKSLASH, 'n'] := by decide
        rw [List.flatMap_cons, hline, List.append_assoc, List.cons_append, List.cons_append,
          List.nil_append, scan_quoted_newline_escape]
        simp
      · have hline : escapeChar c = [c] := by simp [escapeChar, hesc, hnl]
        rw [List.flatMap_cons, hline, List.append_assoc, List.cons_append, List.nil_append,
          scan_quoted_plain _ _ _ _ hesc.1 hesc.2 (Ne.symm hn.1), ih _ _ hn.2]
        simp [stutter, hesc, Ne.symm hnl]

/-- Unquoted text up to the white space that follows it, inside a word. -/
theorem scan_word {x : Char} (hx : space x = true) {s : Text} (hs : ∀ c ∈ s, special c = false)
    (hn : NUL ∉ s) :
    scan ⟨if cur = [] then .initial else .readingUnquoted, false, if cur = [] then NUL else out,
        cur, params⟩ (s ++ x :: rest) =
      scan ⟨.initial, false, NUL, [], params ++ wordsFrom cur s⟩ rest := by
  induction s generalizing cur out params with
  | nil =>
    have hb : x ≠ BACKSLASH := by
      rintro rfl
      exact absurd hx (by decide)
    by_cases hc : cur = [] <;>
      simp [scan, step, LineParser.iterate, startsEscape, readChar, LineParser.store, hc, hb, hx,
        wordsFrom]
  | cons c cs ih =>
    rw [List.mem_cons, not_or] at hn
    have hspec := hs c (by simp)
    simp only [special, Bool.or_eq_false_iff, beq_eq_false_iff_ne] at hspec
    have hcs : ∀ x ∈ cs, special x = false := fun x hx => hs x (by simp [hx])
    by_cases hsp : space c = true
    · have hgap := ih [] (params ++ if cur = [] then [] else [cur]) NUL hcs hn.2
      simp only [if_true] at hgap
      by_cases hc : cur = [] <;>
        simp [hc, scan, step, LineParser.iterate, startsEscape, readChar, LineParser.store,
          hspec, hsp, wordsFrom] at hgap ⊢ <;> exact hgap
    · have hword := ih (cur ++ [c]) params c hcs hn.2
      by_cases hc : cur = [] <;>
        simp [hc, scan, step, LineParser.iterate, startsEscape, readChar, LineParser.store,
          hspec, hsp, wordsFrom, Ne.symm hn.1] at hword ⊢ <;> exact hword

/-- One escaped parameter and the blank after it. -/
theorem scan_openVpnEscape {arg : Text} (hn : NUL ∉ arg) :
    scan ⟨.initial, false, NUL, [], params⟩ (openVpnEscape arg ++ ' ' :: rest) =
      match reads arg with
      | .error e => .error e
      | .ok ws => scan ⟨.initial, false, NUL, [], params ++ ws⟩ rest := by
  rw [openVpnEscape_eq]
  by_cases hq : quoted arg = true
  · rw [if_pos hq, List.cons_append, List.append_assoc, scan_open_quote, List.singleton_append,
      scan_quoted _ _ _ _ hn]
    by_cases hnl : '\n' ∈ arg
    · simp [reads, hq, hnl]
    · simp [reads, hq, hnl, scan_blank]
  · rw [if_neg hq]
    have hplain : ∀ c ∈ arg, special c = false := by
      simp only [quoted, Bool.or_eq_true, not_or, List.any_eq_true, not_exists, not_and,
        Bool.not_eq_true] at hq
      exact hq.2
    have hword := scan_word [] params NUL rest (x := ' ') (by decide) hplain hn
    simp only [if_true] at hword
    simp [reads, hq, hword]

end Scan

/-- A line of escaped parameters is read parameter by parameter. -/
theorem scan_optionLine (args : List Text) (params : List Text) (hn : ∀ a ∈ args, NUL ∉ a) :
    scan ⟨.initial, false, NUL, [], params⟩ (optionLine args ++ [NUL]) =
      (readsAll args).map (params ++ ·) := by
  induction args generalizing params with
  | nil => simp [optionLine, readsAll, scan, step, LineParser.iterate, startsEscape, readChar,
      LineParser.store, space, NUL, BACKSLASH, Except.map]
  | cons arg args ih =>
    have harg := hn arg (by simp)
    have hargs : ∀ a ∈ args, NUL ∉ a := fun a ha => hn a (by simp [ha])
    have hline : optionLine (arg :: args) ++ [NUL] =
        openVpnEscape arg ++ ' ' :: (optionLine args ++ [NUL]) := by
      simp [optionLine]
    rw [hline, scan_openVpnEscape _ _ harg]
    unfold readsAll
    cases reads arg with
    | error e => rfl
    | ok ws =>
      simp only [ih _ hargs]
      cases readsAll args <;> simp [Except.map]

theorem parseline_optionLine {args : List Text} (hn : ∀ a ∈ args, NUL ∉ a) :
    parseline (optionLine args) = readsAll args := by
  unfold parseline
  split_ifs with h
  · cases args with
    | nil => rfl
    | cons arg args => simp [optionLine] at h
  · have := scan_optionLine args [] hn
    rw [LineParser.start, this]
    cases readsAll args <;> simp [Except.map]

/-! ### When a parameter is read back -/

/-- The parameters that survive: a quoted one holds no line feed, and a backslash
    or quote only as its first character; an unquoted one holds no white space. -/
def ReadsBack (arg : Text) : Prop :=
  if quoted arg then '\n' ∉ arg ∧ BACKSLASH ∉ arg.tail ∧ QUOTE ∉ arg.tail
  else ∀ c ∈ arg, isWhitespace c = false

instance (arg : Text) : Decidable (ReadsBack arg) := by
  unfold ReadsBack; infer_instance

theorem length_stutter {out : Char} (hout : out ≠ NUL) {s : Text} (hn : NUL ∉ s) :
    (stutter out s).length =
      s.length + (s.filter fun c => c = BACKSLASH ∨ c = QUOTE).length := by
  induction s generalizing out with
  | nil => rfl
  | cons c cs ih =>
    rw [List.mem_cons, not_or] at hn
    have hcs := ih (Ne.symm hn.1) hn.2
    by_cases hesc : c = BACKSLASH ∨ c = QUOTE
    · simp [stutter, hesc, hout, hcs]; omega
    · simp [stutter, hesc, hcs]; omega

/-- A quoted parameter comes back unchanged when nothing after its first
    character needed a backslash. -/
theorem stutter_eq_self_iff {s : Text} (hn : NUL ∉ s) :
    stutter NUL s = s ↔ BACKSLASH ∉ s.tail ∧ QUOTE ∉ s.tail := by
  cases s with
  | nil => simp [stutter]
  | cons c cs =>
    rw [List.mem_cons, not_or] at hn
    have hlen := length_stutter (Ne.symm hn.1) hn.2
    constructor
    · intro h
      have htail : stutter c cs = cs := by simpa [stutter] using h
      rw [htail] at hlen
      have hnone : (cs.filter fun c => c = BACKSLASH ∨ c = QUOTE) = [] :=
        List.eq_nil_of_length_eq_zero (by omega)
      rw [List.filter_eq_nil_iff] at hnone
      simp only [decide_eq_true_eq, not_or] at hnone
      exact ⟨fun hb => (hnone _ hb).1 rfl, fun hq => (hnone _ hq).2 rfl⟩
    · rintro ⟨hb, hq⟩
      have hplain : ∀ (out : Char) (t : Text), BACKSLASH ∉ t → QUOTE ∉ t → stutter out t = t := by
        intro out t
        induction t generalizing out with
        | nil => intros; rfl
        | cons x xs ih =>
          intro hxb hxq
          rw [List.mem_cons, not_or] at hxb hxq
          simp [stutter, Ne.symm hxb.1, Ne.symm hxq.1, ih x hxb.2 hxq.2]
      simp [stutter, hplain c cs hb hq]

theorem mem_stutter {x : Char} {out : Char} {s : Text} (h : x ∈ s) : x ∈ stutter out s := by
  induction s generalizing out with
  | nil => cases h
  | cons c cs ih =>
    rcases List.mem_cons.mp h with rfl | h
    · simp [stutter]
    · simp [stutter, ih h]

/-- Words hold no white space, as long as the word being read holds none. -/
theorem space_not_mem_wordsFrom (cur s : Text) (hcur : ∀ c ∈ cur, space c = false) :
    ∀ w ∈ wordsFrom cur s, ∀ c ∈ w, space c = false := by
  induction s generalizing cur with
  | nil =>
    intro w hw c hc
    by_cases hnil : cur = []
    · simp [wordsFrom, hnil] at hw
    · simp only [wordsFrom, if_neg hnil, List.mem_singleton] at hw
      subst hw; exact hcur c hc
  | cons x xs ih =>
    intro w hw c hc
    by_cases hx : space x = true
    · simp only [wordsFrom, hx, if_true, List.mem_append] at hw
      rcases hw with hw | hw
      · by_cases hnil : cur = []
        · simp [hnil] at hw
        · simp only [if_neg hnil, List.mem_singleton] at hw
          subst hw; exact hcur c hc
      · exact ih [] (by simp) w hw c hc
    · simp only [wordsFrom, hx] at hw
      have hcur' : ∀ c ∈ cur ++ [x], space c = false := by
        intro d hd
        rcases List.mem_append.mp hd with hd | hd
        · exact hcur d hd
        · rw [List.mem_singleton.mp hd]; simpa using hx
      exact ih _ hcur' w hw c hc

theorem wordsFrom_of_no_space {cur s : Text} (hs : ∀ c ∈ s, space c = false)
    (hne : cur ++ s ≠ []) : wordsFrom cur s = [cur ++ s] := by
  induction s generalizing cur with
  | nil => simpa [wordsFrom] using hne
  | cons c cs ih =>
    have hc := hs c (by simp)
    simp only [wordsFrom, hc, Bool.false_eq_true, if_false]
    rw [ih (fun x hx => hs x (by simp [hx])) (by simp)]
    simp

/-- A parameter that would not be read back because of white space, seen as a
    result: `parseline` never yields such a parameter from an escaped line. -/
def Unquotable (arg : Text) : Prop := quoted arg = false ∧ ∃ c ∈ arg, space c = true

theorem not_unquotable_of_mem_reads {arg : Text} {ws : List Text} (h : reads arg = .ok ws) :
    ∀ w ∈ ws, ¬ Unquotable w := by
  intro w hw hun
  obtain ⟨hq, c, hc, hsp⟩ := hun
  unfold reads at h
  split_ifs at h with hquoted hnl
  · cases h
    rw [List.mem_singleton.mp hw] at hq
    simp only [quoted, Bool.or_eq_true, List.isEmpty_iff, List.any_eq_true] at hquoted
    rcases hquoted with rfl | ⟨x, hx, hspec⟩
    · simp [stutter, quoted] at hq
    · simp only [quoted, Bool.or_eq_false_iff, List.any_eq_false] at hq
      exact hq.2 x (mem_stutter hx) hspec
  · cases h
    have := space_not_mem_wordsFrom [] arg (by simp) w hw c hc
    rw [hsp] at this; cases this

theorem not_unquotable_of_mem_readsAll {args ws : List Text} (h : readsAll args = .ok ws) :
    ∀ w ∈ ws, ¬ Unquotable w := by
  induction args generalizing ws with
  | nil => cases h; simp
  | cons arg args ih =>
    unfold readsAll at h
    split at h <;> cases h
    rename_i ws' rest h1 h2
    intro w hw
    rcases List.mem_append.mp hw with hw | hw
    · exact not_unquotable_of_mem_reads h1 w hw
    · exact ih h2 w hw

theorem space_eq_isWhitespace {c : Char} (h : c ≠ NUL) : space c = isWhitespace c := by
  simp [space, h]

theorem reads_eq_self_iff {arg : Text} (hn : NUL ∉ arg) :
    reads arg = .ok [arg] ↔ ReadsBack arg := by
  have hne : ∀ c ∈ arg, c ≠ NUL := fun c hc h => hn (h ▸ hc)
  unfold reads ReadsBack
  by_cases hq : quoted arg = true
  · by_cases hnl : '\n' ∈ arg
    · simp [hq, hnl]
    · simp [hq, hnl, stutter_eq_self_iff hn]
  · simp only [hq, Bool.false_eq_true, if_false]
    constructor
    · intro h c hc
      have hw := space_not_mem_wordsFrom [] arg (by simp) arg
        (by rw [Except.ok.inj h]; simp) c hc
      rwa [space_eq_isWhitespace (hne c hc)] at hw
    · intro h
      have hnil : arg ≠ [] := by
        rintro rfl
        exact hq rfl
      rw [wordsFrom_of_no_space (fun c hc => by rw [space_eq_isWhitespace (hne c hc)]; exact h c hc)
        (by simpa using hnil)]
      simp

/-- The list comes back exactly when each parameter does. -/
theorem readsAll_eq_self_iff {args : List Text} (hn : ∀ a ∈ args, NUL ∉ a) :
    readsAll args = .ok args ↔ ∀ a ∈ args, ReadsBack a := by
  induction args with
  | nil => simp [readsAll]
  | cons arg args ih =>
    have harg := reads_eq_self_iff (hn arg (by simp))
    have hargs := ih fun a ha => hn a (by simp [ha])
    simp only [List.forall_mem_cons, ← harg, ← hargs]
    constructor
    · intro h
      unfold readsAll at h
      split at h <;> try cases h
      rename_i ws rest h1 h2
      injection h with h
      have hhead : ∀ w ∈ arg :: args, ¬ Unquotable w := by
        intro w hw
        rw [← h] at hw
        rcases List.mem_append.mp hw with hw | hw
        · exact not_unquotable_of_mem_reads h1 w hw
        · exact not_unquotable_of_mem_readsAll h2 w hw
      -- the first parameter is not one that white space would break up
      have hself : ws = [arg] := by
        unfold reads at h1
        split_ifs at h1 with hq hnl
        · cases h1
          rw [List.singleton_append, List.cons.injEq] at h
          rw [h.1]
        · injection h1 with h1
          have hno : ∀ c ∈ arg, space c = false := by
            intro c hc
            by_contra hsp
            exact hhead arg (by simp) ⟨by simpa using hq, c, hc, by simpa using hsp⟩
          have hnil : arg ≠ [] := by
            rintro rfl
            exact hq rfl
          rw [← h1, wordsFrom_of_no_space hno (by simpa using hnil), List.nil_append]
      subst hself
      rw [List.singleton_append, List.cons.injEq] at h
      exact ⟨h1, by rw [h2, h.2]⟩
    · rintro ⟨h1, h2⟩
      simp [readsAll, h1, h2]

/-- **When a written option line is read back.** -/
theorem parseline_optionLine_iff (args : List Text) (hn : ∀ a ∈ args, NUL ∉ a) :
    parseline (optionLine args) = .ok args ↔ ∀ a ∈ args, ReadsBack a := by
  rw [parseline_optionLine hn]
  exact readsAll_eq_self_iff hn

theorem parseline_optionLine_iff_user_pass :
    (∀ a ∈ (["setenv", "USER NAME", "it's #1"] : List Text), NUL ∉ a) ∧
      (parseline (optionLine ["setenv", "USER NAME", "it's #1"]) =
          .ok ["setenv", "USER NAME", "it's #1"] ↔
        ∀ a ∈ (["setenv", "USER NAME", "it's #1"] : List Text), ReadsBack a) :=
  ⟨by decide, parseline_optionLine_iff _ (by decide)⟩

/-- A quote inside a parameter is enough: `a"b` is read back as `aa"b`. -/
theorem parseline_optionLine_quote_inside :
    ¬ ∀ args : List Text, args ≠ [] → (∀ a ∈ args, NUL ∉ a) →
      parseline (optionLine args) = .ok args := by
  intro h
  have hread : parseline (optionLine [['a', QUOTE, 'b']]) = .ok [['a', 'a', QUOTE, 'b']] := by
    decide
  have hquote := h [['a', QUOTE, 'b']] (by simp) (by decide)
  rw [hread] at hquote
  exact absurd hquote (by decide)

end OpenVpnAndroid.ConfigParser
