/-
  OpenVpnAndroid/ParseParms.lean
  ==============================
  **`parse_line` of `options.c` with its limits**, as the management interface calls it.

  A parameter may have 256 characters and a line 16 parameters.  A word without
  anything special, a text in single quotes and what `openVpnEscape` writes are
  parameters (`Token`), and a line of tokens is read as their contents
  (`parse_line_tokens`).
-/
import OpenVpnAndroid.EscapeRoundTrip

namespace OpenVpnAndroid

namespace Options

open ConfigParser (special quoted escapeChar)

def MAX_PARMS : Nat := 16

def OPTION_PARM_SIZE : Nat := 256

/-- Why `parse_line` returns 0. -/
inductive ParmError where
  | line (e : LineError)
  | tooLong (parm : Text)
deriving DecidableEq, Repr

def finishParms (p : LineParser) : Except ParmError (List Text) := (finish p).mapError .line

def scanParms (p : LineParser) : Text → Except ParmError (List Text)
  | [] => finishParms p
  | c :: cs =>
      match step p c with
      | .comment => finishParms p
      | .badBackslash => .error (.line .badBackslash)
      | .next p' =>
          if OPTION_PARM_SIZE < p'.currentarg.length then .error (.tooLong p.currentarg)
          -- `avoid overflow if too many parms in one config file line`
          else if MAX_PARMS ≤ p'.parameters.length then finishParms p'
          else scanParms p' cs

/-- `parse_line(line, parms, MAX_PARMS, ...)` -/
def parse_parms (line : Text) : Except ParmError (List Text) := scanParms .start (line ++ [NUL])

/-- What `parse_line` says about a line of the management interface. -/
def ParmError.message : ParmError → Text
  | .line .badBackslash =>
      ("ERROR: Options warning: Bad backslash ('\\') usage in TCP:0: remember that " : Text)
        ++ ("backslashes are treated as shell-escapes and if you need to pass backslash " : Text)
        ++ ("characters as part of a Windows filename, you should use double backslashes " : Text)
        ++ ("such as \"c:\\\\openvpn\\\\static.key\"" : Text)
  | .line .noClosingQuote => "ERROR: Options error: No closing quotation (\") in TCP:0"
  | .line .noClosingSingleQuote => "ERROR: Options error: No closing single quotation (') in TCP:0"
  | .line .residualState => "ERROR: Options error: Residual parse state (2) in TCP:0"
  | .tooLong parm => ("ERROR: Options error: Parameter at TCP:0 is too long (256 chars max): "
      : Text) ++ parm.take (OPTION_PARM_SIZE - 1)

/-! ### One character -/

/-- Between two parameters. -/
def between (params : List Text) : LineParser := ⟨.initial, false, NUL, [], params⟩

variable {params : List Text} {cur rest : Text} {out c : Char}

theorem scanParms_next {p p' : LineParser} {c : Char} {cs : Text} (h : step p c = .next p')
    (hlen : p'.currentarg.length ≤ OPTION_PARM_SIZE) (hcount : p'.parameters.length < MAX_PARMS) :
    scanParms p (c :: cs) = scanParms p' cs := by
  rw [scanParms, h]
  dsimp only
  rw [if_neg (Nat.not_lt.mpr hlen), if_neg (Nat.not_le.mpr hcount)]

theorem scanParms_space (hc : space c = true) (hcount : params.length < MAX_PARMS) :
    scanParms (between params) (c :: rest) = scanParms (between params) rest := by
  have hb : c ≠ BACKSLASH := by
    rintro rfl
    exact absurd hc (by decide)
  refine scanParms_next ?_ (Nat.zero_le _) hcount
  simp [step, between, LineParser.iterate, startsEscape, readChar, LineParser.store, hb, hc]

theorem scanParms_initial (hc : special c = false) (hs : space c = false)
    (hcount : params.length < MAX_PARMS) :
    scanParms (between params) (c :: rest) =
      scanParms ⟨.readingUnquoted, false, c, [c], params⟩ rest := by
  have hn : c ≠ NUL := by
    rintro rfl
    exact absurd hs (by decide)
  simp only [special, Bool.or_eq_false_iff, beq_eq_false_iff_ne] at hc
  refine scanParms_next ?_ (by decide : 1 ≤ OPTION_PARM_SIZE) hcount
  simp [step, between, LineParser.iterate, startsEscape, readChar, LineParser.store, hc, hs, hn]

theorem scanParms_unquoted (hc : special c = false) (hs : space c = false)
    (hlen : cur.length < OPTION_PARM_SIZE) (hcount : params.length < MAX_PARMS) :
    scanParms ⟨.readingUnquoted, false, out, cur, params⟩ (c :: rest) =
      scanParms ⟨.readingUnquoted, false, c, cur ++ [c], params⟩ rest := by
  have hn : c ≠ NUL := by
    rintro rfl
    exact absurd hs (by decide)
  simp only [special, Bool.or_eq_false_iff, beq_eq_false_iff_ne] at hc
  refine scanParms_next ?_ (by simpa using hlen) hcount
  simp [step, LineParser.iterate, startsEscape, readChar, LineParser.store, hc, hs, hn]

theorem scanParms_unquoted_end (hs : space c = true) (hcount : params.length + 1 < MAX_PARMS) :
    scanParms ⟨.readingUnquoted, false, out, cur, params⟩ (c :: rest) =
      scanParms (between (params ++ [cur])) rest := by
  have hb : c ≠ BACKSLASH := by
    rintro rfl
    exact absurd hs (by decide)
  refine scanParms_next ?_ (Nat.zero_le _) (by simpa [between] using hcount)
  simp [step, between, LineParser.iterate, startsEscape, readChar, hb, hs]

theorem scanParms_open (state : LineState) (quote : Char)
    (h : (state, quote) = (.readingQuoted, QUOTE) ∨ (state, quote) = (.readinSingleQuote, APOSTROPHE))
    (hcount : params.length < MAX_PARMS) :
    scanParms (between params) (quote :: rest) =
      scanParms ⟨state, false, NUL, [], params⟩ rest := by
  refine scanParms_next ?_ (Nat.zero_le _) hcount
  rcases h with h | h <;> obtain ⟨rfl, rfl⟩ := Prod.mk.inj h <;> rfl

theorem scanParms_close (state : LineState) (quote : Char)
    (h : (state, quote) = (.readingQuoted, QUOTE) ∨ (state, quote) = (.readinSingleQuote, APOSTROPHE))
    (hcount : params.length + 1 < MAX_PARMS) :
    scanParms ⟨state, false, out, cur, params⟩ (quote :: rest) =
      scanParms (between (params ++ [cur])) rest := by
  refine scanParms_next ?_ (Nat.zero_le _) (by simpa [between] using hcount)
  rcases h with h | h <;> obtain ⟨rfl, rfl⟩ := Prod.mk.inj h <;> rfl

theorem scanParms_quoted_escape (hc : c = BACKSLASH ∨ c = QUOTE)
    (hlen : cur.length < OPTION_PARM_SIZE) (hcount : params.length < MAX_PARMS) :
    scanParms ⟨.readingQuoted, false, out, cur, params⟩ (BACKSLASH :: c :: rest) =
      scanParms ⟨.readingQuoted, false, c, cur ++ [c], params⟩ rest := by
  have hbackslash : step ⟨.readingQuoted, false, out, cur, params⟩ BACKSLASH =
      .next ⟨.readingQuoted, true, NUL, cur, params⟩ := rfl
  rw [scanParms_next hbackslash hlen.le hcount]
  refine scanParms_next ?_ (by simpa using hlen) hcount
  rcases hc with rfl | rfl <;>
    simp [step, LineParser.iterate, startsEscape, readChar, LineParser.store, mayEscape]

theorem scanParms_quoted_plain (hb : c ≠ BACKSLASH) (hq : c ≠ QUOTE) (hn : c ≠ NUL)
    (hlen : cur.length < OPTION_PARM_SIZE) (hcount : params.length < MAX_PARMS) :
    scanParms ⟨.readingQuoted, false, out, cur, params⟩ (c :: rest) =
      scanParms ⟨.readingQuoted, false, c, cur ++ [c], params⟩ rest := by
  refine scanParms_next ?_ (by simpa using hlen) hcount
  simp [step, LineParser.iterate, startsEscape, readChar, LineParser.store, hb, hq, hn]

theorem scanParms_singleQuoted (ha : c ≠ APOSTROPHE) (hn : c ≠ NUL)
    (hlen : cur.length < OPTION_PARM_SIZE) (hcount : params.length < MAX_PARMS) :
    scanParms ⟨.readinSingleQuote, false, out, cur, params⟩ (c :: rest) =
      scanParms ⟨.readinSingleQuote, false, c, cur ++ [c], params⟩ rest := by
  refine scanParms_next ?_ (by simpa using hlen) hcount
  simp [step, LineParser.iterate, startsEscape, readChar, LineParser.store, ha, hn]

/-! ### One parameter -/

/-- The text is read as one parameter when something that separates follows. -/
def Token (text parm : Text) : Prop :=
  ∀ (params : List Text) (x : Char) (rest : Text), space x = true → params.length + 1 < MAX_PARMS →
    scanParms (between params) (text ++ x :: rest) = scanParms (between (params ++ [parm])) rest

theorem token_word {word : Text} (hne : word ≠ []) (hplain : ∀ c ∈ word, special c = false)
    (hspace : ∀ c ∈ word, space c = false) (hlen : word.length ≤ OPTION_PARM_SIZE) :
    Token word word := by
  intro params x rest hx hcount
  -- the loop inside the word
  have hloop : ∀ (s cur : Text) (out : Char), (∀ c ∈ s, special c = false) →
      (∀ c ∈ s, space c = false) → cur.length + s.length ≤ OPTION_PARM_SIZE →
      scanParms ⟨.readingUnquoted, false, out, cur, params⟩ (s ++ x :: rest) =
        scanParms (between (params ++ [cur ++ s])) rest := by
    intro s
    induction s with
    | nil =>
        intro cur out _ _ _
        rw [List.nil_append, List.append_nil, scanParms_unquoted_end hx hcount]
    | cons c s ih =>
        intro cur out hplain hspace hlen
        obtain ⟨hc, hplain⟩ := List.forall_mem_cons.mp hplain
        obtain ⟨hs, hspace⟩ := List.forall_mem_cons.mp hspace
        rw [List.length_cons] at hlen
        rw [List.cons_append, scanParms_unquoted hc hs (by omega) (by omega),
          ih _ _ hplain hspace (by simp; omega), List.append_assoc, List.singleton_append]
  obtain ⟨c, s, rfl⟩ := List.exists_cons_of_ne_nil hne
  obtain ⟨hc, hplain⟩ := List.forall_mem_cons.mp hplain
  obtain ⟨hs, hspace⟩ := List.forall_mem_cons.mp hspace
  rw [List.length_cons] at hlen
  rw [List.cons_append, scanParms_initial hc hs (by omega),
    hloop s [c] c hplain hspace (by simp; omega), List.singleton_append]

theorem token_singleQuoted {text : Text} (hquote : APOSTROPHE ∉ text) (hn : NUL ∉ text)
    (hlen : text.length ≤ OPTION_PARM_SIZE) :
    Token (APOSTROPHE :: (text ++ [APOSTROPHE])) text := by
  intro params x rest hx hcount
  have hloop : ∀ (s cur : Text) (out : Char), APOSTROPHE ∉ s → NUL ∉ s →
      cur.length + s.length ≤ OPTION_PARM_SIZE →
      scanParms ⟨.readinSingleQuote, false, out, cur, params⟩ (s ++ APOSTROPHE :: x :: rest) =
        scanParms (between (params ++ [cur ++ s])) rest := by
    intro s
    induction s with
    | nil =>
        intro cur out _ _ _
        rw [List.nil_append, List.append_nil, scanParms_close _ _ (.inr rfl) hcount,
          scanParms_space hx (by simpa using hcount)]
    | cons c s ih =>
        intro cur out hquote hn hlen
        rw [List.mem_cons, not_or] at hquote hn
        rw [List.length_cons] at hlen
        rw [List.cons_append,
          scanParms_singleQuoted (Ne.symm hquote.1) (Ne.symm hn.1) (by omega) (by omega),
          ih _ _ hquote.2 hn.2 (by simp; omega), List.append_assoc, List.singleton_append]
  rw [List.cons_append, scanParms_open _ _ (.inr rfl) (by omega), List.append_assoc,
    List.singleton_append, hloop text [] NUL hquote hn (by simpa using hlen), List.nil_append]

/-- What `openVpnEscape` writes, if the text has no line break in it. -/
theorem token_openVpnEscape {arg : Text} (hnewline : '\n' ∉ arg) (hn : NUL ∉ arg)
    (hspace : ∀ c ∈ arg, space c = true → c = ' ') (hlen : arg.length ≤ OPTION_PARM_SIZE) :
    Token (VpnProfile.openVpnEscape arg) arg := by
  rw [ConfigParser.openVpnEscape_eq]
  by_cases hq : quoted arg = true
  · rw [if_pos hq]
    intro params x rest hx hcount
    have hloop : ∀ (s cur : Text) (out : Char), '\n' ∉ s → NUL ∉ s →
        cur.length + s.length ≤ OPTION_PARM_SIZE →
        scanParms ⟨.readingQuoted, false, out, cur, params⟩
            (s.flatMap escapeChar ++ QUOTE :: x :: rest) =
          scanParms (between (params ++ [cur ++ s])) rest := by
      intro s
      induction s with
      | nil =>
          intro cur out _ _ _
          rw [List.flatMap_nil, List.nil_append, List.append_nil,
            scanParms_close _ _ (.inl rfl) hcount, scanParms_space hx (by simpa using hcount)]
      | cons c s ih =>
          intro cur out hnewline hn hlen
          rw [List.mem_cons, not_or] at hnewline hn
          rw [List.length_cons] at hlen
          have hrest : ∀ out, scanParms ⟨.readingQuoted, false, out, cur ++ [c], params⟩
              (s.flatMap escapeChar ++ QUOTE :: x :: rest) =
              scanParms (between (params ++ [cur ++ c :: s])) rest := by
            intro out
            rw [ih _ out hnewline.2 hn.2 (by simp; omega), List.append_assoc,
              List.singleton_append]
          rw [List.flatMap_cons, List.append_assoc]
          by_cases hesc : c = BACKSLASH ∨ c = QUOTE
          · have hline : escapeChar c = [BACKSLASH, c] := by
              rcases hesc with rfl | rfl <;> decide
            rw [hline, List.cons_append, List.cons_append, List.nil_append,
              scanParms_quoted_escape hesc (by omega) (by omega), hrest]
          · rw [not_or] at hesc
            have hline : escapeChar c = [c] := by
              simp [escapeChar, hesc, Ne.symm hnewline.1]
            rw [hline, List.singleton_append,
              scanParms_quoted_plain hesc.1 hesc.2 (Ne.symm hn.1) (by omega) (by omega), hrest]
    rw [List.cons_append, scanParms_open _ _ (.inl rfl) (by omega), List.append_assoc,
      List.singleton_append, hloop arg [] NUL hnewline hn (by simpa using hlen), List.nil_append]
  · rw [if_neg hq]
    simp only [quoted, Bool.or_eq_true, not_or, List.any_eq_true, not_exists, not_and,
      Bool.not_eq_true, List.isEmpty_eq_false_iff] at hq
    refine token_word hq.1 hq.2 (fun c hc => ?_) hlen
    by_contra hs
    rw [Bool.not_eq_false] at hs
    have hspec := hq.2 c hc
    rw [hspace c hc hs] at hspec
    exact absurd hspec (by decide)

/-! ### The characters of the parameters -/

/-- What has been read so far consists of such characters. -/
def Within (S : Char → Prop) (p : LineParser) : Prop :=
  (∀ x ∈ p.currentarg, S x) ∧ ∀ q ∈ p.parameters, ∀ x ∈ q, S x

theorem readChar_out {state state' : LineState} {backslash : Bool} {o : Char}
    (h : readChar space state backslash c NUL = some (state', o)) : o = NUL ∨ o = c := by
  cases state with
  | done => simp_all [readChar]
  | _ =>
      simp only [readChar] at h
      split_ifs at h <;> simp_all

theorem Within.store {S : Char → Prop} {p : LineParser} (h : Within S p)
    (hout : p.out ≠ NUL → S p.out) : Within S p.store := by
  rw [LineParser.store]
  split
  · exact h
  · next hne =>
      refine ⟨fun x hx => ?_, h.2⟩
      rcases List.mem_append.mp hx with hx | hx
      · exact h.1 x hx
      · rw [List.mem_singleton.mp hx]
        exact hout hne

/-- A step stores nothing but its own character. -/
theorem Within.step {S : Char → Prop} {p p' : LineParser} (h : Within S p) (hc : c ≠ NUL → S c)
    (hstep : step p c = .next p') : Within S p' := by
  rw [Options.step, LineParser.iterate] at hstep
  dsimp only at hstep
  split at hstep
  · obtain rfl := LineStep.next.inj hstep
    exact Within.store ⟨h.1, h.2⟩ fun hne => absurd rfl hne
  · split at hstep
    · cases hstep
    · obtain rfl := LineStep.next.inj hstep
      refine ⟨fun x hx => absurd hx List.not_mem_nil, fun q hq => ?_⟩
      rcases List.mem_append.mp hq with hq | hq
      · exact h.2 q hq
      · rw [List.mem_singleton.mp hq]
        exact h.1
    · next hread =>
        split at hstep
        · cases hstep
        · obtain rfl := LineStep.next.inj hstep
          refine Within.store ⟨h.1, h.2⟩ fun hne => ?_
          rcases readChar_out hread with hout | hout
          · exact absurd hout hne
          · dsimp only at hne ⊢
            rw [hout] at hne ⊢
            exact hc hne

theorem Within.scanParms {S : Char → Prop} {cs : Text} {p : LineParser} {parms : List Text}
    (h : Within S p) (hcs : ∀ x ∈ cs, x ≠ NUL → S x) (hok : scanParms p cs = .ok parms) :
    ∀ q ∈ parms, ∀ x ∈ q, S x := by
  have hfinish : ∀ p : LineParser, Within S p → finishParms p = .ok parms →
      ∀ q ∈ parms, ∀ x ∈ q, S x := by
    intro p hp hok
    rw [finishParms, finish] at hok
    split at hok
    · cases hok
    · cases hok
    · obtain rfl := Except.ok.inj hok
      exact hp.2
    · cases hok
  induction cs generalizing p with
  | nil => exact hfinish p h hok
  | cons c cs ih =>
      obtain ⟨hc, hcs⟩ := List.forall_mem_cons.mp hcs
      rw [Options.scanParms] at hok
      split at hok
      · exact hfinish p h hok
      · cases hok
      · next p' hstep =>
          have hp' := h.step hc hstep
          split_ifs at hok
          · exact hfinish p' hp' hok
          · exact ih hp' hcs hok

/-- Nothing comes into a parameter that is not in the line. -/
theorem mem_of_mem_parms {line : Text} {parms : List Text} (h : parse_parms line = .ok parms) :
    ∀ q ∈ parms, q ⊆ line := by
  refine Within.scanParms (S := fun x => x ∈ line) (p := .start) ?_ (fun x hx hne => ?_) h
  · exact ⟨fun x hx => absurd hx List.not_mem_nil, fun q hq => absurd hq List.not_mem_nil⟩
  · rcases List.mem_append.mp hx with hx | hx
    · exact hx
    · exact absurd (List.mem_singleton.mp hx) hne

/-! ### One line -/

/-- The tokens of a line, with blanks between them. -/
def tokenLine (texts : List Text) : Text := List.intercalate [' '] texts

/-- A line of tokens is read as what they stand for. -/
theorem parse_parms_tokens {texts parms : List Text} (h : List.Forall₂ Token texts parms)
    (hcount : parms.length < MAX_PARMS) : parse_parms (tokenLine texts) = .ok parms := by
  have hline : ∀ params : List Text, params.length + parms.length < MAX_PARMS →
      scanParms (between params) (tokenLine texts ++ [NUL]) = .ok (params ++ parms) := by
    clear hcount
    induction h with
    | nil =>
        intro params hcount
        rw [tokenLine, List.intercalate_nil, List.nil_append, List.append_nil,
          scanParms_space rfl hcount]
        rfl
    | @cons text parm texts parms htoken hrest ih =>
        intro params hcount
        rw [List.length_cons] at hcount
        cases hrest with
        | nil =>
            rw [tokenLine, List.intercalate_singleton, htoken params NUL [] rfl (by simpa using hcount)]
            rfl
        | @cons text' parm' texts' parms' htoken' hrest' =>
            have hcons : tokenLine (text :: text' :: texts') =
                text ++ ' ' :: tokenLine (text' :: texts') := by
              rw [tokenLine, List.intercalate_cons_cons]
              simp [tokenLine]
            rw [hcons, List.append_assoc, List.cons_append,
              htoken params ' ' _ (by decide) (by omega), ih _ (by simp at hcount ⊢; omega),
              List.append_assoc, List.singleton_append]
  exact hline [] (by simpa using hcount)

end Options

end OpenVpnAndroid
