/-
  OpenVpnAndroid/ParseLinePort.lean
  =================================
  **`parseline` against `parse_line`.**

  The two parsers are compared through the quoting context of a line
  (`LexPos`), which depends on the line and on the white space only and stores
  no text.  Four things can happen on the way:

    * a bad escape, which both parsers reject;
    * an escape after a character of the same parameter has been stored: the
      port stores that character twice;
    * a line that ends inside a parameter: `parse_line` rejects it, the port
      drops the parameter and accepts;
    * one of the ASCII separators 0x1c..0x1f outside quotes: white space for
      `Character.isWhitespace`, an ordinary character for `isspace`.

  Without the last one the two parsers walk in step (`lockstep`), and they
  agree exactly when a bad escape is met or neither of the other two is.
-/
import OpenVpnAndroid.ParseLine

namespace OpenVpnAndroid

/-! ### The quoting context of a line -/

/-- A position in a line: the parser state, whether a backslash is pending, and
    whether the parameter being read has a character already. -/
structure LexPos where
  state : LineState
  backslash : Bool
  stored : Bool
deriving DecidableEq, Repr

def LexPos.start : LexPos := ⟨.initial, false, false⟩

/-- The position after `c`; `none` at a comment. -/
def LexPos.advance (space : Char → Bool) (q : LexPos) (c : Char) : Option LexPos :=
  if startsEscape q.state q.backslash c then some { q with backslash := true }
  else
    match readChar space q.state q.backslash c NUL with
    | none => none
    | some (.done, _) => some .start
    | some (state, out) => some ⟨state, false, q.stored || out != NUL⟩

/-- Does `P` hold at some character before a comment? -/
def meets (space : Char → Bool) (P : LexPos → Char → Bool) (q : LexPos) : Text → Bool
  | [] => false
  | c :: cs =>
      P q c ||
        match q.advance space c with
        | none => false
        | some q' => meets space P q' cs

/-- Does the text end inside a parameter: in quotes, or after a backslash? -/
def endsOpen (space : Char → Bool) (q : LexPos) : Text → Bool
  | [] => q.state == .readingQuoted || q.state == .readinSingleQuote
      || (q.state == .readingUnquoted && q.backslash)
  | c :: cs =>
      match q.advance space c with
      | none => false
      | some q' => endsOpen space q' cs

/-- A character after a backslash that may not be escaped. -/
def badEscape (space : Char → Bool) (q : LexPos) (c : Char) : Bool :=
  !startsEscape q.state q.backslash c && q.backslash &&
    match readChar space q.state q.backslash c NUL with
    | none => false
    | some (_, out) => out != NUL && !mayEscape space out

/-- An escape that follows a stored character of the same parameter. -/
def midEscape (q : LexPos) (c : Char) : Bool :=
  startsEscape q.state q.backslash c && q.stored

/-- The ASCII characters on which `Character.isWhitespace` and `isspace` differ. -/
def separator (c : Char) : Bool := 28 ≤ c.toNat && c.toNat ≤ 31

def exposedSeparator (q : LexPos) (c : Char) : Bool :=
  separator c && (q.state == .initial || q.state == .readingUnquoted || q.backslash)

/-! ### One iteration -/

section Iterate

variable {space : Char → Bool} {p : LineParser} {q : LexPos} {c : Char}

/-- What becomes of a character: a comment, nothing, the end of the parameter, or it is
    a character of one. -/
theorem readChar_cases {state : LineState} {backslash : Bool} (hd : state ≠ .done) :
    (state = .initial ∧ ∀ out, readChar space state backslash c out = none) ∨
      (∃ state', state = .initial ∧ state' ≠ .done ∧
        ∀ out, readChar space state backslash c out = some (state', out)) ∨
      (state ≠ .initial ∧ ∀ out, readChar space state backslash c out = some (.done, out)) ∨
      ∃ state', state' ≠ .initial ∧ state' ≠ .done ∧
        ∀ out, readChar space state backslash c out = some (state', c) := by
  cases state with
  | initial =>
    by_cases hspace : space c = true
    · exact .inr (.inl ⟨.initial, rfl, by decide, fun out => if_pos hspace⟩)
    by_cases hcomment : c = ';' ∨ c = '#'
    · exact .inl ⟨rfl, fun out => by simp only [readChar, if_neg hspace, if_pos hcomment]⟩
    by_cases hquote : backslash = false ∧ c = QUOTE
    · exact .inr (.inl ⟨.readingQuoted, rfl, by decide, fun out => by
        simp only [readChar, if_neg hspace, if_neg hcomment, if_pos hquote]⟩)
    by_cases hsingle : backslash = false ∧ c = APOSTROPHE
    · exact .inr (.inl ⟨.readinSingleQuote, rfl, by decide, fun out => by
        simp only [readChar, if_neg hspace, if_neg hcomment, if_neg hquote, if_pos hsingle]⟩)
    · exact .inr (.inr (.inr ⟨.readingUnquoted, by decide, by decide, fun out => by
        simp only [readChar, if_neg hspace, if_neg hcomment, if_neg hquote, if_neg hsingle]⟩))
  | readingUnquoted =>
    by_cases hend : backslash = false ∧ space c = true
    · exact .inr (.inr (.inl ⟨by decide, fun out => if_pos hend⟩))
    · exact .inr (.inr (.inr ⟨.readingUnquoted, by decide, by decide, fun out => if_neg hend⟩))
  | readingQuoted =>
    by_cases hend : backslash = false ∧ c = QUOTE
    · exact .inr (.inr (.inl ⟨by decide, fun out => if_pos hend⟩))
    · exact .inr (.inr (.inr ⟨.readingQuoted, by decide, by decide, fun out => if_neg hend⟩))
  | readinSingleQuote =>
    by_cases hend : c = APOSTROPHE
    · exact .inr (.inr (.inl ⟨by decide, fun out => if_pos hend⟩))
    · exact .inr (.inr (.inr ⟨.readinSingleQuote, by decide, by decide, fun out => if_neg hend⟩))
  | done => exact absurd rfl hd

theorem LineParser.iterate_of_read {state : LineState} {out : Char}
    (hesc : startsEscape p.state p.backslash c = false)
    (hread : readChar space p.state p.backslash c p.out = some (state, out)) (hd : state ≠ .done) :
    p.iterate space c =
      if p.backslash = true ∧ out ≠ NUL ∧ mayEscape space out = false then .badBackslash
      else .next { p with state := state, backslash := false, out := out }.store := by
  rw [iterate, hesc, if_neg Bool.false_ne_true, hread]
  cases state with
  | done => exact absurd rfl hd
  | _ => rfl

theorem LexPos.advance_of_read {state : LineState} {out : Char}
    (hesc : startsEscape q.state q.backslash c = false)
    (hread : readChar space q.state q.backslash c NUL = some (state, out)) (hd : state ≠ .done) :
    q.advance space c = some ⟨state, false, q.stored || out != NUL⟩ := by
  rw [advance, hesc, if_neg Bool.false_ne_true, hread]
  cases state with
  | done => exact absurd rfl hd
  | _ => rfl

/-- The loop variables `p` are at the position `q`. -/
structure At (q : LexPos) (p : LineParser) : Prop where
  state : p.state = q.state
  backslash : p.backslash = q.backslash
  notDone : q.state ≠ .done
  gap : q.state = .initial → p.currentarg = [] ∧ q.stored = false

theorem At.start : At .start .start := ⟨rfl, rfl, by decide, fun _ => ⟨rfl, rfl⟩⟩

theorem At.out_irrelevant (h : At q p) (out : Char) : At q { p with out := out } :=
  ⟨h.state, h.backslash, h.notDone, h.gap⟩

/-- The number of characters stored so far. -/
def LineParser.weight (p : LineParser) : Nat :=
  (p.parameters.map List.length).sum + p.currentarg.length

/-- What one iteration does at a position, for any value of `out`: it keeps the
    position, and it stores `out` at the start of an escape and `c` when `c`
    belongs to a parameter. -/
inductive Iterates (space : Char → Bool) (q : LexPos) (p : LineParser) (c : Char) :
    LineStep LineParser → Prop where
  | escape (hesc : startsEscape q.state q.backslash c = true) :
      Iterates space q p c (.next { p with backslash := true }.store)
  | comment (hadv : q.advance space c = none) (hstate : q.state = .initial) :
      Iterates space q p c .comment
  | closed (hesc : startsEscape q.state q.backslash c = false)
      (hadv : q.advance space c = some .start) (hq : q.state ≠ .initial)
      (hbad : badEscape space q c = false) :
      Iterates space q p c (.next ⟨.initial, false, NUL, [], p.parameters ++ [p.currentarg]⟩)
  | bad (hbad : badEscape space q c = true) : Iterates space q p c .badBackslash
  | skipped {state : LineState} (hesc : startsEscape q.state q.backslash c = false)
      (hadv : q.advance space c = some ⟨state, false, false⟩) (hq : q.state = .initial)
      (hd : state ≠ .done) (hbad : badEscape space q c = false) :
      Iterates space q p c (.next { p with state := state, backslash := false })
  | stored {state : LineState} (hesc : startsEscape q.state q.backslash c = false)
      (hadv : q.advance space c = some ⟨state, false, true⟩)
      (hstate : state ≠ .initial ∧ state ≠ .done) (hbad : badEscape space q c = false) :
      Iterates space q p c
        (.next { p with state := state, backslash := false, out := c,
                        currentarg := p.currentarg ++ [c] })

theorem iterate_iterates (space : Char → Bool) (h : At q p) (hout : q.state = .initial → p.out = NUL)
    (hc : c ≠ NUL) : Iterates space q p c (p.iterate space c) := by
  obtain ⟨pstate, pbackslash, pout, cur, params⟩ := p
  obtain rfl : pstate = q.state := h.state
  obtain rfl : pbackslash = q.backslash := h.backslash
  by_cases hesc : startsEscape q.state q.backslash c = true
  · rw [LineParser.iterate, if_pos hesc]
    exact .escape hesc
  rw [Bool.not_eq_true] at hesc
  have hnext : ¬startsEscape q.state q.backslash c = true := by simp [hesc]
  rcases @readChar_cases space c q.state q.backslash h.notDone with
    ⟨hq, hread⟩ | ⟨state, hq, hd, hread⟩ | ⟨hq, hread⟩ | ⟨state, hi, hd, hread⟩
  · -- a comment
    rw [LineParser.iterate, if_neg hnext, hread]
    exact .comment (by simp [LexPos.advance, hesc, hread]) hq
  · -- a blank or an opening quote
    obtain rfl : pout = NUL := hout hq
    have hadv := LexPos.advance_of_read hesc (hread NUL) hd
    rw [(h.gap hq).2] at hadv
    rw [LineParser.iterate_of_read hesc (hread NUL) hd, if_neg (fun hbad => hbad.2.1 rfl)]
    exact .skipped hesc hadv hq hd (by simp [badEscape, hesc, hread])
  · -- a blank or a closing quote
    rw [LineParser.iterate, if_neg hnext, hread]
    exact .closed hesc (by simp [LexPos.advance, hesc, hread]) hq (by simp [badEscape, hesc, hread])
  · -- a character of a parameter
    have hadv := LexPos.advance_of_read hesc (hread NUL) hd
    rw [show (q.stored || c != NUL) = true by simp [hc]] at hadv
    have hbad : badEscape space q c = true ↔
        q.backslash = true ∧ c ≠ NUL ∧ mayEscape space c = false := by
      simp [badEscape, hesc, hread, hc]
    rw [LineParser.iterate_of_read hesc (hread pout) hd]
    by_cases hreject : badEscape space q c = true
    · rw [if_pos (hbad.mp hreject)]
      exact .bad hreject
    · rw [if_neg (fun hb => hreject (hbad.mpr hb)), LineParser.store, if_neg hc]
      exact .stored hesc hadv ⟨hi, hd⟩ (by simpa using hreject)

/-- A character that begins a comment is no bad escape. -/
theorem badEscape_of_comment (hadv : q.advance space c = none) : badEscape space q c = false := by
  rw [LexPos.advance] at hadv
  split_ifs at hadv with hesc
  cases hread : readChar space q.state q.backslash c NUL with
  | none => simp [badEscape, hread]
  | some r =>
    obtain ⟨state, out⟩ := r
    rw [hread] at hadv
    cases state with
    | _ => cases hadv

/-- In the port `out` is set exactly when the current parameter has a character. -/
def Carries (q : LexPos) (p : LineParser) : Prop := p.out = NUL ↔ q.stored = false

theorem Carries.start : Carries .start .start := by
  simp [Carries, LexPos.start, LineParser.start]

theorem Carries.gap (hcar : Carries q p) (h : At q p) : q.state = .initial → p.out = NUL :=
  fun hq => hcar.mpr (h.gap hq).2

@[simp] theorem LineParser.store_state (p : LineParser) : p.store.state = p.state := by
  unfold store; split_ifs <;> rfl
@[simp] theorem LineParser.store_backslash (p : LineParser) :
    p.store.backslash = p.backslash := by
  unfold store; split_ifs <;> rfl
@[simp] theorem LineParser.store_out (p : LineParser) : p.store.out = p.out := by
  unfold store; split_ifs <;> rfl
@[simp] theorem LineParser.store_parameters (p : LineParser) :
    p.store.parameters = p.parameters := by
  unfold store; split_ifs <;> rfl
theorem LineParser.store_currentarg (p : LineParser) :
    p.store.currentarg = p.currentarg ++ if p.out = NUL then [] else [p.out] := by
  unfold store; split_ifs <;> simp

/-- An iteration that goes on moves the loop variables to the next position. -/
theorem Iterates.next_at {p' : LineParser} (hi : Iterates space q p c (.next p')) (h : At q p)
    (hout : q.state = .initial → p.out = NUL) :
    ∃ q', q.advance space c = some q' ∧ At q' p' ∧ badEscape space q c = false ∧
      (Carries q p → c ≠ NUL → Carries q' p') := by
  cases hi with
  | escape hesc =>
    refine ⟨{ q with backslash := true }, by simp [LexPos.advance, hesc], ⟨?_, ?_, ?_, ?_⟩, ?_, ?_⟩
    · simpa using h.state
    · simp
    · exact h.notDone
    · intro hq
      simp [LineParser.store_currentarg, hout hq, (h.gap hq).1, (h.gap hq).2]
    · simp [badEscape, hesc]
    · intro hcar _
      simpa [Carries] using hcar
  | closed hesc hadv _ hbad =>
    exact ⟨_, hadv, ⟨rfl, rfl, by decide, fun _ => ⟨rfl, rfl⟩⟩, hbad,
      fun _ _ => by simp [Carries, LexPos.start]⟩
  | @skipped state hesc hadv hq hd hbad =>
    refine ⟨_, hadv, ⟨rfl, rfl, hd, fun _ => ⟨(h.gap hq).1, rfl⟩⟩, hbad, fun _ _ => ?_⟩
    simp [Carries, hout hq]
  | @stored state hesc hadv hstate hbad =>
    refine ⟨_, hadv, ⟨rfl, rfl, hstate.2, fun hq => absurd hq hstate.1⟩, hbad, fun _ hc => ?_⟩
    simp [Carries, hc]

end Iterate

/-! ### When the parsers reject -/

/-- The parameters when the line ends here outside quotes. -/
def LineParser.flushed (p : LineParser) : List Text :=
  if p.state = .readingUnquoted then p.parameters ++ [p.currentarg] else p.parameters

/-- The last iteration of the C loop, with its NUL, and the checks after it. -/
theorem Options.scan_nul {q : LexPos} {p : LineParser} (h : At q p) :
    (endsOpen Options.space q [] = true → ∃ e, Options.scan p [NUL] = .error e) ∧
      (endsOpen Options.space q [] = false → Options.scan p [NUL] = .ok p.flushed) := by
  obtain ⟨state, backslash, out, cur, params⟩ := p
  obtain rfl : state = q.state := h.state
  obtain rfl : backslash = q.backslash := h.backslash
  have hd := h.notDone
  cases hs : q.state <;> cases hb : q.backslash <;>
    simp_all [Options.scan, Options.step, LineParser.iterate, startsEscape, readChar, endsOpen,
      Options.space, finish, LineParser.store, LineParser.flushed, NUL, BACKSLASH, QUOTE,
      APOSTROPHE]

/-- The last iteration of the Java loop: nothing is checked. -/
theorem ConfigParser.scan_nul {q : LexPos} {p : LineParser} (h : At q p)
    (hout : q.state = .initial → p.out = NUL) :
    ∃ ps, ConfigParser.scan p [NUL] = .ok ps ∧
      (endsOpen Options.space q [] = false → ps = p.flushed) := by
  obtain ⟨state, backslash, out, cur, params⟩ := p
  obtain rfl : state = q.state := h.state
  obtain rfl : backslash = q.backslash := h.backslash
  have hd := h.notDone
  cases hs : q.state <;> cases hb : q.backslash <;>
    simp_all [ConfigParser.scan, ConfigParser.step, LineParser.iterate, startsEscape, readChar,
      endsOpen, ConfigParser.space, LineParser.store, LineParser.flushed, NUL, BACKSLASH, QUOTE,
      APOSTROPHE]

/-- `parse_line` rejects a line that has a bad escape or ends inside a parameter. -/
theorem Options.scan_error_iff (cs : Text) {q : LexPos} {p : LineParser} (h : At q p)
    (hn : NUL ∉ cs) :
    (∃ e, Options.scan p (cs ++ [NUL]) = .error e) ↔
      meets Options.space (badEscape Options.space) q cs = true ∨
        endsOpen Options.space q cs = true := by
  induction cs generalizing q p with
  | nil =>
    obtain ⟨hopen, hclosed⟩ := Options.scan_nul h
    by_cases he : endsOpen Options.space q [] = true
    · simp [meets, he, hopen he]
    · simp [meets, he, hclosed (by simpa using he)]
  | cons c cs ih =>
    rw [List.mem_cons, not_or] at hn
    have hit := iterate_iterates Options.space (h.out_irrelevant NUL)
      (fun _ => rfl) (Ne.symm hn.1)
    rw [List.cons_append]
    unfold Options.scan Options.step
    generalize hstep : ({ p with out := NUL } : LineParser).iterate Options.space c = r at hit
    cases r with
    | next p' =>
      obtain ⟨q', hadv, hat, hbad, -⟩ := hit.next_at (h.out_irrelevant NUL) fun _ => rfl
      simp only [ih hat hn.2, meets, hbad, hadv, endsOpen, Bool.false_or]
    | comment =>
      cases hit with
      | comment hadv hq =>
        have hfin : finish { p with out := NUL } = .ok p.parameters := by
          have := h.state.trans hq
          simp [finish, this]
        have hbad := badEscape_of_comment hadv
        have hfin' : finish p = .ok p.parameters := hfin
        simp [hfin', meets, hbad, hadv, endsOpen]
    | badBackslash =>
      cases hit with
      | bad hbad => simp [meets, hbad]

/-- `parseline` rejects a line that has a bad escape, and no other line. -/
theorem ConfigParser.scan_error_iff (cs : Text) {q : LexPos} {p : LineParser} (h : At q p)
    (hcar : Carries q p) (hn : NUL ∉ cs) :
    (∃ e, ConfigParser.scan p (cs ++ [NUL]) = .error e) ↔
      meets ConfigParser.space (badEscape ConfigParser.space) q cs = true := by
  induction cs generalizing q p with
  | nil =>
    obtain ⟨ps, hps, -⟩ := ConfigParser.scan_nul h (hcar.gap h)
    simp [meets, hps]
  | cons c cs ih =>
    rw [List.mem_cons, not_or] at hn
    have hit := iterate_iterates ConfigParser.space h (hcar.gap h) (Ne.symm hn.1)
    rw [List.cons_append]
    unfold ConfigParser.scan ConfigParser.step
    generalize hstep : p.iterate ConfigParser.space c = r at hit
    cases r with
    | next p' =>
      obtain ⟨q', hadv, hat, hbad, hcar'⟩ := hit.next_at h (hcar.gap h)
      simp only [ih hat (hcar' hcar (Ne.symm hn.1)) hn.2, meets, hbad, hadv, Bool.false_or]
    | comment =>
      cases hit with
      | comment hadv hq =>
        have hbad := badEscape_of_comment hadv
        simp [meets, hbad, hadv]
    | badBackslash =>
      cases hit with
      | bad hbad => simp [meets, hbad]

/-! ### The two loops in step -/

theorem readChar_congr {space space' : Char → Bool} {c : Char} (h : space c = space' c)
    (state : LineState) (backslash : Bool) (out : Char) :
    readChar space state backslash c out = readChar space' state backslash c out := by
  cases state <;> simp [readChar, h]

theorem space_agree {c : Char} (hc : c.toNat < 128) (hs : separator c = false) :
    ConfigParser.space c = Options.space c := by
  have hblank : (c == ' ') = decide (c.toNat = 32) := by
    rw [Bool.beq_eq_decide_eq]
    exact decide_eq_decide.mpr (by rw [Char.ext_iff, ← UInt32.toNat_inj]; rfl)
  simp only [separator, Bool.and_eq_false_iff, decide_eq_false_iff_not] at hs
  unfold ConfigParser.space Options.space isWhitespace
  rw [hblank, Bool.eq_iff_iff]
  by_cases hn : c = NUL
  · simp [hn]
  · simp only [Bool.or_eq_true, Bool.and_eq_true, decide_eq_true_eq, beq_iff_eq, bne_iff_ne, hn,
      or_false, false_or]
    omega

/-- Where a separator is not exposed, the two notions of white space read a
    character alike. -/
theorem readChar_agree {q : LexPos} {c : Char} (hd : q.state ≠ .done) (hc : c.toNat < 128)
    (hexp : exposedSeparator q c = false) :
    (∀ out, readChar ConfigParser.space q.state q.backslash c out =
        readChar Options.space q.state q.backslash c out) ∧
      (q.backslash = true →
        mayEscape ConfigParser.space c = mayEscape Options.space c) := by
  by_cases hs : separator c = true
  · simp only [exposedSeparator, hs, Bool.true_and, Bool.or_eq_false_iff,
      beq_eq_false_iff_ne] at hexp
    obtain ⟨⟨hinitial, hunquoted⟩, hbackslash⟩ := hexp
    refine ⟨fun out => ?_, fun hb => absurd hb (by simp [hbackslash])⟩
    -- inside quotes white space is not asked for
    cases hq : q.state with
    | initial => exact absurd hq hinitial
    | readingUnquoted => exact absurd hq hunquoted
    | readingQuoted => rfl
    | readinSingleQuote => rfl
    | done => exact absurd hq hd
  · have hsp := space_agree hc (by simpa using hs)
    exact ⟨fun out => readChar_congr hsp _ _ _, fun _ => by rw [mayEscape, mayEscape, hsp]⟩

theorem iterate_agree {q : LexPos} {p : LineParser} {c : Char} (h : At q p)
    (hout : q.state = .initial → p.out = NUL) (hc : c.toNat < 128)
    (hexp : exposedSeparator q c = false) :
    p.iterate ConfigParser.space c = p.iterate Options.space c ∧
      q.advance ConfigParser.space c = q.advance Options.space c ∧
      badEscape ConfigParser.space q c = badEscape Options.space q c := by
  obtain ⟨state, backslash, out, cur, params⟩ := p
  obtain rfl : state = q.state := h.state
  obtain rfl : backslash = q.backslash := h.backslash
  obtain ⟨hread, hmay⟩ := readChar_agree h.notDone hc hexp
  have hcases := @readChar_cases Options.space c q.state q.backslash h.notDone
  refine ⟨?_, by simp only [LexPos.advance, hread], ?_⟩
  · by_cases hesc : startsEscape q.state q.backslash c = true
    · rw [LineParser.iterate, LineParser.iterate, if_pos hesc, if_pos hesc]
    rw [Bool.not_eq_true] at hesc
    rcases hcases with ⟨-, hC⟩ | ⟨state, hq, hd, hC⟩ | ⟨-, hC⟩ | ⟨state, -, hd, hC⟩
    · simp only [LineParser.iterate, hread, hC]
    · obtain rfl : out = NUL := hout hq
      rw [LineParser.iterate_of_read hesc ((hread NUL).trans (hC NUL)) hd,
        LineParser.iterate_of_read hesc (hC NUL) hd, if_neg (fun hb => hb.2.1 rfl),
        if_neg (fun hb => hb.2.1 rfl)]
    · simp only [LineParser.iterate, hread, hC]
    · rw [LineParser.iterate_of_read hesc ((hread out).trans (hC out)) hd,
        LineParser.iterate_of_read hesc (hC out) hd]
      by_cases hb : q.backslash = true
      · rw [hmay hb]
      · rw [if_neg (fun hbad => hb hbad.1), if_neg (fun hbad => hb hbad.1)]
  · by_cases hb : q.backslash = true
    · rcases hcases with ⟨-, hC⟩ | ⟨state, -, -, hC⟩ | ⟨-, hC⟩ | ⟨state, -, -, hC⟩
      · simp only [badEscape, hread, hC]
      · simp [badEscape, hread, hC]
      · simp [badEscape, hread, hC]
      · simp only [badEscape, hread, hC, hmay hb]
    · simp [badEscape, hb]

/-- One iteration of each loop at the same position.  The weights differ by one
    more exactly when the port stores a character twice. -/
theorem iterate_pair {q : LexPos} {pJ pC : LineParser} {c : Char} (hJ : At q pJ) (hC : At q pC)
    (hcar : Carries q pJ) (hc : c.toNat < 128) (hn : c ≠ NUL)
    (hexp : exposedSeparator q c = false) (hbad : badEscape Options.space q c = false) :
    (ConfigParser.step pJ c = .comment ∧ Options.step pC c = .comment ∧
        q.advance Options.space c = none ∧ q.state = .initial) ∨
      ∃ pJ' pC' q', ConfigParser.step pJ c = .next pJ' ∧ Options.step pC c = .next pC' ∧
        q.advance Options.space c = some q' ∧ At q' pJ' ∧ At q' pC' ∧ Carries q' pJ' ∧
        pJ'.weight + pC.weight =
          pC'.weight + pJ.weight + (if midEscape q c = true then 1 else 0) ∧
        (midEscape q c = false → pJ.parameters = pC.parameters →
          pJ.currentarg = pC.currentarg →
          pJ'.parameters = pC'.parameters ∧ pJ'.currentarg = pC'.currentarg) := by
  have hitJ := iterate_iterates Options.space hJ (hcar.gap hJ) hn
  have hitC := iterate_iterates Options.space (hC.out_irrelevant NUL)
    (fun _ => rfl) hn
  have hsame : ConfigParser.step pJ c = pJ.iterate Options.space c :=
    (iterate_agree hJ (hcar.gap hJ) hc hexp).1
  rw [hsame]
  unfold Options.step
  generalize pJ.iterate Options.space c = rJ at hitJ
  generalize ({ pC with out := NUL } : LineParser).iterate Options.space c = rC at hitC
  cases rC with
  | badBackslash => cases hitC with | bad h => rw [hbad] at h; cases h
  | comment =>
    cases hitC with
    | comment hadv hq =>
      cases rJ with
      | comment => exact .inl ⟨rfl, rfl, hadv, hq⟩
      | badBackslash => cases hitJ with | bad h => rw [hbad] at h; cases h
      | next p' =>
        obtain ⟨q', hadv', -⟩ := hitJ.next_at hJ (hcar.gap hJ)
        rw [hadv] at hadv'; cases hadv'
  | next pC' =>
    obtain ⟨q', hadv, hatC, -, -⟩ := hitC.next_at (hC.out_irrelevant NUL) fun _ => rfl
    cases rJ with
    | badBackslash => cases hitJ with | bad h => rw [hbad] at h; cases h
    | comment =>
      cases hitJ with
      | comment hadv' _ => rw [hadv] at hadv'; cases hadv'
    | next pJ' =>
      obtain ⟨q'', hadv', hatJ, -, hcar'⟩ := hitJ.next_at hJ (hcar.gap hJ)
      obtain rfl : q' = q'' := by rw [hadv] at hadv'; exact Option.some.inj hadv'
      refine .inr ⟨pJ', pC', q', rfl, rfl, hadv, hatJ, hatC, hcar' hcar hn, ?_⟩
      have hmid : startsEscape q.state q.backslash c = false → midEscape q c = false := by
        intro hesc
        simp [midEscape, hesc]
      cases hitC with
      | escape hesc =>
        cases hitJ with
        | escape _ =>
          by_cases ho : pJ.out = NUL
          · have hst : q.stored = false := hcar.mp ho
            simp only [LineParser.store, ho, LineParser.weight, midEscape, hst, if_true,
              Bool.and_false, Bool.false_eq_true, if_false]
            exact ⟨by omega, fun _ hps hcur => ⟨hps, hcur⟩⟩
          · have hst : q.stored = true := by simpa [ho] using mt hcar.mpr
            simp [LineParser.store, ho, LineParser.weight, midEscape, hst, hesc]
            omega
        | closed hesc' _ _ _ => rw [hesc] at hesc'; cases hesc'
        | skipped hesc' _ _ _ _ => rw [hesc] at hesc'; cases hesc'
        | stored hesc' _ _ _ => rw [hesc] at hesc'; cases hesc'
      | closed hesc hadvC hq _ =>
        cases hitJ with
        | escape hesc' => rw [hesc] at hesc'; cases hesc'
        | closed _ _ _ _ =>
          simp only [LineParser.weight, hmid hesc]
          constructor
          · simp; omega
          · rintro - hps hcur; simp [hps, hcur]
        | skipped _ _ hq' _ _ => exact absurd hq' hq
        | stored _ hadvJ _ _ => rw [hadvC] at hadvJ; simp [LexPos.start] at hadvJ
      | skipped hesc hadvC hq _ _ =>
        cases hitJ with
        | escape hesc' => rw [hesc] at hesc'; cases hesc'
        | closed _ _ hq' _ => exact absurd hq hq'
        | skipped _ _ _ _ _ =>
          simp only [LineParser.weight, hmid hesc]
          constructor
          · simp; omega
          · rintro - hps hcur; exact ⟨hps, hcur⟩
        | stored _ hadvJ _ _ => rw [hadvC] at hadvJ; simp at hadvJ
      | stored hesc hadvC hstate _ =>
        cases hitJ with
        | escape hesc' => rw [hesc] at hesc'; cases hesc'
        | closed _ hadvJ _ _ => rw [hadvC] at hadvJ; simp [LexPos.start] at hadvJ
        | skipped _ hadvJ _ _ _ => rw [hadvC] at hadvJ; simp at hadvJ
        | stored _ _ _ _ =>
          simp only [LineParser.weight, hmid hesc]
          constructor
          · simp; omega
          · rintro - hps hcur; simp [hps, hcur]

/-- **The two loops in step**, on a line without an exposed separator and without a
    bad escape that ends outside parameters: both accept, the port stores at least
    as many characters, more when it meets an escape inside a parameter, and the
    same ones otherwise. -/
theorem lockstep (cs : Text) {q : LexPos} {pJ pC : LineParser} (hJ : At q pJ) (hC : At q pC)
    (hcar : Carries q pJ) (hascii : ∀ c ∈ cs, c.toNat < 128) (hn : NUL ∉ cs)
    (hexp : meets Options.space exposedSeparator q cs = false)
    (hbad : meets Options.space (badEscape Options.space) q cs = false)
    (hopen : endsOpen Options.space q cs = false) :
    ∃ a b, ConfigParser.scan pJ (cs ++ [NUL]) = .ok a ∧ Options.scan pC (cs ++ [NUL]) = .ok b ∧
      (b.map List.length).sum + pJ.weight +
          (if meets Options.space (fun q c => midEscape q c) q cs = true then 1 else 0) ≤
        (a.map List.length).sum + pC.weight ∧
      (meets Options.space (fun q c => midEscape q c) q cs = false →
        pJ.parameters = pC.parameters → pJ.currentarg = pC.currentarg → a = b) := by
  induction cs generalizing q pJ pC with
  | nil =>
    obtain ⟨a, ha, hflush⟩ := ConfigParser.scan_nul hJ (hcar.gap hJ)
    have hb := (Options.scan_nul hC).2 hopen
    have ha' := hflush hopen
    have hweight : ∀ {p : LineParser}, At q p →
        (p.flushed.map List.length).sum = p.weight := by
      intro p h
      have hd := h.notDone
      have hgap := h.gap
      have hst := h.state
      unfold LineParser.flushed LineParser.weight
      cases hq : q.state <;> simp_all [endsOpen]
    refine ⟨a, _, ha, hb, ?_, ?_⟩
    · rw [ha', hweight hJ, hweight hC]
      simp [meets]
      omega
    · intro _ hps hcur
      rw [ha']
      simp [LineParser.flushed, hJ.state, hC.state, hps, hcur]
  | cons c cs ih =>
    rw [List.mem_cons, not_or] at hn
    simp only [meets, Bool.or_eq_false_iff] at hexp hbad
    have hascii' : ∀ x ∈ cs, x.toNat < 128 := fun x hx => hascii x (by simp [hx])
    rcases iterate_pair hJ hC hcar (hascii c (by simp)) (Ne.symm hn.1) hexp.1 hbad.1 with
      ⟨hsJ, hsC, hadv, hq⟩ | ⟨pJ', pC', q', hsJ, hsC, hadv, hJ', hC', hcar', hw, hsame⟩
    · have hmid : midEscape q c = false := by
        have := (hJ.gap hq).2
        simp [midEscape, this]
      have hfin : Options.finish pC = .ok pC.parameters := by
        simp [Options.finish, hC.state, hq]
      refine ⟨pJ.parameters, pC.parameters, by simp [ConfigParser.scan, hsJ],
        by simp [Options.scan, hsC, hfin], ?_, fun _ hps _ => hps⟩
      simp [meets, hadv, hmid, LineParser.weight, (hJ.gap hq).1, (hC.gap hq).1]
      omega
    · simp only [hadv] at hexp hbad
      simp only [endsOpen, hadv] at hopen
      obtain ⟨a, b, ha, hb, hle, heq⟩ := ih hJ' hC' hcar' hascii' hn.2 hexp.2 hbad.2 hopen
      refine ⟨a, b, by simp [ConfigParser.scan, hsJ, ha], by simp [Options.scan, hsC, hb],
        ?_, ?_⟩
      · have hor : ∀ x y : Bool, (if (x || y) = true then 1 else 0) ≤
            (if x = true then 1 else 0) + if y = true then 1 else 0 := by decide
        have hor := hor (midEscape q c) (meets Options.space (fun q c => midEscape q c) q' cs)
        simp only [meets, hadv]
        omega
      · intro hmid hps hcur
        simp only [meets, hadv, Bool.or_eq_false_iff] at hmid
        obtain ⟨hps', hcur'⟩ := hsame hmid.1 hps hcur
        exact heq hmid.2 hps' hcur'

/-- Without exposed separators both notions of white space give the same walk. -/
theorem meets_agree (cs : Text) {q : LexPos} {p : LineParser} (h : At q p) (hcar : Carries q p)
    (hascii : ∀ c ∈ cs, c.toNat < 128) (hn : NUL ∉ cs)
    (hexp : meets Options.space exposedSeparator q cs = false) :
    meets ConfigParser.space (badEscape ConfigParser.space) q cs =
      meets Options.space (badEscape Options.space) q cs := by
  induction cs generalizing q p with
  | nil => rfl
  | cons c cs ih =>
    rw [List.mem_cons, not_or] at hn
    simp only [meets, Bool.or_eq_false_iff] at hexp ⊢
    obtain ⟨hit, hadv, hbad⟩ := iterate_agree h (hcar.gap h) (hascii c (by simp)) hexp.1
    rw [hbad, hadv]
    have hiter := iterate_iterates Options.space h (hcar.gap h) (Ne.symm hn.1)
    generalize p.iterate Options.space c = r at hiter
    cases hq : q.advance Options.space c with
    | none => rfl
    | some q' =>
      cases r with
      | next p' =>
        obtain ⟨q'', hq'', hat, -, hcar'⟩ := hiter.next_at h (hcar.gap h)
        obtain rfl : q' = q'' := by rw [hq] at hq''; exact Option.some.inj hq''
        rw [hq] at hexp
        simp only [ih hat (hcar' hcar (Ne.symm hn.1)) (fun x hx => hascii x (by simp [hx])) hn.2
          hexp.2]
      | comment => cases hiter with | comment hnone _ => rw [hq] at hnone; cases hnone
      | badBackslash => cases hiter with | bad hb => simp [hb]

/-! ### Agreement -/

def Ascii (line : Text) : Bool := line.all fun c => c.toNat < 128

theorem toNat_lt_of_ascii {line : Text} (h : Ascii line = true) : ∀ c ∈ line, c.toNat < 128 := by
  intro c hc
  simpa using List.all_eq_true.mp h c hc

/-- Both parsers reject the line, or both accept it with the same parameters. -/
def Agree (line : Text) : Prop :=
  match ConfigParser.parseline line, Options.parse_line line with
  | .error _, .error _ => True
  | .ok a, .ok b => a = b
  | _, _ => False

instance (line : Text) : Decidable (Agree line) := by
  unfold Agree; split <;> infer_instance

/-- The lines on which the port does what `parse_line` does.  Both reject a line
    with a bad escape.  A line that both accept ends outside quotes and escapes,
    has no escape inside a parameter and no separator outside quotes. -/
def PortSafe (line : Text) : Bool :=
  if meets Options.space exposedSeparator .start line then
    meets ConfigParser.space (badEscape ConfigParser.space) .start line
      && (meets Options.space (badEscape Options.space) .start line
        || endsOpen Options.space .start line)
  else
    meets Options.space (badEscape Options.space) .start line
      || (!endsOpen Options.space .start line
        && !meets Options.space (fun q c => midEscape q c) .start line)

theorem ConfigParser.parseline_eq_scan (line : Text) :
    ConfigParser.parseline line = ConfigParser.scan .start (line ++ [NUL]) := by
  unfold ConfigParser.parseline
  split_ifs with h
  · subst h; rfl
  · rfl

/-- `parseline` rejects exactly the lines with a bad escape. -/
theorem parseline_error_iff {line : Text} (hn : NUL ∉ line) :
    (∃ e, ConfigParser.parseline line = .error e) ↔
      meets ConfigParser.space (badEscape ConfigParser.space) .start line = true := by
  rw [ConfigParser.parseline_eq_scan]
  exact ConfigParser.scan_error_iff line At.start Carries.start hn

/-- `parse_line` also rejects the lines that end inside a parameter. -/
theorem parse_line_error_iff {line : Text} (hn : NUL ∉ line) :
    (∃ e, Options.parse_line line = .error e) ↔
      meets Options.space (badEscape Options.space) .start line = true ∨
        endsOpen Options.space .start line = true :=
  Options.scan_error_iff line At.start hn

theorem agree_of_both_reject {line : Text}
    (hJ : ∃ e, ConfigParser.parseline line = .error e)
    (hC : ∃ e, Options.parse_line line = .error e) : Agree line := by
  obtain ⟨e, he⟩ := hJ
  obtain ⟨e', he'⟩ := hC
  simp [Agree, he, he']

/-- Two lists of parameters with different numbers of characters differ. -/
theorem ne_of_weight_lt {a b : List Text} (h : (b.map List.length).sum < (a.map List.length).sum) :
    a ≠ b := by
  rintro rfl
  exact lt_irrefl _ h

theorem agree_iff_of_no_separator {line : Text} (hn : NUL ∉ line)
    (hascii : Ascii line = true)
    (hexp : meets Options.space exposedSeparator .start line = false) :
    Agree line ↔
      meets Options.space (badEscape Options.space) .start line = true ∨
        (endsOpen Options.space .start line = false ∧
          meets Options.space (fun q c => midEscape q c) .start line = false) := by
  have hJ := parseline_error_iff hn
  have hC := parse_line_error_iff hn
  rw [meets_agree line At.start Carries.start (toNat_lt_of_ascii hascii) hn hexp] at hJ
  by_cases hbad : meets Options.space (badEscape Options.space) .start line = true
  · simp only [hbad, true_or, iff_true]
    exact agree_of_both_reject (hJ.mpr hbad) (hC.mpr (.inl hbad))
  · rw [Bool.not_eq_true] at hbad
    simp only [hbad, Bool.false_eq_true, false_or]
    by_cases hopen : endsOpen Options.space .start line = true
    · -- `parse_line` rejects the open line, the port accepts it
      have hnJ : ¬ ∃ e, ConfigParser.parseline line = .error e := by rw [hJ, hbad]; simp
      obtain ⟨e, he⟩ := hC.mpr (.inr hopen)
      simp only [hopen, Bool.true_eq_false, false_and, iff_false]
      intro hag
      unfold Agree at hag
      rw [he] at hag
      cases hp : ConfigParser.parseline line with
      | error e' => exact hnJ ⟨e', hp⟩
      | ok a => rw [hp] at hag; exact hag
    · rw [Bool.not_eq_true] at hopen
      obtain ⟨a, b, ha, hb, hle, heq⟩ :=
        lockstep line At.start At.start Carries.start (toNat_lt_of_ascii hascii) hn hexp hbad hopen
      rw [← ConfigParser.parseline_eq_scan] at ha
      have hb' : Options.parse_line line = .ok b := hb
      have hag : Agree line ↔ a = b := by simp [Agree, ha, hb']
      simp only [hag, hopen, true_and]
      constructor
      · intro hab
        by_contra hmid
        rw [Bool.not_eq_false] at hmid
        simp only [hmid, if_true, LineParser.start, LineParser.weight] at hle
        exact ne_of_weight_lt (by omega) hab
      · intro hmid
        exact heq hmid rfl rfl

/-- **The port against `parse_line`.**  On the safe lines the two agree; a line
    without a separator outside quotes on which they agree is safe. -/
theorem agree_iff_portSafe (line : Text) (hn : NUL ∉ line) (hascii : Ascii line = true) :
    (PortSafe line = true → Agree line) ∧
      (meets Options.space exposedSeparator .start line = false →
        Agree line → PortSafe line = true) := by
  constructor
  · intro hsafe
    by_cases hexp : meets Options.space exposedSeparator .start line = true
    · simp only [PortSafe, hexp, if_true, Bool.and_eq_true, Bool.or_eq_true] at hsafe
      exact agree_of_both_reject ((parseline_error_iff hn).mpr hsafe.1)
        ((parse_line_error_iff hn).mpr hsafe.2)
    · rw [Bool.not_eq_true] at hexp
      rw [agree_iff_of_no_separator hn hascii hexp]
      simpa [PortSafe, hexp] using hsafe
  · intro hexp hag
    rw [agree_iff_of_no_separator hn hascii hexp] at hag
    simpa [PortSafe, hexp] using hag

theorem agree_iff_portSafe_dev :
    Agree "dev \"tun 0\" #x" ∧
      PortSafe "dev \"tun 0\" #x" = true :=
  ⟨(agree_iff_portSafe "dev \"tun 0\" #x" (by decide) (by decide)).1 (by decide),
    (agree_iff_portSafe "dev \"tun 0\" #x" (by decide) (by decide)).2
      (by decide) (by decide)⟩

/-- A doubled backslash in the middle of a word is one backslash for `parse_line`;
    the port stores the character before it twice. -/
theorem not_agree_backslash :
    ¬ ∀ line : Text, NUL ∉ line → Ascii line = true → Agree line := by
  intro h
  exact absurd (h ['c', ':', BACKSLASH, BACKSLASH, 'k', 'e', 'y'] (by decide) (by decide))
    (by decide)

end OpenVpnAndroid
