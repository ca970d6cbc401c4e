/-
  OpenVpnAndroid/ParseLine.lean
  =============================
  **One configuration line into its parameters**: `ConfigParser.parseline`
  (Java) and OpenVPN's `parse_line` (C, `options.c`), of which it is a port,
  and `VpnProfile.openVpnEscape`, which writes a parameter so that it can be
  read back.

  Both parsers run the same chain of tests on the parser state (`readChar`).
  They differ around it: the C loop sets `out = 0` at the start of every
  iteration and checks the state after the loop, the Java loop carries `out`
  from one iteration to the next and returns whatever it has.
-/
import OpenVpnAndroid.JavaText

namespace OpenVpnAndroid

/-! ### The part the two loops share -/

/-- `ConfigParser.linestate`, the `STATE_*` constants of `parse_line`. -/
inductive LineState where
  | initial
  | readinSingleQuote
  | readingQuoted
  | readingUnquoted
  | done
deriving DecidableEq, Repr

/-- The tests on the parser state for a character `c` that does not start an
    escape.  `out` is the output character so far; `none` is the `break` at a
    comment. -/
def readChar (space : Char → Bool) (state : LineState) (backslash : Bool) (c out : Char) :
    Option (LineState × Char) :=
  match state with
  | .initial =>
      if space c then some (.initial, out)
      else if c = ';' ∨ c = '#' then none
      else if backslash = false ∧ c = QUOTE then some (.readingQuoted, out)
      else if backslash = false ∧ c = APOSTROPHE then some (.readinSingleQuote, out)
      else some (.readingUnquoted, c)
  | .readingUnquoted =>
      if backslash = false ∧ space c = true then some (.done, out)
      else some (.readingUnquoted, c)
  | .readingQuoted =>
      if backslash = false ∧ c = QUOTE then some (.done, out)
      else some (.readingQuoted, c)
  | .readinSingleQuote =>
      if c = APOSTROPHE then some (.done, out)
      else some (.readinSingleQuote, c)
  | .done => some (.done, out)

/-- A backslash that starts an escape. -/
def startsEscape (state : LineState) (backslash : Bool) (c : Char) : Bool :=
  !backslash && c == BACKSLASH && state != .readinSingleQuote

/-- The characters that may follow a backslash. -/
def mayEscape (space : Char → Bool) (out : Char) : Bool :=
  out == BACKSLASH || out == QUOTE || space out

/-- What one iteration of a parsing loop does. -/
inductive LineStep (σ : Type) where
  | next (s : σ)
  | comment
  | badBackslash

/-- The local variables of both loops. -/
structure LineParser where
  state : LineState
  backslash : Bool
  out : Char
  currentarg : Text
  parameters : List Text
deriving DecidableEq, Repr

def LineParser.start : LineParser := ⟨.initial, false, NUL, [], []⟩

/-- `store parameter character`. -/
def LineParser.store (p : LineParser) : LineParser :=
  if p.out = NUL then p else { p with currentarg := p.currentarg ++ [p.out] }

/-- The body of the loop after `out` has got its value for this iteration. -/
def LineParser.iterate (space : Char → Bool) (p : LineParser) (c : Char) :
    LineStep LineParser :=
  if startsEscape p.state p.backslash c then .next { p with backslash := true }.store
  else
    match readChar space p.state p.backslash c p.out with
    | none => .comment
    | some (.done, _) =>
        .next { state := .initial, backslash := false, out := NUL, currentarg := [],
                parameters := p.parameters ++ [p.currentarg] }
    | some (state, out) =>
        if p.backslash = true ∧ out ≠ NUL ∧ mayEscape space out = false then .badBackslash
        else .next { p with state := state, backslash := false, out := out }.store

/-! ### `ConfigParser.parseline` -/

namespace ConfigParser

def space (c : Char) : Bool := isWhitespace c || c == NUL

/-- The Java loop leaves `out` as the last iteration left it. -/
def step (p : LineParser) (c : Char) : LineStep LineParser := p.iterate space c

def badBackslash : Stop :=
  .thrown (.configParseError "Options warning: Bad backslash ('\\') usage")

def scan (p : LineParser) : Text → Java (List Text)
  | [] => .ok p.parameters
  | c :: cs =>
      match step p c with
      | .next p' => scan p' cs
      | .comment => .ok p.parameters
      | .badBackslash => .error badBackslash

/-- The loop runs once more than the line has characters, with `'\0'`. -/
def parseline (line : Text) : Java (List Text) :=
  if line = [] then .ok [] else scan .start (line ++ [NUL])

end ConfigParser

/-! ### `parse_line` of `options.c` -/

namespace Options

/-- `space`: NUL and `isspace` of the C locale. -/
def space (c : Char) : Bool :=
  c == NUL || (9 ≤ c.toNat && c.toNat ≤ 13) || c == ' '

inductive LineError where
  | badBackslash
  | noClosingQuote
  | noClosingSingleQuote
  | residualState
deriving DecidableEq, Repr

/-- The C loop sets `out = 0` first. -/
def step (p : LineParser) (c : Char) : LineStep LineParser :=
  { p with out := NUL }.iterate space c

/-- The checks after the loop. -/
def finish (p : LineParser) : Except LineError (List Text) :=
  match p.state with
  | .readingQuoted => .error .noClosingQuote
  | .readinSingleQuote => .error .noClosingSingleQuote
  | .initial => .ok p.parameters
  | _ => .error .residualState

def scan (p : LineParser) : Text → Except LineError (List Text)
  | [] => finish p
  | c :: cs =>
      match step p c with
      | .next p' => scan p' cs
      | .comment => finish p
      | .badBackslash => .error .badBackslash

/-- `parse_line` without its limits on the number and the length of parameters.
    The C function reports an error through `msg` and returns 0. -/
def parse_line (line : Text) : Except LineError (List Text) :=
  scan .start (line ++ [NUL])

end Options

/-! ### `VpnProfile.openVpnEscape` -/

namespace VpnProfile

/-- `String.replace` of one character by a string. -/
def replaceChar (c : Char) (by' : Text) (s : Text) : Text :=
  s.flatMap fun x => if x = c then by' else [x]

def openVpnEscape (unescaped : Text) : Text :=
  let escapedString := replaceChar BACKSLASH [BACKSLASH, BACKSLASH] unescaped
  let escapedString := replaceChar QUOTE [BACKSLASH, QUOTE] escapedString
  let escapedString := replaceChar '\n' [BACKSLASH, 'n'] escapedString
  if escapedString = unescaped ∧ ' ' ∉ escapedString ∧ '#' ∉ escapedString
      ∧ ';' ∉ escapedString ∧ escapedString ≠ [] ∧ APOSTROPHE ∉ escapedString then
    unescaped
  else [QUOTE] ++ escapedString ++ [QUOTE]

end VpnProfile

namespace ConfigParser

/-- One option as `getOptionStrings` writes it, without the final newline. -/
def optionLine (args : List Text) : Text :=
  args.flatMap fun arg => VpnProfile.openVpnEscape arg ++ [' ']

end ConfigParser

end OpenVpnAndroid
