/-
  OpenVpnAndroid/OpenVPNThread.lean
  =================================
  **The lines that OpenVPN prints, and how `OpenVPNThread` logs them.**

  OpenVPN writes a time, a word of flags and a message.  The thread takes the line
  apart with a regular expression whose third group is repeated *inside* of the
  repetition, `([0-9a-f])+`, so the group has the last hexadecimal digit only.  The
  level of the message is in that digit, but none of the flags that say how severe it
  is (`logs_iff`).
-/
import OpenVpnAndroid.LogItem
import OpenVpnAndroid.Regex
import OpenVpnAndroid.TextDecoding

namespace OpenVpnAndroid

/-! ### The printer -/

/-- `%06ld` -/
def sixDigits (n : Nat) : Text :=
  let digits := Nat.toDigits 10 n
  List.replicate (6 - digits.length) '0' ++ digits

/-- What `x_msg_va` prints with `machine_readable_output`; `msg` is the prefix, its
    separator and the message. -/
def x_msg_va (tv_sec tv_usec : Nat) (flags : BitVec 32) (msg : Text) : Text :=
  Nat.toDigits 10 tv_sec ++ '.' :: (sixDigits tv_usec ++ ' ' :: (Nat.toDigits 16 flags.toNat
    ++ ' ' :: (msg ++ ['\n'])))

/-- A message of `VpnStatus`; `none` is a message without a level of OpenVPN. -/
structure LogMessage where
  status : LogLevel
  ovpnlevel : Option Nat
  message : Text
deriving DecidableEq, Repr

namespace OpenVPNThread

/-- The field that the loop over the output sets, and what it has logged. -/
structure LogLoop where
  mDumpPath : Option Text
  messages : List LogMessage
deriving DecidableEq, Repr

def DUMP_PATH_STRING : Text := "Dump path: "

def M_FATAL : BitVec 32 := 1 <<< 4
def M_NONFATAL : BitVec 32 := 1 <<< 5
def M_WARN : BitVec 32 := 1 <<< 6
def M_DEBUG : BitVec 32 := 1 <<< 7

/-! ### The parser -/

/-- The line terminators of `java.util.regex`, which `.` does not match. -/
def lineTerminator (c : Char) : Bool :=
  c == '\n' || c == '\r' || c == '\u0085' || c == '\u2028' || c == '\u2029'

/-- `[0-9a-f]` -/
def hexDigitClass (c : Char) : Bool := c.isDigit || ('a' ≤ c && c ≤ 'f')

/-- `.` -/
def anyClass (c : Char) : Bool := !lineTerminator c

/-- `(\d+).(\d+) ([0-9a-f])+ (.*)` -/
def LOG_PATTERN : Regex :=
  .seq (.group 1 (.plus (.char Char.isDigit))) <|
  .seq (.char anyClass) <|
  .seq (.group 2 (.plus (.char Char.isDigit))) <|
  .seq (.char (· == ' ')) <|
  .seq (.plus (.group 3 (.char hexDigitClass))) <|
  .seq (.char (· == ' ')) <|
  .group 4 (.star (.char anyClass))

/-- The value of a digit of `[0-9a-f]`. -/
def hexValue (c : Char) : Nat := if c.isDigit then c.toNat - 48 else c.toNat - 87

/-- `Integer.parseInt(s, 16)` for such digits -/
def parseHex (s : Text) : Java Int :=
  let n := s.foldl (fun n c => 16 * n + hexValue c) 0
  if s.isEmpty || 2 ^ 31 ≤ n then throwJava (.numberFormat s) else return n

def logStatus (flags : BitVec 32) : LogLevel :=
  if flags &&& M_FATAL ≠ 0 then .ERROR
  else if flags &&& M_NONFATAL ≠ 0 then .WARNING
  else if flags &&& M_WARN ≠ 0 then .WARNING
  else if flags &&& M_DEBUG ≠ 0 then .VERBOSE
  else .INFO

def logLevel (flags : BitVec 32) (msg : Text) : Nat :=
  let logLevel := (flags &&& 0x0F).toNat
  if ("MANAGEMENT: CMD" : Text).isPrefixOf msg then max 4 logLevel else logLevel

def weakHashHint : Text :=
  ("OpenSSL reported a certificate with a weak hash, please see the in app FAQ about " : Text)
    ++ ("weak hashes." : Text)

def legacyHint : Text :=
  ("The encryption method of your private keys/pkcs12 might be outdated and you probably " : Text)
    ++ ("need to enable the OpenSSL legacy provider to be able to use this profile." : Text)

/-- `VpnStatus.addExtraHints` -/
def addExtraHints (msg : Text) : List LogMessage :=
  (if (("md too weak" : Text).isSuffixOf msg && ("OpenSSL: error" : Text).isPrefixOf msg)
      || containsText "error:140AB18E" msg || containsText "SSL_CA_MD_TOO_WEAK" msg
      || containsText "ca md too weak" msg then [⟨.ERROR, none, weakHashHint⟩]
    else [])
  ++ (if containsText "digital envelope routines::unsupported" msg then
      [⟨.ERROR, none, legacyHint⟩]
    else [])

/-- `logMessageOpenVPN` and the hints -/
def logged (flags : BitVec 32) (msg : Text) : List LogMessage :=
  ⟨logStatus flags, some (logLevel flags msg), msg⟩ :: addExtraHints msg

/-- What the thread logs for a line. -/
def log (logline : Text) : Java (List LogMessage) :=
  match LOG_PATTERN.fullMatch logline with
  | some groups => do
      let flags ← parseHex ((groups 3).getD [])
      return logged (BitVec.ofInt 32 flags) ((groups 4).getD [])
  | none => return [⟨.INFO, none, ("P:" : Text) ++ logline⟩]

/-- One round of the loop in `startOpenVPNThreadArgs`. -/
def LogLoop.logLine (s : LogLoop) (logline : Text) : Java LogLoop := do
  let mDumpPath :=
    if DUMP_PATH_STRING.isPrefixOf logline then some (logline.drop DUMP_PATH_STRING.length)
    else s.mDumpPath
  return ⟨mDumpPath, s.messages ++ (← log logline)⟩

/-- The loop over what the process has printed. -/
def LogLoop.logLines (s : LogLoop) (output : Text) : Java LogLoop :=
  (readLines output).foldlM LogLoop.logLine s

/-! ### Taking a line apart -/

section Line

variable {sec usec word msg : Text}

theorem stops_cons {p : Char → Bool} {c : Char} (hc : p c = false) (rest : Text) :
    Regex.Stops p (c :: rest) := by
  intro x hx
  rwa [← Option.some.inj hx]

/-- The third group has the last digit of the word only. -/
theorem fullMatch_line (hsec : ∀ c ∈ sec, c.isDigit = true) (hsec' : sec ≠ [])
    (husec : ∀ c ∈ usec, c.isDigit = true) (husec' : usec ≠ []) {last : Char}
    (hword : ∀ c ∈ word ++ [last], hexDigitClass c = true)
    (hmsg : ∀ c ∈ msg, anyClass c = true) :
    ∃ groups, LOG_PATTERN.fullMatch
        (sec ++ '.' :: (usec ++ ' ' :: (word ++ last :: ' ' :: msg))) = some groups ∧
      groups 3 = some [last] ∧ groups 4 = some msg := by
  let g₁ := Function.update (fun _ => none) 1 (some sec)
  let g₂ := Function.update g₁ 2 (some usec)
  let g₃ := Function.update g₂ 3 (some [last])
  let g₄ := Function.update g₃ 4 (some msg)
  refine ⟨g₄, Regex.fullMatch_of_first ?_, rfl, rfl⟩
  have hmessage := @Regex.first_star_char anyClass msg [] hmsg (fun _ h => nomatch h) g₃
  have hsecond := Regex.first_plus_char husec husec'
    (@stops_cons Char.isDigit ' ' (by decide) (word ++ last :: ' ' :: msg)) g₁
  have hfirst := Regex.first_plus_char hsec hsec'
    (@stops_cons Char.isDigit '.' (by decide) (usec ++ ' ' :: (word ++ last :: ' ' :: msg)))
    fun _ => none
  have hblank : Regex.Stops hexDigitClass (' ' :: msg) := stops_cons (by decide) msg
  refine Regex.first_seq (Regex.first_group hfirst) ?_
  refine Regex.first_seq (Regex.first_char (by decide) _ _) ?_
  refine Regex.first_seq (Regex.first_group hsecond) ?_
  refine Regex.first_seq (Regex.first_char (by decide) _ _) ?_
  refine Regex.first_seq (Regex.first_plus_group hword hblank 3 g₂) ?_
  refine Regex.first_seq (Regex.first_char (by decide) _ _) ?_
  have hlast := Regex.first_group (n := 4) hmessage
  rwa [List.append_nil] at hlast

/-- No part of the pattern takes a line terminator. -/
theorem not_allows_lineTerminator {c : Char} (hc : lineTerminator c = true) :
    ¬LOG_PATTERN.Allows c := by
  have hc' : c = '\n' ∨ c = '\r' ∨ c = '\u0085' ∨ c = '\u2028' ∨ c = '\u2029' := by
    simpa [lineTerminator, or_assoc] using hc
  simp only [LOG_PATTERN, Regex.Allows]
  rcases hc' with rfl | rfl | rfl | rfl | rfl <;> decide

end Line

/-! ### What OpenVPN prints -/

theorem isDigit_of_mem_toDigits (n : Nat) : ∀ c ∈ Nat.toDigits 10 n, c.isDigit = true := by
  have hdigits : ("0123456789" : Text).all Char.isDigit = true := by decide
  intro c hc
  exact List.all_eq_true.mp hdigits c (toDigits_subset (by decide) (by decide) n hc)

theorem isDigit_of_mem_sixDigits (n : Nat) : ∀ c ∈ sixDigits n, c.isDigit = true := by
  intro c hc
  rcases List.mem_append.mp hc with hc | hc
  · rw [List.eq_of_mem_replicate hc]
    decide
  · exact isDigit_of_mem_toDigits n c hc

theorem sixDigits_ne_nil (n : Nat) : sixDigits n ≠ [] :=
  List.append_ne_nil_of_right_ne_nil _ Nat.toDigits_ne_nil

theorem hexDigitClass_of_mem_toDigits (n : Nat) :
    ∀ c ∈ Nat.toDigits 16 n, hexDigitClass c = true := by
  have hdigits : ("0123456789abcdef" : Text).all hexDigitClass = true := by decide
  intro c hc
  exact List.all_eq_true.mp hdigits c (toDigits_subset (by decide) (by decide) n hc)

/-- The last digit is the remainder. -/
theorem toDigits_last {b : Nat} (hb : 1 < b) (n : Nat) :
    ∃ word, Nat.toDigits b n = word ++ [Nat.digitChar (n % b)] := by
  rw [Nat.toDigits_eq_if hb]
  split
  · rename_i hlt
    exact ⟨[], by rw [Nat.mod_eq_of_lt hlt]; rfl⟩
  · exact ⟨_, rfl⟩

theorem parseHex_digitChar {d : Nat} (hd : d < 16) :
    parseHex [Nat.digitChar d] = .ok (d : Int) := by
  have hall : ∀ d < 16, parseHex [Nat.digitChar d] = .ok (d : Int) := by decide
  exact hall d hd

/-- One digit has the level, and none of the other flags. -/
theorem logged_digit {d : Nat} (hd : d < 16) (msg : Text) :
    logged (BitVec.ofInt 32 d) msg =
      ⟨.INFO, some (if ("MANAGEMENT: CMD" : Text).isPrefixOf msg then max 4 d else d), msg⟩
        :: addExtraHints msg := by
  have hstatus : ∀ d < 16, logStatus (BitVec.ofInt 32 (d : Nat)) = .INFO := by decide
  have hlevel : ∀ d < 16, (BitVec.ofInt 32 (d : Nat) &&& 0x0F).toNat = d := by decide
  rw [logged, logLevel, hstatus d hd, hlevel d hd]

/-- The flags that say how severe a message is. -/
def severity (flags : BitVec 32) : BitVec 32 :=
  flags &&& (M_FATAL ||| M_NONFATAL ||| M_WARN ||| M_DEBUG)

theorem logStatus_eq_INFO_iff (flags : BitVec 32) :
    logStatus flags = .INFO ↔ severity flags = 0 := by
  rw [severity, logStatus]
  simp only [BitVec.and_or_distrib_left]
  split_ifs <;> simp_all

theorem toNat_level (flags : BitVec 32) : (flags &&& 0x0F).toNat = flags.toNat % 16 := by
  rw [BitVec.toNat_and]
  exact Nat.and_two_pow_sub_one_eq_mod flags.toNat 4

/-- What is printed before the line feed. -/
def printed (tv_sec tv_usec : Nat) (flags : BitVec 32) (msg : Text) : Text :=
  Nat.toDigits 10 tv_sec ++ '.' :: (sixDigits tv_usec ++ ' ' :: (Nat.toDigits 16 flags.toNat
    ++ ' ' :: msg))

theorem x_msg_va_eq (tv_sec tv_usec : Nat) (flags : BitVec 32) (msg : Text) :
    x_msg_va tv_sec tv_usec flags msg = printed tv_sec tv_usec flags msg ++ ['\n'] := by
  simp [x_msg_va, printed]

theorem notMem_printed {c : Char} (hdigits : hexDigitClass c = false) (hdot : c ≠ '.')
    (hblank : c ≠ ' ') {msg : Text} (hmsg : c ∉ msg) (tv_sec tv_usec : Nat)
    (flags : BitVec 32) : c ∉ printed tv_sec tv_usec flags msg := by
  have hdecimal : c.isDigit = false := by
    rw [hexDigitClass, Bool.or_eq_false_iff] at hdigits
    exact hdigits.1
  have hnone : ∀ {p : Char → Bool} {s : Text}, p c = false → (∀ x ∈ s, p x = true) → c ∉ s := by
    intro p s hp hs hc
    rw [hs c hc] at hp
    exact absurd hp (by decide)
  simp [printed, hdot, hblank, hmsg, hnone hdecimal (isDigit_of_mem_toDigits tv_sec),
    hnone hdecimal (isDigit_of_mem_sixDigits tv_usec),
    hnone hdigits (hexDigitClass_of_mem_toDigits flags.toNat)]

/-- A line that OpenVPN prints begins with a digit. -/
theorem not_dumpPath_isPrefixOf_printed (tv_sec tv_usec : Nat) (flags : BitVec 32)
    (msg : Text) : DUMP_PATH_STRING.isPrefixOf (printed tv_sec tv_usec flags msg) = false := by
  obtain ⟨c, rest, hsec⟩ := List.exists_cons_of_ne_nil (@Nat.toDigits_ne_nil tv_sec 10)
  have hdigit : c.isDigit = true :=
    isDigit_of_mem_toDigits tv_sec c (hsec ▸ List.mem_cons_self)
  rw [← Bool.not_eq_true, List.isPrefixOf_iff_prefix, printed, hsec]
  intro hprefix
  have hhead : 'D' = c := (List.cons_prefix_cons.mp hprefix).1
  rw [← hhead] at hdigit
  exact absurd hdigit (by decide)

/-- The loop logs the line and does nothing else. -/
theorem logLines_x_msg_va (s : LogLoop) (tv_sec tv_usec : Nat) (flags : BitVec 32)
    {msg : Text} (hn : '\n' ∉ msg) (hr : '\r' ∉ msg) :
    s.logLines (x_msg_va tv_sec tv_usec flags msg) = (do
      return { s with
        messages := s.messages ++ (← log (printed tv_sec tv_usec flags msg)) }) := by
  have hn' := notMem_printed (by decide) (by decide) (by decide) hn tv_sec tv_usec flags
  have hr' := notMem_printed (by decide) (by decide) (by decide) hr tv_sec tv_usec flags
  rw [LogLoop.logLines, x_msg_va_eq, readLines_line hn' hr']
  simp [readLines, LogLoop.logLine, not_dumpPath_isPrefixOf_printed]

/-- Without a line terminator the message is logged with the last digit of the flags. -/
theorem log_printed (tv_sec tv_usec : Nat) (flags : BitVec 32) {msg : Text}
    (hmsg : ∀ c ∈ msg, lineTerminator c = false) :
    log (printed tv_sec tv_usec flags msg) =
      .ok (logged (BitVec.ofInt 32 (flags.toNat % 16 : Nat)) msg) := by
  have hlt : flags.toNat % 16 < 16 := Nat.mod_lt _ (by decide)
  obtain ⟨word, hword⟩ := toDigits_last (b := 16) (by decide) flags.toNat
  have hclass := hexDigitClass_of_mem_toDigits flags.toNat
  rw [hword] at hclass
  obtain ⟨groups, hmatch, hthird, hfourth⟩ :=
    fullMatch_line (isDigit_of_mem_toDigits tv_sec) Nat.toDigits_ne_nil
      (isDigit_of_mem_sixDigits tv_usec) (sixDigits_ne_nil tv_usec) hclass
      (fun c hc => by rw [anyClass, hmsg c hc]; rfl)
  have hline : printed tv_sec tv_usec flags msg = Nat.toDigits 10 tv_sec ++ '.' ::
      (sixDigits tv_usec ++ ' ' :: (word ++ (flags.toNat % 16).digitChar :: ' ' :: msg)) := by
    rw [printed, hword]
    simp
  rw [log, hline, hmatch]
  simp only [hthird, hfourth, Option.getD_some, parseHex_digitChar hlt]
  rfl

/-- With one the line is not taken apart. -/
theorem log_printed_lineTerminator (tv_sec tv_usec : Nat) (flags : BitVec 32) {msg : Text}
    {c : Char} (hc : c ∈ msg) (hterminator : lineTerminator c = true) :
    log (printed tv_sec tv_usec flags msg) =
      .ok [⟨.INFO, none, ("P:" : Text) ++ printed tv_sec tv_usec flags msg⟩] := by
  have hmem : c ∈ printed tv_sec tv_usec flags msg := by simp [printed, hc]
  rw [log, Regex.fullMatch_eq_none hmem (not_allows_lineTerminator hterminator)]
  rfl

/-- The last digit says the same as the whole word when none of the other flags is set. -/
theorem logged_digit_eq_iff (flags : BitVec 32) (msg : Text) :
    logged (BitVec.ofInt 32 (flags.toNat % 16 : Nat)) msg = logged flags msg ↔
      severity flags = 0 := by
  have hlt : flags.toNat % 16 < 16 := Nat.mod_lt _ (by decide)
  rw [logged_digit hlt, ← logStatus_eq_INFO_iff, logged, logLevel, toNat_level]
  rw [List.cons.injEq, LogMessage.mk.injEq]
  exact ⟨fun h => h.1.1.symm, fun h => ⟨⟨h.symm, rfl, rfl⟩, rfl⟩⟩

/-- The flags are decoded when the message is a line for `.` as well and says nothing
    severe. -/
theorem logs_iff (s : LogLoop) (tv_sec tv_usec : Nat) (flags : BitVec 32) (msg : Text)
    (hn : '\n' ∉ msg) (hr : '\r' ∉ msg) :
    s.logLines (x_msg_va tv_sec tv_usec flags msg) =
        .ok { s with messages := s.messages ++ logged flags msg } ↔
      (∀ c ∈ msg, lineTerminator c = false) ∧ severity flags = 0 := by
  rw [logLines_x_msg_va s tv_sec tv_usec flags hn hr, ← logged_digit_eq_iff flags msg]
  have happend : ∀ {x y : List LogMessage},
      (do return { s with messages := s.messages ++ (← (.ok x : Java (List LogMessage))) }) =
        (.ok { s with messages := s.messages ++ y } : Java LogLoop) ↔ x = y := by
    intro x y
    simp [pure, Except.pure, bind, Except.bind]
  by_cases hmsg : ∀ c ∈ msg, lineTerminator c = false
  · rw [log_printed tv_sec tv_usec flags hmsg, happend]
    exact (and_iff_right hmsg).symm
  · have hsome : ∃ c ∈ msg, lineTerminator c = true := by simpa using hmsg
    obtain ⟨c, hc, hterminator⟩ := hsome
    rw [log_printed_lineTerminator tv_sec tv_usec flags hc hterminator, happend]
    refine ⟨fun h => ?_, fun h => absurd h.1 hmsg⟩
    have hlevel := congrArg LogMessage.ovpnlevel (List.cons.inj h).1
    exact absurd hlevel (Option.some_ne_none _).symm

theorem logs_iff_http_proxy :
    let s : LogLoop := ⟨none, []⟩
    let msg : Text := "Send to HTTP proxy"
    s.logLines (x_msg_va 1380308330 240114 0x18000002 msg) =
        .ok { s with messages := s.messages ++ logged 0x18000002 msg } ↔
      (∀ c ∈ msg, lineTerminator c = false) ∧ severity 0x18000002 = 0 :=
  logs_iff ⟨none, []⟩ 1380308330 240114 0x18000002 "Send to HTTP proxy" (by decide) (by decide)

/-- A warning is logged as an information. -/
theorem not_logs_warning :
    let s : LogLoop := ⟨none, []⟩
    x_msg_va 1380308330 240114 0x42 "cipher" = ("1380308330.240114 42 cipher\n" : Text) ∧
      logged 0x42 "cipher" = [⟨.WARNING, some 2, "cipher"⟩] ∧
      s.logLines (x_msg_va 1380308330 240114 0x42 "cipher") =
        .ok ⟨none, [⟨.INFO, some 2, "cipher"⟩]⟩ ∧
      ¬s.logLines (x_msg_va 1380308330 240114 0x42 "cipher") =
        .ok { s with messages := s.messages ++ logged 0x42 "cipher" } := by
  intro s
  have hmsg : ('\n' : Char) ∉ ("cipher" : Text) ∧ '\r' ∉ ("cipher" : Text) := by decide
  have hline : ∀ c ∈ ("cipher" : Text), lineTerminator c = false := by
    intro c hc
    have hall : ("cipher" : Text).all (fun c => !lineTerminator c) = true := by decide
    exact Bool.not_eq_true' _ ▸ List.all_eq_true.mp hall c hc
  have hlog : s.logLines (x_msg_va 1380308330 240114 0x42 "cipher") =
      .ok ⟨none, [⟨.INFO, some 2, "cipher"⟩]⟩ := by
    rw [logLines_x_msg_va _ _ _ _ hmsg.1 hmsg.2, log_printed _ _ _ hline]
    decide
  refine ⟨by decide, by decide, hlog, ?_⟩
  rw [hlog]
  decide

end OpenVPNThread

end OpenVpnAndroid
