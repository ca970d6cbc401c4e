/-
  OpenVpnAndroid/ManagementDialogue.lean
  ======================================
  **OpenVPN asks and the management thread answers.**

  A question goes through a stream to the Java side and the answer through another one
  back; both may be cut into reads in any way (`Transport`).  A user name and a password
  come to OpenVPN as the app has them exactly when they can be printed, are not too
  long and are not the tag for a blank one (`credentials_arrive_iff`).
-/
import OpenVpnAndroid.ManagementThread
import OpenVpnAndroid.WireText

namespace OpenVpnAndroid

/-! ### Streams -/

/-- A way to cut a stream into reads of at most `size` bytes. -/
structure Transport (size : Nat) where
  cut : List UInt8 → List (List UInt8)
  flatten_cut : ∀ bytes, (cut bytes).flatten = bytes
  sizes : ∀ bytes, ∀ buf ∈ cut bytes, buf ≠ [] ∧ buf.length ≤ size

/-- One byte at a time. -/
def Transport.bytewise {size : Nat} (h : 0 < size) : Transport size where
  cut bytes := bytes.map fun b => [b]
  flatten_cut bytes := by
    induction bytes with
    | nil => rfl
    | cons b bytes ih => rw [List.map_cons, List.flatten_cons, ih, List.singleton_append]
  sizes bytes buf hbuf := by
    obtain ⟨b, -, rfl⟩ := List.mem_map.mp hbuf
    exact ⟨List.cons_ne_nil _ _, h⟩

/-- Nothing is written, nothing is read. -/
theorem Transport.cut_nil {size : Nat} (transport : Transport size) : transport.cut [] = [] := by
  rcases h : transport.cut [] with _ | ⟨buf, rest⟩
  · rfl
  · have hflatten := transport.flatten_cut []
    have hbuf := (transport.sizes [] buf (by rw [h]; exact List.mem_cons_self)).1
    rw [h, List.flatten_cons] at hflatten
    exact absurd (List.append_eq_nil_iff.mp hflatten).1 hbuf

/-- The bytes of a C string. -/
def cBytes (text : Text) : List UInt8 := text.map fun c => UInt8.ofNat c.toNat

theorem cText_cBytes {text : Text} (h : Ascii7 text) : cText (cBytes text) = text := by
  rw [cText, cBytes, List.map_map]
  exact (List.map_congr_left fun c hc => toChar_ofNat (h c hc)).trans (List.map_id text)

namespace ManagementReader

/-- ASCII is decoded byte by byte. -/
theorem decode_ascii {bytes : List UInt8} (h : ∀ b ∈ bytes, b.toNat < 128) :
    Utf8.decode bytes = cText bytes := by
  have hencode : Utf8.encode (cText bytes) = bytes := by
    induction bytes with
    | nil => rfl
    | cons b bytes ih =>
        obtain ⟨hb, hbytes⟩ := List.forall_mem_cons.mp h
        have hchar : String.utf8EncodeChar b.toChar = [b] := by
          rw [utf8EncodeChar_of_lt (c := b.toChar) hb]
          exact congrArg (fun b => [b]) UInt8.ofNat_toNat
        rw [cText, List.map_cons, Utf8.encode_cons, hchar, List.singleton_append, ← cText,
          ih hbytes]
  have hdecode := congrArg Utf8.decode hencode
  rw [Utf8.decode_encode] at hdecode
  exact hdecode.symm

/-- An ASCII line is read as it was sent, however it is cut. -/
theorem run_ascii_line {line : ManagementLine} (h : Ascii7 line.text)
    {reads : List (List UInt8)} (hreads : reads.flatten = cBytes line.text) :
    run reads = ([line.content], []) := by
  have hbyte : ∀ b ∈ reads.flatten, b.toNat < 128 := by
    intro b hb
    rw [hreads] at hb
    obtain ⟨c, hc, rfl⟩ := List.mem_map.mp hb
    have hlt := h c hc
    rw [UInt8.toNat_ofNat_of_lt' (by rw [UInt8.size]; omega)]
    exact hlt
  have hdecode : reads.flatMap Utf8.decode = cText reads.flatten := by
    rw [cText, List.map_flatten, List.flatMap_def]
    refine congrArg List.flatten (List.map_congr_left fun buf hbuf => ?_)
    exact decode_ascii fun b hb => hbyte b (List.mem_flatten_of_mem hbuf hb)
  rw [run_eq, hdecode, hreads, cText_cBytes h, ← List.append_nil line.text, processInput_text,
    processInput_of_none rfl]

end ManagementReader

/-! ### A question and its answer -/

/-- The two programs. -/
structure Dialogue where
  openvpn : ManagementConnection × CommandLine
  app : ManagementThread

/-- The two directions of the socket; the Java side reads 2048 bytes at most. -/
structure Socket where
  down : Transport 2048
  up : Transport CommandLine.READ_SIZE

namespace Dialogue

open ManagementConnection ManagementThread

/-- What OpenVPN asks for. -/
inductive CredentialQuestion where
  | privateKey
  | auth
  | httpProxy
deriving DecidableEq, Repr

namespace CredentialQuestion

def type : CredentialQuestion → Text
  | privateKey => "Private Key"
  | auth => "Auth"
  | httpProxy => "HTTP Proxy"

def mode : CredentialQuestion → UpQueryMode
  | privateKey => .pass
  | auth | httpProxy => .userPass

end CredentialQuestion

variable (env : ThreadEnvironment) (socket : Socket)

/-- The thread after a message, which has the end of a line behind it (`LOG_PRINT_CRLF`). -/
def heard (alert : Text) (t : ManagementThread) : ManagementThread :=
  let reads := socket.down.cut (cBytes (alert ++ ['\r', '\n']))
  (processCommands env (ManagementReader.run reads).1 t).2

/-- The reads of what the thread has written since. -/
def reads (t t' : ManagementThread) : List (List UInt8) :=
  socket.up.cut (Utf8.encode (t'.written.drop t.written.length).flatten)

/-- OpenVPN asks for `type`: the answer, if it comes. -/
def askUserPass (mode : UpQueryMode) (type username : Text) (d : Dialogue) :
    Option (UserPass × Dialogue) :=
  let app := heard env socket (alertMessage mode type username) d.app
  (management_query_user_pass d.openvpn mode type username (reads socket d.app app)).map
    fun r => (r.1, ⟨r.2, app⟩)

/-- Nothing is under way on the side of OpenVPN. -/
structure Idle (s : ManagementConnection × CommandLine) : Prop where
  in_extra : s.1.in_extra = none
  buffers : s.2 = ⟨[], []⟩

variable {env socket} {t : ManagementThread}

variable (env socket) in
theorem heard_eq {alert : Text} (hascii : Ascii7 alert) (hline : '\n' ∉ alert) :
    heard env socket alert t = (t.processCommand env alert).2 := by
  let line : ManagementLine := ⟨alert, true, hline, fun h => absurd h (by decide)⟩
  have htext : Ascii7 line.text := by
    intro c hc
    rcases List.mem_append.mp hc with hc | hc
    · exact hascii c hc
    · rcases List.mem_cons.mp hc with rfl | hc
      · decide
      · rw [List.mem_singleton.mp hc]
        decide
  have hrun := ManagementReader.run_ascii_line htext
    (socket.down.flatten_cut (cBytes (alert ++ ['\r', '\n'])))
  rw [heard, hrun]
  change (processCommands env [alert] t).2 = _
  rw [processCommands]
  split
  · next hcommand => rw [hcommand, processCommands]
  · next hcommand => rw [hcommand]

/-! ### OpenVPN reads commands -/

/-- The query waits, and this has been answered. -/
structure Waiting (man : ManagementConnection) (mode : UpQueryMode) (type : Text)
    (up : UserPass) : Prop where
  mode : man.up_query_mode = mode
  type : man.up_query_type = some type
  up_query : man.up_query = up
  in_extra : man.in_extra = none

/-- `man_up_finalize` in a query. -/
def finalized (mode : UpQueryMode) (up : UserPass) : UserPass :=
  if up.password = [] ∨ mode = .userPass ∧ up.username = [] then up
  else { up with defined := true }

variable {man : ManagementConnection} {mode : UpQueryMode} {type : Text} {up : UserPass}

theorem Waiting.answer (h : Waiting man mode type up) (hmode : mode ≠ .disabled)
    (string prompt : Text) (dest : UserPassField) :
    Waiting (man.man_query_user_pass type string true prompt dest) mode type
      (finalized mode (up.set dest (strncpynt string USER_PASS_LEN))) := by
  obtain ⟨up_query_mode, up_query_type, up_query, client_version, ext_key_state, ext_key_input,
    in_extra_cmd, in_extra, out⟩ := man
  obtain ⟨rfl, rfl, rfl, rfl⟩ := h
  dsimp only at hmode ⊢
  rw [man_query_user_pass, if_pos rfl]
  dsimp only
  rw [if_pos rfl]
  generalize up_query.set dest (strncpynt string USER_PASS_LEN) = answered
  cases up_query_mode <;> simp only [man_up_finalize, finalized]
  all_goals
    first
      | exact absurd rfl hmode
      | by_cases hpassword : answered.password = [] <;>
          by_cases husername : answered.username = [] <;>
          simp only [hpassword, husername, if_true, if_false, true_or, and_true, and_false,
            false_or, reduceCtorEq] <;>
          exact ⟨rfl, rfl, rfl, rfl⟩

/-- A line of three parameters. -/
theorem Waiting.processLine (h : Waiting man mode type up) {l : List UInt8} {cmd : Text}
    {args : List Text} (hparse : Options.parse_parms (cText l) = .ok (cmd :: args)) :
    man.processLine l = man.in_extra_reset.man_dispatch_command cmd args := by
  rw [ManagementConnection.processLine, h.in_extra]
  dsimp only
  rw [man_process_command, hparse]

theorem Waiting.reset (h : Waiting man mode type up) :
    Waiting man.in_extra_reset mode type up := ⟨h.mode, h.type, h.up_query, rfl⟩

/-! ### The commands of the app -/

/-- A command with a quoted type and a value. -/
def contentOf (command needed value : Text) : Text :=
  command ++ (" '" : Text) ++ needed ++ ("' " : Text) ++ value

/-- A word that can be a command or a status. -/
structure Plain (word : Text) : Prop where
  ne_nil : word ≠ []
  ascii : Ascii7 word
  not_special : ∀ c ∈ word, ConfigParser.special c = false
  not_space : ∀ c ∈ word, Options.space c = false
  printable : ∀ c ∈ word, 32 ≤ c.toNat ∧ c.toNat ≠ 127
  length_le : word.length ≤ 127

/-- What stands between the apostrophes. -/
structure Quotable (type : Text) : Prop where
  ascii : Ascii7 type
  printable : ∀ c ∈ type, 32 ≤ c.toNat ∧ c.toNat ≠ 127
  apostrophe : APOSTROPHE ∉ type
  length_le : type.length ≤ 127

theorem Quotable.nul (h : Quotable type) : NUL ∉ type := fun hmem =>
  absurd (h.printable NUL hmem).1 (by decide)

theorem Plain.token {word : Text} (h : Plain word) : Options.Token word word :=
  Options.token_word h.ne_nil h.not_special h.not_space (h.length_le.trans (by decide))

theorem token_value {value : Text} (h : Deliverable value) :
    Options.Token (wire (VpnProfile.openVpnEscape value)) (wire value) := by
  have hprintable := h.wire_printable
  rw [wire_openVpnEscape]
  refine Options.token_openVpnEscape (fun hmem => ?_) (fun hmem => ?_) (fun c hc hspace => ?_) ?_
  · exact absurd (hprintable _ hmem).1 (by decide)
  · exact absurd (hprintable _ hmem).1 (by decide)
  · have hlow := (hprintable c hc).1
    simp only [Options.space, Bool.or_eq_true, Bool.and_eq_true, decide_eq_true_eq, beq_iff_eq]
      at hspace
    rcases hspace with (rfl | hcontrol) | hblank
    · exact absurd hlow (by decide)
    · omega
    · exact hblank
  · rw [length_wire]
    exact h.length_lt.le.trans (by decide)

/-- The line is read as the command, the type and what the value stands for. -/
theorem parse_parms_content {command value parm : Text} (hcommand : Plain command)
    (htype : Quotable type) (hvalue : Options.Token (wire value) parm) :
    Options.parse_parms (cText (Utf8.encode (contentOf command type value))) =
      .ok [command, type, parm] := by
  have hopen : wire (" '" : Text) = " '" := wire_of_ascii (ascii7_of_all (by decide))
  have hclose : wire ("' " : Text) = "' " := wire_of_ascii (ascii7_of_all (by decide))
  have hline : cText (Utf8.encode (contentOf command type value)) =
      Options.tokenLine [command, APOSTROPHE :: (type ++ [APOSTROPHE]), wire value] := by
    change wire (contentOf command type value) = _
    rw [contentOf, wire_append, wire_append, wire_append, wire_append,
      wire_of_ascii hcommand.ascii, wire_of_ascii htype.ascii, hopen, hclose]
    simp [Options.tokenLine, List.intercalate_cons_cons, APOSTROPHE]
  rw [hline]
  refine Options.parse_parms_tokens ?_ (by decide : 3 < Options.MAX_PARMS)
  exact .cons hcommand.token (.cons (Options.token_singleQuoted htype.apostrophe htype.nul
    (htype.length_le.trans (by decide))) (.cons hvalue .nil))

/-- A line that OpenVPN reads as it was written. -/
structure Sendable (content : Text) : Prop where
  printable : ∀ c ∈ content, 32 ≤ c.toNat ∧ c.toNat ≠ 127
  length_le : (wire content).length ≤ 768

theorem Plain.sendable {command value : Text} (hcommand : Plain command) (htype : Quotable type)
    (hvalue : ∀ c ∈ value, 32 ≤ c.toNat ∧ c.toNat ≠ 127) (hlen : (wire value).length ≤ 256) :
    Sendable (contentOf command type value) where
  printable c hc := by
    rw [contentOf] at hc
    simp only [List.mem_append] at hc
    rcases hc with (((hc | hc) | hc) | hc) | hc
    · exact hcommand.printable c hc
    · revert c
      exact List.forall_mem_cons.mpr ⟨by decide, List.forall_mem_cons.mpr ⟨by decide, by simp⟩⟩
    · exact htype.printable c hc
    · revert c
      exact List.forall_mem_cons.mpr ⟨by decide, List.forall_mem_cons.mpr ⟨by decide, by simp⟩⟩
    · exact hvalue c hc
  length_le := by
    have hcommandLen := hcommand.length_le
    have htypeLen := htype.length_le
    rw [contentOf, wire_append, wire_append, wire_append, wire_append, wire_of_ascii hcommand.ascii,
      wire_of_ascii htype.ascii, List.length_append, List.length_append, List.length_append,
      List.length_append]
    have hopen : (wire (" '" : Text)).length = 2 := by decide
    have hclose : (wire ("' " : Text)).length = 2 := by decide
    omega

theorem sendable_value {command value : Text} (hcommand : Plain command)
    (htype : Quotable type) (hvalue : Deliverable value) :
    Sendable (contentOf command type (VpnProfile.openVpnEscape value)) := by
  refine hcommand.sendable htype (printable_openVpnEscape hvalue.printable) ?_
  have hle := length_openVpnEscape_le (wire value)
  have hlt := hvalue.length_lt
  rw [← length_wire] at hlt
  rw [wire_openVpnEscape]
  exact hle.trans (by rw [USER_PASS_LEN] at hlt; omega)

theorem encode_lines (contents : List Text) :
    Utf8.encode (contents.map (· ++ ['\n'])).flatten =
      (contents.map Utf8.encode).flatMap (· ++ [LINE_FEED]) := by
  have hend : Utf8.encode ['\n'] = [LINE_FEED] := by decide
  induction contents with
  | nil => rfl
  | cons content contents ih =>
      rw [List.map_cons, List.flatten_cons, Utf8.encode_append, Utf8.encode_append, hend, ih]
      rfl

variable (socket) in
/-- The lines that the app writes are the lines that OpenVPN reads. -/
theorem written_reads {t' : ManagementThread} {contents : List Text}
    (hsendable : ∀ content ∈ contents, Sendable content)
    (hwritten : t'.written = t.written ++ contents.map (· ++ ['\n'])) :
    Written (contents.map Utf8.encode) (reads socket t t') where
  clean l hl := by
    obtain ⟨content, hcontent, rfl⟩ := List.mem_map.mp hl
    exact (clean_encode (hsendable content hcontent).printable).1
  unbroken l hl := by
    obtain ⟨content, hcontent, rfl⟩ := List.mem_map.mp hl
    exact (clean_encode (hsendable content hcontent).printable).2
  fits l hl := by
    obtain ⟨content, hcontent, rfl⟩ := List.mem_map.mp hl
    have hle := (hsendable content hcontent).length_le
    rw [length_wire] at hle
    rw [CommandLine.READ_SIZE, CommandLine.CAPACITY]
    omega
  sizes := socket.up.sizes _
  flatten := by
    rw [reads, socket.up.flatten_cut, hwritten, List.drop_left, encode_lines]

/-! ### User names and passwords -/

variable {d : Dialogue} {q : CredentialQuestion} {username : Option Text} {pw : Text}
  {passwordCache : Option PasswordCache}

theorem quotable_type (q : CredentialQuestion) : Quotable q.type := by
  cases q
  all_goals exact ⟨ascii7_of_all (by decide),
    fun c hc => (printable_of_all (by decide) c hc).imp_right And.left, by decide, by decide⟩

theorem plain_of_all {word : Text} (hne : word ≠ [])
    (h : word.all (fun c => c.toNat < 127 && 33 ≤ c.toNat && !ConfigParser.special c) = true)
    (hlen : word.length ≤ 127) : Plain word := by
  have hall : ∀ c ∈ word, c.toNat < 127 ∧ 33 ≤ c.toNat ∧ ConfigParser.special c = false := by
    simpa [and_assoc] using h
  refine ⟨hne, fun c hc => ?_, fun c hc => (hall c hc).2.2, fun c hc => ?_, fun c hc => ?_, hlen⟩
  · have := (hall c hc).1
    omega
  · obtain ⟨-, hlow, -⟩ := hall c hc
    have hnul : c ≠ NUL := by
      rintro rfl
      exact absurd hlow (by decide)
    have hblank : c ≠ ' ' := by
      rintro rfl
      exact absurd hlow (by decide)
    simp [Options.space, hnul, hblank]
    omega
  · obtain ⟨hlt, hlow, -⟩ := hall c hc
    omega

theorem plain_username : Plain "username" := plain_of_all (by decide) (by decide) (by decide)

theorem plain_password : Plain "password" := plain_of_all (by decide) (by decide) (by decide)

variable (env) in
/-- The thread answers with what the profile and the cache have. -/
theorem written_question (hcred : t.credentials q.type = (username, some pw, passwordCache)) :
    (t.processCommand env (alertMessage q.mode q.type [])).2.written =
      t.written ++ ((username.toList.map fun u =>
        contentOf "username" q.type (VpnProfile.openVpnEscape u)) ++
          [contentOf "password" q.type (VpnProfile.openVpnEscape pw)]).map (· ++ ['\n']) := by
  have hargument : ∃ argument, t.processCommand env (alertMessage q.mode q.type []) =
        (.ok (), t.processPWCommand argument) ∧ ¬ ("Auth-Token:" : Text) <+: argument ∧
      quotedPart argument = some q.type ∧ ¬ ("Verification Failed" : Text) <+: argument := by
    cases q
    · exact ⟨"Need 'Private Key' password", rfl, by decide, by decide, by decide⟩
    · exact ⟨"Need 'Auth' username/password", rfl, by decide, by decide, by decide⟩
    · exact ⟨"Need 'HTTP Proxy' username/password", rfl, by decide, by decide, by decide⟩
  obtain ⟨argument, hcommand, htoken, hquoted, hfailed⟩ := hargument
  rw [hcommand, ManagementThread.processPWCommand, if_neg htoken, hquoted]
  dsimp only
  rw [if_neg hfailed, hcred]
  cases username with
  | none => rfl
  | some u =>
      simp [managmentCommand, credentialCommand, contentOf]

/-- A blank password becomes its tag. -/
def tagged (pw : Text) : Text := if pw = [] then blank_up else pw

theorem strncpynt_of_lt {v : Text} (h : v.length < USER_PASS_LEN) :
    strncpynt v USER_PASS_LEN = v :=
  List.take_of_length_le (Nat.le_sub_one_of_lt h)

theorem Waiting.answer_username (h : Waiting man .userPass type .clear)
    (htype : Quotable type) {u : Text} (hu : Deliverable u) :
    Waiting
      (man.processLine (Utf8.encode (contentOf "username" type (VpnProfile.openVpnEscape u))))
      .userPass type ⟨wire u, [], false⟩ := by
  have hlen : (wire u).length < USER_PASS_LEN := by
    rw [length_wire]
    exact hu.length_lt
  have hanswer := h.reset.answer (by decide) (wire u) "username" .username
  rw [h.processLine (parse_parms_content plain_username htype (token_value hu))]
  change Waiting (man.in_extra_reset.man_query_username type (wire u)) _ _ _
  rw [man_query_username, h.reset.mode, h.reset.type]
  rw [strncpynt_of_lt hlen] at hanswer
  exact hanswer

theorem Waiting.answer_password {name : Text} (h : Waiting man mode type ⟨name, [], false⟩)
    (hmode : mode = .pass ∨ mode = .userPass) (htype : Quotable type) {pw : Text}
    (hpw : Deliverable pw) :
    Waiting
      (man.processLine (Utf8.encode (contentOf "password" type (VpnProfile.openVpnEscape pw))))
      mode type ⟨name, tagged (wire pw), !decide (mode = .userPass ∧ name = [])⟩ := by
  have hlen : (tagged (wire pw)).length < USER_PASS_LEN := by
    rw [tagged]
    split_ifs
    · decide
    · rw [length_wire]
      exact hpw.length_lt
  have hne : tagged (wire pw) ≠ [] := by
    rw [tagged]
    split_ifs with hpw
    · decide
    · exact hpw
  have hneeded : ((mode == .pass || mode == .userPass) && (some type).isSome) = true := by
    rcases hmode with rfl | rfl <;> rfl
  have hdisabled : mode ≠ .disabled := by
    rcases hmode with rfl | rfl <;> decide
  have hanswer := h.reset.answer hdisabled (tagged (wire pw)) "password" .password
  rw [h.processLine (parse_parms_content plain_password htype (token_value hpw))]
  change Waiting (man.in_extra_reset.man_query_password type (wire pw)) _ _ _
  rw [man_query_password, h.reset.mode, h.reset.type, hneeded]
  have hfinal : finalized mode (UserPass.set ⟨name, [], false⟩ .password (tagged (wire pw))) =
      ⟨name, tagged (wire pw), !decide (mode = .userPass ∧ name = [])⟩ := by
    simp only [finalized, UserPass.set, hne, false_or]
    split_ifs with hname <;> simp [hname]
  rw [strncpynt_of_lt hlen, hfinal] at hanswer
  exact hanswer

theorem waiting_askUserPass (hidle : Idle d.openvpn) (mode : UpQueryMode) (type username : Text) :
    Waiting (d.openvpn.1.askUserPass mode type username) mode type .clear :=
  ⟨rfl, rfl, rfl, hidle.in_extra⟩

/-- A query ends with the last line of the answer, if that line is enough and no line before. -/
theorem query_of_last {s : ManagementConnection × CommandLine} (hidle : Idle s) {text : Text}
    {ls reads : List (List UInt8)} {last : List UInt8} (hwritten : Written (ls ++ [last]) reads)
    (hbefore : ∀ k ≤ ls.length,
      ((ls.take k).foldl processLine (s.1.askUserPass mode type text)).up_query.defined = false)
    (hlast : Waiting ((ls.foldl processLine (s.1.askUserPass mode type text)).processLine last)
      mode type up) :
    ∃ s', Idle s' ∧ management_query_user_pass s mode type text reads =
      if up.defined then some (passBlank up, s') else none := by
  have hall : (ls ++ [last]).foldl processLine (s.1.askUserPass mode type text) =
      (ls.foldl processLine (s.1.askUserPass mode type text)).processLine last := by
    rw [List.foldl_append, List.foldl_cons, List.foldl_nil]
  have hfirst : ∀ k < (ls ++ [last]).length,
      (((ls ++ [last]).take k).foldl processLine
        (s.1.askUserPass mode type text)).up_query.defined = false := by
    intro k hk
    have hle : k ≤ ls.length := by
      rw [List.length_append, List.length_singleton] at hk
      omega
    rw [List.take_append_of_le_length hle]
    exact hbefore k hle
  have hdone : ((ls ++ [last]).foldl processLine
      (s.1.askUserPass mode type text)).up_query.defined = up.defined := by
    rw [hall, hlast.up_query]
  rw [management_query_user_pass, hidle.buffers]
  cases hup : up.defined with
  | true =>
      rw [hup] at hdone
      rw [eventLoop_lines hwritten (by simp) hfirst hdone, Option.map_some, hall]
      refine ⟨({ (ls.foldl processLine (s.1.askUserPass mode type text)).processLine last with
        up_query_mode := .disabled, up_query_type := none, up_query := .clear }, ⟨[], []⟩),
        ⟨hlast.in_extra, rfl⟩, ?_⟩
      rw [if_pos rfl, hlast.up_query]
  | false =>
      refine ⟨s, hidle, ?_⟩
      rw [eventLoop_lines_eq_none hwritten fun k hk => ?_]
      · rfl
      · rcases Nat.lt_or_eq_of_le hk with hlt | rfl
        · exact hfirst k hlt
        · rw [List.take_length, hdone, hup]

/-- A user name goes with a question for one. -/
theorem mode_of_username {u : Text} {r : Option Text × Option PasswordCache}
    (h : t.credentials q.type = (some u, r)) : q.mode = .userPass := by
  cases q with
  | privateKey =>
      have hnone : (some u, r).1 = none := h ▸ t.credentials_privateKey
      cases hnone
  | auth => rfl
  | httpProxy => rfl

/-- The app's lines in front of the password leave the query waiting for it. -/
theorem waiting_before_password (hidle : Idle d.openvpn)
    (hcred : d.app.credentials q.type = (username, some pw, passwordCache))
    (hu : ∀ u ∈ username, Deliverable u) :
    let asked := d.openvpn.1.askUserPass q.mode q.type []
    let ls := username.toList.map fun u =>
      Utf8.encode (contentOf "username" q.type (VpnProfile.openVpnEscape u))
    Waiting (ls.foldl processLine asked) q.mode q.type ⟨wire (username.getD []), [], false⟩ ∧
      ∀ k ≤ ls.length, ((ls.take k).foldl processLine asked).up_query.defined = false := by
  intro asked ls
  have hasked : Waiting asked q.mode q.type .clear := waiting_askUserPass hidle q.mode q.type []
  cases username with
  | none =>
      refine ⟨hasked, fun k _ => ?_⟩
      change ((List.take k []).foldl processLine asked).up_query.defined = false
      rw [List.take_nil, List.foldl_nil, hasked.up_query]
      rfl
  | some u =>
      have hmode := mode_of_username hcred
      rw [hmode] at hasked ⊢
      have hanswer := hasked.answer_username (quotable_type q) (hu u rfl)
      refine ⟨hanswer, fun k hk => ?_⟩
      rcases Nat.le_one_iff_eq_zero_or_eq_one.mp hk with rfl | rfl
      · rw [List.take_zero, List.foldl_nil, hasked.up_query]
        rfl
      · exact congrArg UserPass.defined hanswer.up_query

theorem passBlank_tagged (name pw : Text) :
    passBlank ⟨name, tagged (wire pw), true⟩ =
      ⟨name, if pw = blank_up then [] else wire pw, true⟩ := by
  have hascii : wire blank_up = blank_up := wire_of_ascii (ascii7_of_all (by decide))
  have hiff : wire pw = blank_up ↔ pw = blank_up :=
    ⟨fun h => wire_injective (h.trans hascii.symm), fun h => by rw [h, hascii]⟩
  by_cases hnil : pw = []
  · subst hnil
    rfl
  · rw [tagged, if_neg (mt wire_eq_nil_iff.mp hnil), passBlank]
    by_cases hblank : pw = blank_up
    · rw [if_pos (hiff.mpr hblank), if_pos hblank]
    · rw [if_neg (mt hiff.mp hblank), if_neg hblank]

/-- What comes of values that can be delivered. -/
theorem askUserPass_eq (hidle : Idle d.openvpn)
    (hcred : d.app.credentials q.type = (username, some pw, passwordCache))
    (hu : ∀ u ∈ username, Deliverable u) (hpw : Deliverable pw) :
    (askUserPass env socket q.mode q.type [] d).map (·.1) =
      if q.mode = .userPass ∧ username.getD [] = [] then none
      else some ⟨wire (username.getD []), if pw = blank_up then [] else wire pw, true⟩ := by
  have hmode : q.mode = .pass ∨ q.mode = .userPass := by cases q <;> decide
  have hascii : Ascii7 (alertMessage q.mode q.type []) := by
    cases q <;> exact ascii7_of_all (by decide)
  have hline : '\n' ∉ alertMessage q.mode q.type [] := by cases q <;> decide
  have hwritten := written_question env hcred
  rw [← heard_eq env socket hascii hline] at hwritten
  have hsendable : ∀ content ∈ (username.toList.map fun u =>
      contentOf "username" q.type (VpnProfile.openVpnEscape u)) ++
        [contentOf "password" q.type (VpnProfile.openVpnEscape pw)], Sendable content := by
    intro content hcontent
    rcases List.mem_append.mp hcontent with hcontent | hcontent
    · obtain ⟨u, hmem, rfl⟩ := List.mem_map.mp hcontent
      exact sendable_value plain_username (quotable_type q) (hu u (Option.mem_toList.mp hmem))
    · rw [List.mem_singleton.mp hcontent]
      exact sendable_value plain_password (quotable_type q) hpw
  have hreads := written_reads socket hsendable hwritten
  rw [List.map_append, List.map_map] at hreads
  obtain ⟨hwaiting, hbefore⟩ := waiting_before_password hidle hcred hu
  have hpassword := hwaiting.answer_password hmode (quotable_type q) hpw
  obtain ⟨s', -, hquery⟩ := query_of_last hidle hreads hbefore hpassword
  rw [askUserPass, hquery]
  dsimp only
  simp only [wire_eq_nil_iff]
  by_cases hnone : q.mode = .userPass ∧ username.getD [] = []
  · rw [decide_eq_true hnone, if_pos hnone]
    rfl
  · rw [decide_eq_false hnone, if_neg hnone, Bool.not_false, passBlank_tagged]
    rfl

/-- **The app's credentials.**  OpenVPN gets the user name and the password as the app has them
    exactly when both can be printed, are not too long and are not blank in a way that the
    dialogue cannot carry; however the streams are cut. -/
theorem credentials_arrive_iff (hidle : Idle d.openvpn)
    (hcred : d.app.credentials q.type = (username, some pw, passwordCache)) :
    (askUserPass env socket q.mode q.type [] d).map (·.1) =
        some ⟨wire (username.getD []), wire pw, true⟩ ↔
      (∀ u ∈ username, Deliverable u) ∧ Deliverable pw ∧
        (q.mode = .userPass → username.getD [] ≠ []) ∧ pw ≠ blank_up := by
  constructor
  · intro h
    obtain ⟨r, hasked, hr⟩ := Option.map_eq_some_iff.mp h
    obtain ⟨answered, hquery, rfl⟩ := Option.map_eq_some_iff.mp hasked
    have hvalid : d.openvpn.2.Valid := by
      rw [hidle.buffers]
      exact ⟨fun c hc => absurd hc List.not_mem_nil, rfl, Nat.zero_le _⟩
    have hread := read_management_query_user_pass hvalid hquery
    dsimp only at hr
    rw [hr] at hread
    have hu : ∀ u ∈ username, Deliverable u := by
      rintro u rfl
      exact .of_read hread.username hread.username_length
    have hpw : Deliverable pw := .of_read hread.password hread.password_length
    rw [askUserPass_eq hidle hcred hu hpw] at h
    split_ifs at h with hnone hblank
    · have hpassword := congrArg UserPass.password (Option.some.inj h)
      rw [hblank] at hpassword
      exact absurd (wire_eq_nil_iff.mp hpassword.symm) (by decide)
    · exact ⟨hu, hpw, fun hmode hnil => hnone ⟨hmode, hnil⟩, hblank⟩
  · rintro ⟨hu, hpw, hname, hblank⟩
    rw [askUserPass_eq hidle hcred hu hpw, if_neg (fun h => hname h.1 h.2), if_neg hblank]

/-- A user name and a password of a profile, one byte in a read. -/
theorem credentials_arrive_iff_user :
    let env : ThreadEnvironment :=
      ⟨⟨none, false, [], [], fun _ => .null⟩, fun _ => none, fun _ _ => false, fun _ _ => none⟩
    let socket : Socket := ⟨.bytewise (by decide), .bytewise (by decide)⟩
    let profile : ProfilePasswords := ⟨⟨0, by decide⟩, .userpass, some "p\"w 1", none, none⟩
    let app : ManagementThread :=
      ⟨profile, some "user", none, none, TunService.machine.initial, [], [], []⟩
    let d : Dialogue := ⟨(.initial, ⟨[], []⟩), app⟩
    (askUserPass env socket .userPass "Auth" [] d).map (·.1) =
      some ⟨wire "user", wire "p\"w 1", true⟩ := by
  intro env socket profile app d
  refine (@credentials_arrive_iff env socket d .auth (some "user") _ _ ⟨rfl, rfl⟩ rfl).mpr
    ⟨fun u hu => ?_, ⟨?_, by decide⟩, fun _ => by decide, by decide⟩
  · rw [← Option.some.inj hu]
    exact ⟨fun c hc => (printable_of_all (by decide) c hc).imp_right And.left, by decide⟩
  · exact fun c hc => (printable_of_all (by decide) c hc).imp_right And.left

end Dialogue

end OpenVpnAndroid
