/-
  OpenVpnAndroid/Confirmation.lean
  ================================
  **Requests that the app confirms** (`NEED-OK`).

  On Android OpenVPN does not set up the tun itself but asks the app to, step by step, and
  waits for the answer.  A request of printable characters comes to the app as it is, up to
  the end of the buffer that OpenVPN writes it into (`delivered`), and the answer comes back.
-/
import OpenVpnAndroid.ManagementDialogue

namespace OpenVpnAndroid

namespace Dialogue

open ManagementConnection ManagementThread

/-- Code of OpenVPN that asks the app; without a result it waits. -/
abbrev Asking := StateT Dialogue Option

variable (env : ThreadEnvironment) (socket : Socket)

/-- `management_android_control` -/
def management_android_control (command msg : Text) : Asking Bool := fun d =>
  let text := strncpynt msg USER_PASS_LEN
  let app := heard env socket (alertMessage .needOk command text) d.app
  (ManagementConnection.management_android_control d.openvpn command msg
    (reads socket d.app app)).map fun r => (r.1, ⟨r.2, app⟩)

/-- `ANDROID_KEEP_OLD_TUN` and `ANDROID_OPEN_BEFORE_CLOSE` -/
inductive TunMethod where
  | keepOldTun
  | openBeforeClose
deriving DecidableEq, Repr

/-- `managment_android_persisttun_action`; other answers end the program. -/
def managment_android_persisttun_action : Asking TunMethod := fun d =>
  (askUserPass env socket .needOk "PERSIST_TUN_ACTION" "tunmethod" d).bind fun r =>
    if r.1.password = ("NOACTION" : Text) then some (.keepOldTun, r.2)
    else if r.1.password = ("OPEN_BEFORE_CLOSE" : Text) then some (.openBeforeClose, r.2)
    else none

/-! ### The request -/

/-- A request that stands between apostrophes in front of a colon. -/
structure Confirmable (command : Text) : Prop where
  quotable : Quotable command
  colon : ':' ∉ command
  length_le : command.length ≤ 64

theorem confirmable_of_all {command : Text}
    (h : command.all (fun c => 32 ≤ c.toNat && c.toNat < 127 && c != APOSTROPHE && c != ':') = true)
    (hlen : command.length ≤ 64) : Confirmable command := by
  simp only [List.all_eq_true, Bool.and_eq_true, decide_eq_true_eq, bne_iff_ne] at h
  refine ⟨⟨fun c hc => ?_, fun c hc => ?_, fun hmem => ?_, by omega⟩, fun hmem => ?_, hlen⟩
  · have := h c hc
    omega
  · have := h c hc
    omega
  · exact (h _ hmem).1.2 rfl
  · exact (h _ hmem).2 rfl

/-- What OpenVPN may send. -/
def AsciiPrintable (text : Text) : Prop := ∀ c ∈ text, 32 ≤ c.toNat ∧ c.toNat < 127

theorem asciiPrintable_of_all {text : Text}
    (h : text.all (fun c => 32 ≤ c.toNat && c.toNat < 127) = true) : AsciiPrintable text := by
  simpa [AsciiPrintable] using h

theorem AsciiPrintable.append {s text : Text} (hs : AsciiPrintable s) (h : AsciiPrintable text) :
    AsciiPrintable (s ++ text) := List.forall_mem_append.mpr ⟨hs, h⟩

theorem AsciiPrintable.ascii7 {text : Text} (h : AsciiPrintable text) : Ascii7 text := fun c hc =>
  Nat.lt_succ_of_lt (h c hc).2

theorem AsciiPrintable.newline {text : Text} (h : AsciiPrintable text) : '\n' ∉ text := fun hmem =>
  absurd (h _ hmem).1 (by decide)

theorem Confirmable.asciiPrintable {command : Text} (h : Confirmable command) :
    AsciiPrintable command := by
  intro c hc
  have := h.quotable.printable c hc
  have := h.quotable.ascii c hc
  omega

/-- `Need '...' confirmation MSG:` -/
def needPrompt (command : Text) : Text :=
  ("Need '" : Text) ++ command ++ ("' confirmation MSG:" : Text)

/-- The part of a message for which there is room. -/
def delivered (command msg : Text) : Text := msg.take (93 - command.length)

variable {env socket} {command msg status : Text} {d : Dialogue} {t t' : ManagementThread}

theorem length_needPrompt (command : Text) : (needPrompt command).length = command.length + 25 := by
  simp [needPrompt]

theorem alertMessage_needOk (h : Confirmable command) (msg : Text) :
    alertMessage .needOk command msg =
      (">NEED-OK:" : Text) ++ (needPrompt command ++ delivered command msg) := by
  have hle := h.length_le
  have halert : alertMessage .needOk command msg =
      ((">NEED-OK:" : Text) ++ needPrompt command ++ msg).take 127 := by
    have hprompt : promptOf .needOk = (("NEED-OK" : Text), ("confirmation" : Text)) := rfl
    have hinner : '>' :: (("NEED-OK" : Text) ++ (":Need '" : Text) ++ command ++ ("' " : Text)
        ++ ("confirmation" : Text)) ++ (" MSG:" : Text) ++ msg =
          (">NEED-OK:" : Text) ++ needPrompt command ++ msg := by
      simp [needPrompt]
    unfold alertMessage
    simp only [true_or, if_true, hprompt]
    exact congrArg (List.take 127) hinner
  have hlen : ((">NEED-OK:" : Text) ++ needPrompt command).length = command.length + 34 := by
    rw [List.length_append, length_needPrompt]
    simp
    omega
  rw [halert, List.take_append, List.take_of_length_le (by omega), hlen, delivered,
    List.append_assoc, show 127 - (command.length + 34) = 93 - command.length by omega]

theorem AsciiPrintable.alert (h : Confirmable command) (hmsg : AsciiPrintable msg) :
    AsciiPrintable (alertMessage .needOk command msg) := by
  have hdelivered : AsciiPrintable (delivered command msg) := fun c hc =>
    hmsg c (List.mem_of_mem_take hc)
  rw [alertMessage_needOk h, needPrompt]
  refine .append (asciiPrintable_of_all (by decide)) (.append (.append (.append ?_ ?_) ?_) hdelivered)
  · exact asciiPrintable_of_all (by decide)
  · exact h.asciiPrintable
  · exact asciiPrintable_of_all (by decide)

/-! ### The app -/

theorem split2_append {separator : Char → Bool} {first : Text} {c : Char} (rest : Text)
    (hfirst : ∀ x ∈ first, separator x = false) (hc : separator c = true) :
    split2 separator (first ++ c :: rest) = (first, some rest) := by
  induction first with
  | nil => simp [split2, hc]
  | cons x first ih =>
      obtain ⟨hx, hfirst⟩ := List.forall_mem_cons.mp hfirst
      simp [split2, hx, ih hfirst]

theorem processCommand_needOk (h : Confirmable command) (msg : Text) :
    t.processCommand env (alertMessage .needOk command msg) =
      t.processNeedCommand env (needPrompt command ++ delivered command msg) := by
  rw [alertMessage_needOk h]
  rfl

/-- The request and its message are read back. -/
theorem processNeedCommand_eq (action : NeedAction) (h : Confirmable command)
    (haction : needAction env command (delivered command msg) = .ok action) :
    t.processNeedCommand env (needPrompt command ++ delivered command msg) =
      t.perform env command (delivered command msg) action := by
  have hshape : needPrompt command ++ delivered command msg =
      ("Need " : Text) ++ APOSTROPHE :: (command ++ APOSTROPHE ::
        ((" confirmation MSG:" : Text) ++ delivered command msg)) := by
    simp [needPrompt, APOSTROPHE]
  have hquoted : quotedPart (needPrompt command ++ delivered command msg) = some command := by
    have htake : (command ++ APOSTROPHE :: ((" confirmation MSG:" : Text)
        ++ delivered command msg)).takeWhile (· ≠ APOSTROPHE) = command := by
      refine (List.takeWhile_append_of_pos fun c hc => ?_).trans ?_
      · exact decide_eq_true fun heq => h.quotable.apostrophe (heq ▸ hc)
      · simp
    rw [hshape, quotedPart]
    change (if APOSTROPHE ∈ _ then some _ else none) = _
    rw [if_pos (by simp), htake]
  have hsplit : (split2 (· == ':') (needPrompt command ++ delivered command msg)).2 =
      some (delivered command msg) := by
    have hcolon : ∀ c ∈ ("Need '" : Text) ++ command ++ ("' confirmation MSG" : Text),
        (c == ':') = false := by
      intro c hc
      rw [beq_eq_false_iff_ne]
      rintro rfl
      rcases List.mem_append.mp hc with hc | hc
      · rcases List.mem_append.mp hc with hc | hc
        · exact absurd hc (by decide)
        · exact h.colon hc
      · exact absurd hc (by decide)
    have htext : needPrompt command ++ delivered command msg = (("Need '" : Text) ++ command
        ++ ("' confirmation MSG" : Text)) ++ ':' :: delivered command msg := by
      simp [needPrompt]
    rw [htext, split2_append _ hcolon rfl]
  rw [processNeedCommand, hquoted, hsplit]
  dsimp only
  rw [haction]

/-! ### The answer -/

/-- A status that OpenVPN takes as it is. -/
structure Status (status : Text) : Prop where
  plain : Plain status
  ne_blank : status ≠ blank_up

theorem plain_needok : Plain "needok" := plain_of_all (by decide) (by decide) (by decide)

theorem Waiting.answer_needok {man : ManagementConnection}
    (h : Waiting man .needOk command .clear) (hcommand : Quotable command)
    (hstatus : Plain status) :
    Waiting (man.processLine (Utf8.encode (contentOf "needok" command status)))
      .needOk command ⟨[], status, true⟩ := by
  have hwire : wire status = status := wire_of_ascii hstatus.ascii
  have htoken : Options.Token (wire status) status := by
    rw [hwire]
    exact hstatus.token
  have hfits : strncpynt status USER_PASS_LEN = status :=
    strncpynt_of_lt (Nat.lt_succ_of_le hstatus.length_le)
  have hanswer := h.reset.answer (by decide) status "needok-confirmation" .password
  rw [h.processLine (parse_parms_content plain_needok hcommand htoken)]
  change Waiting (man.in_extra_reset.man_query_need_ok command status) _ _ _
  rw [man_query_need_ok, h.reset.mode, h.reset.type]
  simpa [hfits, finalized, UserPass.set, UserPass.clear, hstatus.ne_nil] using hanswer

variable (env socket) in
/-- OpenVPN gets the status with which the app answers. -/
theorem askUserPass_needOk (hidle : Idle d.openvpn) (hcommand : Confirmable command)
    (hmsg : AsciiPrintable msg) (hstatus : Status status)
    (hasked : (d.app.processNeedCommand env
      (needPrompt command ++ delivered command msg)).2 = t')
    (hwritten : t'.written = d.app.written ++ [needokCommand command status]) :
    ∃ s', Idle s' ∧
      askUserPass env socket .needOk command msg d = some (⟨[], status, true⟩, ⟨s', t'⟩) := by
  have halert := AsciiPrintable.alert hcommand hmsg
  have happ : heard env socket (alertMessage .needOk command msg) d.app = t' := by
    rw [heard_eq env socket halert.ascii7 halert.newline, processCommand_needOk hcommand, hasked]
  have hlines : t'.written = d.app.written ++
      [contentOf "needok" command status].map (· ++ ['\n']) := hwritten
  have hsendable : ∀ content ∈ [contentOf "needok" command status], Sendable content := by
    intro content hcontent
    rw [List.mem_singleton.mp hcontent]
    refine plain_needok.sendable hcommand.quotable hstatus.plain.printable ?_
    rw [wire_of_ascii hstatus.plain.ascii]
    exact hstatus.plain.length_le.trans (by decide)
  have hreads : Written ([] ++ [_]) _ := written_reads socket hsendable hlines
  have hwaiting := waiting_askUserPass hidle .needOk command msg
  have hbefore : ∀ k ≤ ([] : List (List UInt8)).length,
      ((([] : List (List UInt8)).take k).foldl processLine
        (d.openvpn.1.askUserPass .needOk command msg)).up_query.defined = false := by
    intro k _
    simp [hwaiting.up_query, UserPass.clear]
  obtain ⟨s', hidle', hquery⟩ := query_of_last hidle hreads hbefore
    (hwaiting.answer_needok hcommand.quotable hstatus.plain)
  refine ⟨s', hidle', ?_⟩
  rw [askUserPass, happ, hquery]
  simp [passBlank, hstatus.ne_blank]

theorem delivered_strncpynt (command msg : Text) :
    delivered command (strncpynt msg USER_PASS_LEN) = delivered command msg := by
  rw [delivered, delivered, strncpynt, List.take_take]
  refine congrArg (msg.take ·) (Nat.min_eq_left ?_)
  exact (Nat.sub_le _ _).trans (by decide)

variable (env socket) in
theorem management_android_control_eq (hidle : Idle d.openvpn) (hcommand : Confirmable command)
    (hmsg : AsciiPrintable msg) (hstatus : Status status)
    (hasked : (d.app.processNeedCommand env
      (needPrompt command ++ delivered command msg)).2 = t')
    (hwritten : t'.written = d.app.written ++ [needokCommand command status]) :
    ∃ s', Idle s' ∧ management_android_control env socket command msg d =
      some (decide (status = ("ok" : Text)), ⟨s', t'⟩) := by
  have hmsg' : AsciiPrintable (strncpynt msg USER_PASS_LEN) := fun c hc =>
    hmsg c (List.mem_of_mem_take hc)
  rw [← delivered_strncpynt] at hasked
  obtain ⟨s', hidle', hasks⟩ := askUserPass_needOk env socket hidle hcommand hmsg' hstatus hasked
    hwritten
  have hcontrol : management_android_control env socket command msg d =
      (askUserPass env socket .needOk command (strncpynt msg USER_PASS_LEN) d).map fun r =>
        (decide (r.1.password = ("ok" : Text)), r.2) := by
    simp only [management_android_control, ManagementConnection.management_android_control,
      askUserPass, Option.map_map]
    rfl
  refine ⟨s', hidle', ?_⟩
  rw [hcontrol, hasks]
  rfl

theorem status_ok : Status "ok" :=
  ⟨plain_of_all (by decide) (by decide) (by decide), by decide⟩

end Dialogue

end OpenVpnAndroid
