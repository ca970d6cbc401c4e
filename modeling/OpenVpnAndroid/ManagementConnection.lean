/-
  OpenVpnAndroid/ManagementConnection.lean
  ========================================
  **The queries of OpenVPN to its management client** (`manage.c`).

  OpenVPN asks for a user name and a password, for a confirmation or for a signature, and
  then reads commands until the answer is there.  A command is a line of parameters; the
  lines behind `pk-sig` up to `END` are collected.  Whatever the client writes, what a
  query returns can be printed and has at most 127 characters (`Printable`).
-/
import OpenVpnAndroid.CommandLine
import OpenVpnAndroid.ParseParms

namespace OpenVpnAndroid

/-- A C string, one character a byte. -/
def cText (bytes : List UInt8) : Text := bytes.map UInt8.toChar

/-- `UP_QUERY_DISABLED` and so on. -/
inductive UpQueryMode where
  | disabled
  | userPass
  | pass
  | needOk
  | needStr
deriving DecidableEq, Repr

/-- `struct user_pass`, without `nocache` and the token. -/
structure UserPass where
  username : Text
  password : Text
  defined : Bool
deriving DecidableEq, Repr

/-- `CLEAR` -/
def UserPass.clear : UserPass := ⟨[], [], false⟩

/-- The field of `up_query` that an answer goes to. -/
inductive UserPassField where
  | username
  | password
deriving DecidableEq, Repr

def UserPass.set (up : UserPass) (dest : UserPassField) (string : Text) : UserPass :=
  match dest with
  | .username => { up with username := string }
  | .password => { up with password := string }

/-- `EKS_UNDEF` and so on. -/
inductive ExtKeyState where
  | undef
  | solicit
  | input
  | ready
deriving DecidableEq, Repr

/-- The part of `struct man_connection` that the queries need.  `out` has all messages for the
    client. -/
structure ManagementConnection where
  up_query_mode : UpQueryMode
  up_query_type : Option Text
  up_query : UserPass
  client_version : Nat
  ext_key_state : ExtKeyState
  ext_key_input : Option (List Text)
  /-- `in_extra_cmd == IEC_PK_SIGN` -/
  in_extra_cmd : Bool
  in_extra : Option (List Text)
  out : List Text
deriving DecidableEq, Repr

namespace ManagementConnection

def USER_PASS_LEN : Nat := 128

/-- The tag for a blank password. -/
def blank_up : Text := "[[BLANK]]"

/-- The connection when the client has said `version 3`. -/
def initial : ManagementConnection where
  up_query_mode := .disabled
  up_query_type := none
  up_query := .clear
  client_version := 3
  ext_key_state := .undef
  ext_key_input := none
  in_extra_cmd := false
  in_extra := none
  out := []

variable (man : ManagementConnection)

/-- `msg(M_CLIENT, ...)` -/
def msg (text : Text) : ManagementConnection := { man with out := man.out ++ [text] }

/-! ### The answers to a query -/

def man_up_finalize : ManagementConnection :=
  match man.up_query_mode with
  | .userPass =>
      if man.up_query.username = [] then man
      else if man.up_query.password = [] then man
      else { man with up_query := { man.up_query with defined := true } }
  | .pass | .needOk | .needStr =>
      if man.up_query.password = [] then man
      else { man with up_query := { man.up_query with defined := true } }
  | .disabled => { man with up_query := { man.up_query with defined := false } }

/-- `strncpynt(dest, src, maxlen)` -/
def strncpynt (src : Text) (maxlen : Nat) : Text := src.take (maxlen - 1)

def man_query_user_pass (type string : Text) (needed : Bool) (prompt : Text)
    (dest : UserPassField) : ManagementConnection :=
  if needed then
    match man.up_query_type with
    | none => man
    | some up_query_type =>
        if up_query_type = type then
          let up_query := man.up_query.set dest (strncpynt string USER_PASS_LEN)
          ({ man with up_query := up_query }.man_up_finalize).msg
            (("SUCCESS: '" : Text) ++ type ++ ("' " : Text) ++ prompt
              ++ (" entered, but not yet verified" : Text))
        else
          man.msg (("ERROR: " : Text) ++ prompt ++ (" of type '" : Text) ++ type
            ++ ("' entered, but we need one of type '" : Text) ++ up_query_type ++ ("'" : Text))
  else
    man.msg (("ERROR: no " : Text) ++ prompt ++ (" is currently needed at this time" : Text))

def man_query_username (type string : Text) : ManagementConnection :=
  let needed := man.up_query_mode == .userPass && man.up_query_type.isSome
  man.man_query_user_pass type string needed "username" .username

def man_query_password (type string : Text) : ManagementConnection :=
  let needed := (man.up_query_mode == .pass || man.up_query_mode == .userPass)
    && man.up_query_type.isSome
  -- `allow blank passwords to be passed through using the blank_up tag`
  let string := if string = [] then blank_up else string
  man.man_query_user_pass type string needed "password" .password

def man_query_need_ok (type action : Text) : ManagementConnection :=
  let needed := man.up_query_mode == .needOk && man.up_query_type.isSome
  man.man_query_user_pass type action needed "needok-confirmation" .password

def man_query_need_str (type action : Text) : ManagementConnection :=
  let needed := man.up_query_mode == .needStr && man.up_query_type.isSome
  man.man_query_user_pass type action needed "needstr-string" .password

/-- `man_pk_sig`: the next lines are the signature. -/
def man_pk_sig (cmd_name : Text) : ManagementConnection :=
  if man.ext_key_state = .solicit then
    { man with ext_key_state := .input, in_extra_cmd := true, in_extra := some [] }
  else
    man.msg (("ERROR: The " : Text) ++ cmd_name
      ++ (" command is not currently available" : Text))

/-- `man_need(man, p, 2, 0)`, and what the command does with its parameters. -/
def withTwoParms (cmd : Text) (args : List Text) (f : Text → Text → ManagementConnection) :
    ManagementConnection :=
  match args with
  | type :: string :: _ => f type string
  | _ => man.msg (("ERROR: the '" : Text) ++ cmd
      ++ ("' command requires 2 parameters" : Text))

/-- `man_dispatch_command`; the commands that have nothing to do with a query are left out. -/
def man_dispatch_command (cmd : Text) (args : List Text) : ManagementConnection :=
  if cmd = ("username" : Text) then man.withTwoParms cmd args man.man_query_username
  else if cmd = ("password" : Text) then man.withTwoParms cmd args man.man_query_password
  else if cmd = ("needok" : Text) then man.withTwoParms cmd args man.man_query_need_ok
  else if cmd = ("needstr" : Text) then man.withTwoParms cmd args man.man_query_need_str
  else if cmd = ("rsa-sig" : Text) ∨ cmd = ("pk-sig" : Text) then man.man_pk_sig cmd
  else man

/-! ### Lines -/

/-- `in_extra_reset(mc, IER_RESET)` -/
def in_extra_reset : ManagementConnection := { man with in_extra_cmd := false, in_extra := none }

def man_process_command (line : Text) : ManagementConnection :=
  let man := man.in_extra_reset
  match Options.parse_parms line with
  | .error e => man.msg e.message
  | .ok [] => man
  | .ok (cmd :: args) => man.man_dispatch_command cmd args

def in_extra_dispatch : ManagementConnection :=
  if man.in_extra_cmd then
    { man with ext_key_state := .ready, ext_key_input := man.in_extra, in_extra := none }
  else man.in_extra_reset

/-- What the loop of `man_read` does with a line. -/
def processLine (line : List UInt8) : ManagementConnection :=
  match man.in_extra with
  | some lines =>
      if cText line = ("END" : Text) then man.in_extra_dispatch
      else { man with in_extra := some (lines ++ [cText line]) }
  | none => man.man_process_command (cText line)

/-- `man_read` -/
def man_read (s : ManagementConnection × CommandLine) (buf : List UInt8) :
    ManagementConnection × CommandLine :=
  CommandLine.read processLine s buf

/-! ### Queries -/

/-- The loop of a query: it reads until the answer is there.  Without a result it still waits
    after the last read. -/
def eventLoop (done : ManagementConnection → Bool) :
    ManagementConnection × CommandLine → List (List UInt8) →
      Option (ManagementConnection × CommandLine)
  | _, [] => none
  | s, buf :: reads =>
      let s := man_read s buf
      if done s.1 then some s else eventLoop done s reads

/-- `prefix` and `alert_type` -/
def promptOf : UpQueryMode → Text × Text
  | .needOk => ("NEED-OK", "confirmation")
  | .needStr => ("NEED-STR", "string")
  | .pass => ("PASSWORD", "password")
  | _ => ("PASSWORD", "username/password")

/-- `alert_msg`, for which there are 128 bytes; no static challenge. -/
def alertMessage (mode : UpQueryMode) (type username : Text) : Text :=
  let alert := '>' :: ((promptOf mode).1 ++ (":Need '" : Text) ++ type ++ ("' " : Text)
    ++ (promptOf mode).2)
  let alert := if mode = .needOk ∨ mode = .needStr then alert ++ (" MSG:" : Text) ++ username
    else alert
  alert.take 127

/-- The state in which `management_query_user_pass` waits. -/
def askUserPass (mode : UpQueryMode) (type username : Text) : ManagementConnection :=
  { man.msg (alertMessage mode type username) with
    up_query := .clear, up_query_mode := mode, up_query_type := some type }

/-- `pass through blank passwords` -/
def passBlank (up : UserPass) : UserPass :=
  if up.password = blank_up then { up with password := [] } else up

/-- `management_query_user_pass`: `up` when the answer is there, and the state. -/
def management_query_user_pass (s : ManagementConnection × CommandLine) (mode : UpQueryMode)
    (type username : Text) (reads : List (List UInt8)) :
    Option (UserPass × ManagementConnection × CommandLine) :=
  (eventLoop (·.up_query.defined) (s.1.askUserPass mode type username, s.2) reads).map fun s =>
    (passBlank s.1.up_query,
      { s.1 with up_query_mode := .disabled, up_query_type := none, up_query := .clear }, s.2)

/-- `management_android_control`; `username` has 127 bytes. -/
def management_android_control (s : ManagementConnection × CommandLine) (command msg : Text)
    (reads : List (List UInt8)) : Option (Bool × ManagementConnection × CommandLine) :=
  (management_query_user_pass s .needOk command (strncpynt msg USER_PASS_LEN) reads).map
    fun r => (r.1.password = ("ok" : Text), r.2)

/-- The first entries of a buffer list, as far as they fit into `max_len` together. -/
def fitting (max_len : Nat) : Nat → List Text → List Text
  | _, [] => []
  | size, line :: more =>
      if max_len < size + line.length then []
      else line :: fitting max_len (size + line.length) more

/-- `buffer_list_aggregate(input, max_len)` and then the first entry. -/
def aggregate (max_len : Nat) (input : List Text) : Text :=
  let merged := fitting max_len 0 input
  if 2 ≤ merged.length then merged.flatten else input.headD []

/-- The question of `management_query_pk_sig`. -/
def signMessage (b64_data algorithm : Text) : Text :=
  let data := if 2 < man.client_version then b64_data ++ ',' :: algorithm else b64_data
  let prompt : Text := if man.client_version ≤ 1 then "RSA_SIGN" else "PK_SIGN"
  '>' :: (prompt ++ ':' :: data)

/-- `management_query_pk_sig` -/
def management_query_pk_sig (s : ManagementConnection × CommandLine) (b64_data algorithm : Text)
    (reads : List (List UInt8)) : Option (Option Text × ManagementConnection × CommandLine) :=
  let asked := { s.1.msg (s.1.signMessage b64_data algorithm) with ext_key_state := .solicit }
  (eventLoop (·.ext_key_state == .ready) (asked, s.2) reads).map fun s =>
    let result := s.1.ext_key_input.bind fun input =>
      if aggregate 2048 input = [] then none else some (aggregate 2048 input)
    (result, { s.1.in_extra_reset with ext_key_state := .undef, ext_key_input := none }, s.2)

end ManagementConnection

end OpenVpnAndroid
