/-
  OpenVpnAndroid/ManagementQueries.lean
  =====================================
  **The answer to a query is what the client wrote.**

  The lines of an answer are processed as they were written, however they are cut into
  reads, and the loop of the query ends with the read that has the end of the last
  one (`eventLoop_lines`).  What a query returns can be printed and has at most 127
  characters, whatever the client wrote (`Printable`); over a whole run nobody is answered
  who did not ask (`serveAll_answers`).
-/
import OpenVpnAndroid.ManagementConnection

namespace OpenVpnAndroid

/-! ### Cutting an answer -/

namespace CommandLine

/-- A part of a stream of whole lines that is not all of it has only the first lines. -/
theorem exists_lines_eq_take {ls : List (List UInt8)} (h : ∀ l ∈ ls, LINE_FEED ∉ l)
    {s more : List UInt8} (hmore : more ≠ []) (heq : s ++ more = ls.flatMap (· ++ [LINE_FEED])) :
    ∃ k < ls.length, lines s = ls.take k := by
  have hall := (lines_append s more).1
  rw [heq, (lines_whole h).1] at hall
  -- the last byte of the stream ends a line
  have hlast : lines (pending s ++ more) ≠ [] := by
    intro hnil
    have hpending := (lines_append s more).2
    rw [heq, (lines_whole h).2] at hpending
    have hsplit := splitOn_eq (pending s ++ more)
    rw [hnil, ← hpending, List.nil_append] at hsplit
    have hjoin := congrArg (List.intercalate [LINE_FEED]) hsplit
    rw [List.intercalate_splitOn, List.intercalate_singleton] at hjoin
    exact hmore (List.append_eq_nil_iff.mp hjoin).2
  refine ⟨(lines s).length, ?_, ?_⟩
  · rw [hall, List.length_append]
    have := List.length_pos_iff.mpr hlast
    omega
  · rw [hall, List.take_left]

/-- A buffer that the client may have left: printable, and not over its capacity. -/
structure Valid (cl : CommandLine) : Prop where
  clean : Clean cl.buf
  residual : cl.residual = []
  length_le : cl.buf.length ≤ CAPACITY

theorem clean_addByte {buf : List UInt8} (c : UInt8) (h : Clean buf ∧ buf.length ≤ CAPACITY) :
    Clean (addByte buf c) ∧ (addByte buf c).length ≤ CAPACITY := by
  rw [addByte]
  cases hc : accepts c with
  | false => exact h
  | true =>
      rw [if_pos rfl]
      split
      · next hroom =>
          refine ⟨fun d hd => ?_, by simpa using hroom⟩
          rcases List.mem_append.mp hd with hd | hd
          · exact h.1 d hd
          · rw [List.mem_singleton.mp hd]
            exact hc
      · exact ⟨fun d hd => absurd hd List.not_mem_nil, Nat.zero_le _⟩

theorem clean_foldl_addByte {buf : List UInt8} (bytes : List UInt8)
    (h : Clean buf ∧ buf.length ≤ CAPACITY) :
    Clean (bytes.foldl addByte buf) ∧ (bytes.foldl addByte buf).length ≤ CAPACITY := by
  induction bytes generalizing buf with
  | nil => exact h
  | cons c bytes ih => exact ih (clean_addByte c h)

/-- What holds of a state and is kept by every clean line is kept by every read. -/
theorem read_invariant {σ : Type*} {process : σ → List UInt8 → σ} {P : σ → Prop}
    (hprocess : ∀ s l, Clean l → LINE_FEED ∉ l → P s → P (process s l)) {s : σ} {cl : CommandLine}
    (hcl : Valid cl) (hs : P s) (bytes : List UInt8) :
    P (read process (s, cl) bytes).1 ∧ Valid (read process (s, cl) bytes).2 := by
  obtain ⟨buf, residual⟩ := cl
  obtain rfl : residual = [] := hcl.residual
  obtain ⟨hclean, hlen⟩ := clean_foldl_addByte bytes ⟨hcl.clean, hcl.length_le⟩
  rw [read, add]
  dsimp only
  rw [rounds_eq process s hclean hlen]
  refine ⟨?_, fun c hc => hclean c ((pending_suffix _).subset hc), rfl,
    (pending_suffix _).length_le.trans hlen⟩
  have hall : ∀ l ∈ lines (bytes.foldl addByte buf), Clean l ∧ LINE_FEED ∉ l := fun l hl =>
    ⟨fun c hc => hclean c (subset_of_mem_lines hl hc), not_mem_lines hl⟩
  generalize lines (bytes.foldl addByte buf) = ls at hall
  induction ls generalizing s with
  | nil => exact hs
  | cons l ls ih =>
      obtain ⟨hl, hls⟩ := List.forall_mem_cons.mp hall
      exact ih (hprocess s l hl.1 hl.2 hs) hls

end CommandLine

namespace ManagementConnection

open CommandLine

/-- The reads of an answer, which consists of these lines. -/
structure Written (ls reads : List (List UInt8)) : Prop where
  clean : ∀ l ∈ ls, Clean l
  unbroken : ∀ l ∈ ls, LINE_FEED ∉ l
  fits : ∀ l ∈ ls, l.length + READ_SIZE ≤ CAPACITY
  sizes : ∀ buf ∈ reads, buf ≠ [] ∧ buf.length ≤ READ_SIZE
  flatten : reads.flatten = ls.flatMap (· ++ [LINE_FEED])

variable {ls reads : List (List UInt8)} {man : ManagementConnection}

theorem Written.stream_eq (h : Written ls reads) {before after : List (List UInt8)}
    (heq : reads = before ++ after) : stream before = before.flatten := by
  refine List.filter_eq_self.mpr fun c hc => ?_
  have hmem : c ∈ reads.flatten := by
    rw [heq, List.flatten_append]
    exact List.mem_append_left _ hc
  rw [h.flatten] at hmem
  obtain ⟨l, hl, hc⟩ := List.mem_flatMap.mp hmem
  rcases List.mem_append.mp hc with hc | hc
  · exact h.clean l hl c hc
  · rw [List.mem_singleton.mp hc]
    rfl

theorem Written.fits_stream (h : Written ls reads) : Fits (stream reads) := by
  have hroom : READ_SIZE ≤ CAPACITY := by decide
  rw [h.stream_eq (List.append_nil reads).symm, h.flatten]
  intro l hl
  rw [splitOn_eq, (lines_whole h.unbroken).1, (lines_whole h.unbroken).2] at hl
  rcases List.mem_append.mp hl with hl | hl
  · exact h.fits l hl
  · rw [List.mem_singleton.mp hl, List.length_nil]
    omega

/-- All reads together process all lines. -/
theorem Written.readAll (h : Written ls reads) (man : ManagementConnection) :
    CommandLine.readAll processLine man reads = (ls.foldl processLine man, ⟨[], []⟩) := by
  rw [readAll_eq _ _ (fun buf hbuf => (h.sizes buf hbuf).2) h.fits_stream,
    h.stream_eq (List.append_nil reads).symm, h.flatten, (lines_whole h.unbroken).1,
    (lines_whole h.unbroken).2]

/-- The first reads process the first lines. -/
theorem Written.readAll_before (h : Written ls reads) (man : ManagementConnection)
    {before after : List (List UInt8)} (heq : reads = before ++ after) (hafter : after ≠ []) :
    ∃ k < ls.length,
      (CommandLine.readAll processLine man before).1 = (ls.take k).foldl processLine man := by
  have hfits := h.fits_stream
  have hstream : stream reads = stream before ++ stream after := by
    rw [heq, stream, List.flatten_append, List.filter_append]
    rfl
  rw [hstream] at hfits
  have hmore : after.flatten ≠ [] := by
    obtain ⟨buf, after, rfl⟩ := List.exists_cons_of_ne_nil hafter
    have hbuf := (h.sizes buf (by rw [heq]; simp)).1
    rw [List.flatten_cons]
    exact List.append_ne_nil_of_left_ne_nil hbuf _
  have hall : before.flatten ++ after.flatten = ls.flatMap (· ++ [LINE_FEED]) := by
    rw [← List.flatten_append, ← heq, h.flatten]
  obtain ⟨k, hk, hlines⟩ := exists_lines_eq_take h.unbroken hmore hall
  refine ⟨k, hk, ?_⟩
  rw [readAll_eq _ _ (fun buf hbuf => (h.sizes buf (by rw [heq]; simp [hbuf])).2) hfits.of_append,
    h.stream_eq heq, hlines]

/-! ### The loop of a query -/

variable {done : ManagementConnection → Bool} {s : ManagementConnection × CommandLine}

theorem eventLoop_of_last {last : List UInt8}
    (hbefore : ∀ before after, reads = before ++ after → before ≠ [] →
      done (before.foldl man_read s).1 = false)
    (hlast : done ((reads ++ [last]).foldl man_read s).1 = true) :
    eventLoop done s (reads ++ [last]) = some ((reads ++ [last]).foldl man_read s) := by
  induction reads generalizing s with
  | nil => simpa [eventLoop] using hlast
  | cons buf reads ih =>
      have hfirst := hbefore [buf] reads rfl (List.cons_ne_nil _ _)
      rw [List.foldl_cons, List.foldl_nil] at hfirst
      rw [List.cons_append, eventLoop, hfirst, if_neg Bool.false_ne_true, List.foldl_cons]
      refine ih (fun before after heq hne => ?_) hlast
      exact hbefore (buf :: before) after (by rw [heq]; rfl) (List.cons_ne_nil _ _)

theorem eventLoop_eq_none
    (h : ∀ before after, reads = before ++ after → before ≠ [] →
      done (before.foldl man_read s).1 = false) : eventLoop done s reads = none := by
  induction reads generalizing s with
  | nil => rfl
  | cons buf reads ih =>
      have hfirst := h [buf] reads rfl (List.cons_ne_nil _ _)
      rw [List.foldl_cons, List.foldl_nil] at hfirst
      rw [eventLoop, hfirst, if_neg Bool.false_ne_true]
      exact ih fun before after heq _ =>
        h (buf :: before) after (by rw [heq]; rfl) (List.cons_ne_nil _ _)

/-- The loop ends with the last line of the answer, if none of its first lines is enough. -/
theorem eventLoop_lines (h : Written ls reads) (hne : ls ≠ [])
    (hbefore : ∀ k < ls.length, done ((ls.take k).foldl processLine man) = false)
    (hdone : done (ls.foldl processLine man) = true) :
    eventLoop done (man, ⟨[], []⟩) reads = some (ls.foldl processLine man, ⟨[], []⟩) := by
  have hall := h.readAll man
  rcases List.eq_nil_or_concat reads with rfl | ⟨init, last, rfl⟩
  · obtain ⟨l, ls, rfl⟩ := List.exists_cons_of_ne_nil hne
    exact absurd h.flatten (by simp)
  · rw [List.concat_eq_append] at h hall ⊢
    rw [← hall]
    refine eventLoop_of_last (fun before after heq _ => ?_) ?_
    · have hwhole : init ++ [last] = before ++ (after ++ [last]) := by
        rw [heq, List.append_assoc]
      obtain ⟨k, hk, hstate⟩ := h.readAll_before man hwhole (by simp)
      exact (congrArg done hstate).trans (hbefore k hk)
    · exact (congrArg (fun s => done s.1) hall).trans hdone

/-- The loop goes on waiting if no line is enough. -/
theorem eventLoop_lines_eq_none (h : Written ls reads)
    (hnever : ∀ k ≤ ls.length, done ((ls.take k).foldl processLine man) = false) :
    eventLoop done (man, ⟨[], []⟩) reads = none := by
  refine eventLoop_eq_none fun before after heq _ => ?_
  by_cases hafter : after = []
  · have hbefore : before = reads := by rw [heq, hafter, List.append_nil]
    have hlast := hnever ls.length le_rfl
    rw [List.take_length] at hlast
    rw [hbefore]
    exact (congrArg (fun s => done s.1) (h.readAll man)).trans hlast
  · obtain ⟨k, hk, hstate⟩ := h.readAll_before man heq hafter
    exact (congrArg done hstate).trans (hnever k hk.le)

/-! ### What a query may return -/

/-- No control character, and no character beyond a byte. -/
def Printable (text : Text) : Prop :=
  ∀ c ∈ text, 32 ≤ c.toNat ∧ c.toNat ≠ 127 ∧ c.toNat < 256

theorem printable_cText {l : List UInt8} (hclean : Clean l) (h : LINE_FEED ∉ l) :
    Printable (cText l) := by
  intro c hc
  obtain ⟨b, hb, rfl⟩ := List.mem_map.mp hc
  have haccepts := hclean b hb
  have hne : b ≠ LINE_FEED := fun heq => h (heq ▸ hb)
  simp only [accepts, Bool.and_eq_true, Bool.or_eq_true, decide_eq_true_eq, beq_iff_eq] at haccepts
  obtain ⟨hlow, hdel⟩ := haccepts.2.resolve_right hne
  refine ⟨UInt8.le_iff_toNat_le.mp hlow, fun heq => hdel ?_, b.toNat_lt⟩
  exact UInt8.toNat_inj.mp heq

/-- `up_query` has what was read from printable lines. -/
structure UserPass.Read (up : UserPass) : Prop where
  username : Printable up.username
  username_length : up.username.length < USER_PASS_LEN
  password : Printable up.password
  password_length : up.password.length < USER_PASS_LEN

theorem UserPass.Read.set {up : UserPass} (h : UserPass.Read up) (dest : UserPassField)
    {string : Text} (hstring : Printable string) :
    UserPass.Read (up.set dest (strncpynt string USER_PASS_LEN)) := by
  have hprintable : Printable (strncpynt string USER_PASS_LEN) := fun c hc =>
    hstring c (List.mem_of_mem_take hc)
  have hlen : (strncpynt string USER_PASS_LEN).length < USER_PASS_LEN := by
    rw [strncpynt, List.length_take]
    exact Nat.lt_of_le_of_lt (Nat.min_le_left _ _) (by decide)
  cases dest with
  | username => exact ⟨hprintable, hlen, h.password, h.password_length⟩
  | password => exact ⟨h.username, h.username_length, hprintable, hlen⟩

theorem up_query_man_up_finalize (man : ManagementConnection) :
    ∃ defined, man.man_up_finalize.up_query = { man.up_query with defined := defined } := by
  rw [man_up_finalize]
  split
  · split_ifs
    · exact ⟨_, rfl⟩
    · exact ⟨_, rfl⟩
    · exact ⟨true, rfl⟩
  all_goals first
    | exact ⟨false, rfl⟩
    | split_ifs
      · exact ⟨_, rfl⟩
      · exact ⟨true, rfl⟩

theorem read_man_query_user_pass {man : ManagementConnection} (h : UserPass.Read man.up_query)
    (type : Text) {string : Text} (hstring : Printable string) (needed : Bool) (prompt : Text)
    (dest : UserPassField) :
    UserPass.Read (man.man_query_user_pass type string needed prompt dest).up_query := by
  rw [man_query_user_pass]
  split_ifs
  · split
    · exact h
    · split_ifs
      · obtain ⟨defined, hup⟩ := up_query_man_up_finalize
          { man with up_query := man.up_query.set dest (strncpynt string USER_PASS_LEN) }
        have hset := UserPass.Read.set h dest hstring
        dsimp only [msg]
        rw [hup]
        exact ⟨hset.username, hset.username_length, hset.password, hset.password_length⟩
      · exact h
  · exact h

theorem read_withTwoParms {man : ManagementConnection} (h : UserPass.Read man.up_query) (cmd : Text)
    {args : List Text} (hargs : ∀ a ∈ args, Printable a)
    {f : Text → Text → ManagementConnection}
    (hf : ∀ type string, Printable string → UserPass.Read (f type string).up_query) :
    UserPass.Read (man.withTwoParms cmd args f).up_query := by
  rcases args with _ | ⟨type, _ | ⟨string, rest⟩⟩
  · exact h
  · exact h
  · exact hf type string (hargs string (by simp))

theorem printable_of_all {text : Text}
    (h : text.all (fun c => 32 ≤ c.toNat && c.toNat ≠ 127 && c.toNat < 256) = true) :
    Printable text := by
  simpa [Printable, and_assoc] using h

theorem printable_blank_up : Printable blank_up := printable_of_all (by decide)

/-- No command brings anything else into `up_query`. -/
theorem read_man_dispatch_command {man : ManagementConnection} (h : UserPass.Read man.up_query)
    (cmd : Text) {args : List Text} (hargs : ∀ a ∈ args, Printable a) :
    UserPass.Read (man.man_dispatch_command cmd args).up_query := by
  rw [man_dispatch_command]
  split_ifs
  · exact read_withTwoParms h cmd hargs fun type string hstring =>
      read_man_query_user_pass h type hstring _ _ _
  · refine read_withTwoParms h cmd hargs fun type string hstring => ?_
    rw [man_query_password]
    refine read_man_query_user_pass h type ?_ _ _ _
    split_ifs
    · exact printable_blank_up
    · exact hstring
  · exact read_withTwoParms h cmd hargs fun type string hstring =>
      read_man_query_user_pass h type hstring _ _ _
  · exact read_withTwoParms h cmd hargs fun type string hstring =>
      read_man_query_user_pass h type hstring _ _ _
  · rw [man_pk_sig]
    split_ifs <;> exact h
  · exact h

theorem read_processLine {man : ManagementConnection} {l : List UInt8} (hclean : Clean l)
    (hunbroken : LINE_FEED ∉ l) (h : UserPass.Read man.up_query) :
    UserPass.Read (man.processLine l).up_query := by
  rw [processLine]
  split
  · split_ifs
    · rw [in_extra_dispatch]
      split_ifs <;> exact h
    · exact h
  · rw [man_process_command]
    split
    · exact h
    · exact h
    · next cmd args hparms =>
        have hreset : UserPass.Read man.in_extra_reset.up_query := h
        refine read_man_dispatch_command hreset cmd fun a ha c hc => ?_
        have hmem := Options.mem_of_mem_parms hparms a (List.mem_cons_of_mem _ ha) hc
        exact printable_cText hclean hunbroken c hmem

/-- What clean lines keep, the loop keeps; and in the end it is done. -/
theorem eventLoop_invariant {P : ManagementConnection → Prop}
    (hprocess : ∀ man l, Clean l → LINE_FEED ∉ l → P man → P (processLine man l))
    {cl : CommandLine} {s' : ManagementConnection × CommandLine} (hvalid : cl.Valid) (h : P man)
    (heq : eventLoop done (man, cl) reads = some s') :
    P s'.1 ∧ done s'.1 = true ∧ s'.2.Valid := by
  induction reads generalizing man cl with
  | nil => cases heq
  | cons buf reads ih =>
      obtain ⟨hman, hvalid'⟩ := read_invariant hprocess hvalid h buf
      rw [eventLoop] at heq
      split_ifs at heq with hdone
      · rw [← Option.some.inj heq]
        exact ⟨hman, hdone, hvalid'⟩
      · exact ih hvalid' hman heq

theorem read_eventLoop {s s' : ManagementConnection × CommandLine} (hvalid : s.2.Valid)
    (h : UserPass.Read s.1.up_query) (heq : eventLoop done s reads = some s') :
    UserPass.Read s'.1.up_query :=
  (eventLoop_invariant (P := fun man => UserPass.Read man.up_query)
    (fun _ _ => read_processLine) hvalid h heq).1

/-- Whatever the client writes, a query returns what can be printed, and no more than 127
    characters of it. -/
theorem read_management_query_user_pass {s s' : ManagementConnection × CommandLine}
    (hvalid : s.2.Valid) {mode : UpQueryMode} {type username : Text} {up : UserPass}
    (heq : management_query_user_pass s mode type username reads = some (up, s')) :
    UserPass.Read up := by
  rw [management_query_user_pass, Option.map_eq_some_iff] at heq
  obtain ⟨s'', hloop, heq⟩ := heq
  obtain ⟨rfl, -⟩ := Prod.mk.inj heq
  have hclear : UserPass.Read .clear :=
    ⟨fun c hc => absurd hc List.not_mem_nil, by decide, fun c hc => absurd hc List.not_mem_nil,
      by decide⟩
  have hread := read_eventLoop (s := (s.1.askUserPass mode type username, s.2)) hvalid hclear hloop
  rw [passBlank]
  split_ifs
  · exact ⟨hread.username, hread.username_length, hclear.password, hclear.password_length⟩
  · exact hread

/-! ### Whole runs -/

/-- What comes to pass on the connection: the client writes while nothing is asked, or OpenVPN
    asks for an answer or for a signature and reads. -/
inductive Traffic where
  | idle (buf : List UInt8)
  | query (mode : UpQueryMode) (type username : Text) (reads : List (List UInt8))
  | sign (b64_data algorithm : Text) (reads : List (List UInt8))

/-- The answers, and the connection then; nothing while OpenVPN still waits. -/
def serve (s : ManagementConnection × CommandLine) :
    Traffic → Option (List UserPass × ManagementConnection × CommandLine)
  | .idle buf => some ([], man_read s buf)
  | .query mode type username reads =>
      (management_query_user_pass s mode type username reads).map fun r => ([r.1], r.2)
  | .sign b64_data algorithm reads =>
      (management_query_pk_sig s b64_data algorithm reads).map fun r => ([], r.2)

def serveAll : ManagementConnection × CommandLine → List Traffic →
    Option (List UserPass × ManagementConnection × CommandLine)
  | s, [] => some ([], s)
  | s, t :: ts =>
      (serve s t).bind fun r => (serveAll r.2 ts).map fun r' => (r.1 ++ r'.1, r'.2)

/-- Nothing is asked, and nothing of an answer is left. -/
structure Unasked (man : ManagementConnection) : Prop where
  mode : man.up_query_mode = .disabled
  type : man.up_query_type = none
  up_query : man.up_query = .clear

theorem Unasked.congr {man man' : ManagementConnection} (h : Unasked man)
    (hmode : man'.up_query_mode = man.up_query_mode)
    (htype : man'.up_query_type = man.up_query_type) (hup : man'.up_query = man.up_query) :
    Unasked man' :=
  ⟨hmode.trans h.mode, htype.trans h.type, hup.trans h.up_query⟩

theorem Unasked.withTwoParms {man : ManagementConnection} (h : Unasked man) (cmd : Text)
    (args : List Text) {f : Text → Text → ManagementConnection}
    (hf : ∀ type string, Unasked (f type string)) : Unasked (man.withTwoParms cmd args f) := by
  rcases args with _ | ⟨type, _ | ⟨string, rest⟩⟩
  · exact h.congr rfl rfl rfl
  · exact h.congr rfl rfl rfl
  · exact hf type string

/-- An answer that nobody asked for changes nothing. -/
theorem Unasked.man_dispatch_command {man : ManagementConnection} (h : Unasked man) (cmd : Text)
    (args : List Text) : Unasked (man.man_dispatch_command cmd args) := by
  have hquery : ∀ type string prompt dest,
      Unasked (man.man_query_user_pass type string false prompt dest) := fun _ _ _ _ =>
    h.congr rfl rfl rfl
  rw [ManagementConnection.man_dispatch_command]
  split_ifs
  · refine h.withTwoParms cmd args fun type string => ?_
    simp only [man_query_username, h.mode, h.type]
    exact hquery type string _ _
  · refine h.withTwoParms cmd args fun type string => ?_
    simp only [man_query_password, h.mode, h.type]
    exact hquery type _ _ _
  · refine h.withTwoParms cmd args fun type string => ?_
    simp only [man_query_need_ok, h.mode, h.type]
    exact hquery type string _ _
  · refine h.withTwoParms cmd args fun type string => ?_
    simp only [man_query_need_str, h.mode, h.type]
    exact hquery type string _ _
  · rw [man_pk_sig]
    split_ifs <;> exact h.congr rfl rfl rfl
  · exact h

theorem Unasked.processLine {man : ManagementConnection} (h : Unasked man) (l : List UInt8) :
    Unasked (man.processLine l) := by
  rw [ManagementConnection.processLine]
  split
  · split_ifs
    · rw [in_extra_dispatch]
      split_ifs <;> exact h.congr rfl rfl rfl
    · exact h.congr rfl rfl rfl
  · have hreset : Unasked man.in_extra_reset := h.congr rfl rfl rfl
    rw [man_process_command]
    split
    · exact hreset.congr rfl rfl rfl
    · exact hreset
    · exact hreset.man_dispatch_command _ _

/-- One query, or the lines between two of them. -/
theorem serve_unasked {s s' : ManagementConnection × CommandLine} {t : Traffic}
    {ups : List UserPass} (h : Unasked s.1) (hvalid : s.2.Valid)
    (heq : serve s t = some (ups, s')) :
    (∀ up ∈ ups, UserPass.Read up ∧ up.defined = true) ∧ Unasked s'.1 ∧ s'.2.Valid := by
  cases t with
  | idle buf =>
      obtain ⟨rfl, rfl⟩ := Prod.mk.inj (Option.some.inj heq)
      exact ⟨fun up hup => absurd hup List.not_mem_nil,
        read_invariant (P := Unasked) (fun _ l _ _ hman => hman.processLine l) hvalid h buf⟩
  | query mode type username reads =>
      obtain ⟨r, hquery, hr⟩ := Option.map_eq_some_iff.mp heq
      obtain ⟨rfl, rfl⟩ := Prod.mk.inj hr
      have hread := read_management_query_user_pass hvalid hquery
      obtain ⟨s'', hloop, rfl⟩ := Option.map_eq_some_iff.mp hquery
      obtain ⟨-, hdone, hvalid'⟩ := eventLoop_invariant (P := fun _ => True)
        (fun _ _ _ _ _ => trivial) hvalid trivial hloop
      refine ⟨fun up hup => ?_, ⟨rfl, rfl, rfl⟩, hvalid'⟩
      rw [List.mem_singleton.mp hup]
      refine ⟨hread, ?_⟩
      rw [passBlank]
      split_ifs <;> exact hdone
  | sign b64_data algorithm reads =>
      obtain ⟨r, hquery, hr⟩ := Option.map_eq_some_iff.mp heq
      obtain ⟨rfl, rfl⟩ := Prod.mk.inj hr
      obtain ⟨s'', hloop, rfl⟩ := Option.map_eq_some_iff.mp hquery
      have hasked : Unasked { s.1.msg (s.1.signMessage b64_data algorithm) with
          ext_key_state := .solicit } := h.congr rfl rfl rfl
      obtain ⟨hman, -, hvalid'⟩ := eventLoop_invariant (P := Unasked)
        (fun _ l _ _ hman => hman.processLine l) hvalid hasked hloop
      exact ⟨fun up hup => absurd hup List.not_mem_nil, hman.congr rfl rfl rfl, hvalid'⟩

theorem serveAll_unasked {s s' : ManagementConnection × CommandLine} {ts : List Traffic}
    {ups : List UserPass} (h : Unasked s.1) (hvalid : s.2.Valid)
    (heq : serveAll s ts = some (ups, s')) :
    (∀ up ∈ ups, UserPass.Read up ∧ up.defined = true) ∧ Unasked s'.1 ∧ s'.2.Valid := by
  induction ts generalizing s ups with
  | nil =>
      obtain ⟨rfl, rfl⟩ := Prod.mk.inj (Option.some.inj heq)
      exact ⟨fun up hup => absurd hup List.not_mem_nil, h, hvalid⟩
  | cons t ts ih =>
      obtain ⟨r, hserve, hrest⟩ := Option.bind_eq_some_iff.mp heq
      obtain ⟨r', hall, hr'⟩ := Option.map_eq_some_iff.mp hrest
      obtain ⟨rfl, rfl⟩ := Prod.mk.inj hr'
      obtain ⟨hups, hunasked, hbuffer⟩ := serve_unasked h hvalid hserve
      obtain ⟨hmore, hend⟩ := ih hunasked hbuffer hall
      exact ⟨fun up hup => (List.mem_append.mp hup).elim (hups up) (hmore up), hend⟩

/-- **Queries, over a whole run.**  Whatever the client writes and whenever, every answer that
    OpenVPN takes is complete, can be printed and fits, and between the queries nothing of an
    answer is left. -/
theorem serveAll_answers {ts : List Traffic} {ups : List UserPass}
    {s : ManagementConnection × CommandLine}
    (heq : serveAll (.initial, ⟨[], []⟩) ts = some (ups, s)) :
    (∀ up ∈ ups, UserPass.Read up ∧ up.defined = true) ∧ Unasked s.1 :=
  have h := serveAll_unasked ⟨rfl, rfl, rfl⟩
    ⟨fun _ hc => absurd hc List.not_mem_nil, rfl, Nat.zero_le _⟩ heq
  ⟨h.1, h.2.1⟩

/-- A password that nobody asked for, and then a query. -/
theorem serveAll_answers_early :
    let bytes : Text → List UInt8 := fun text => text.map fun c => UInt8.ofNat c.toNat
    let ts : List Traffic :=
      [.idle (bytes "password \"Private Key\" early\n"),
        .query .pass "Private Key" [] [bytes "password \"Private Key\" secret\n"]]
    ∃ ups s, serveAll (.initial, ⟨[], []⟩) ts = some (ups, s) ∧
      ups.map (·.password) = [("secret" : Text)] ∧
      (∀ up ∈ ups, UserPass.Read up ∧ up.defined = true) ∧ Unasked s.1 := by
  intro bytes ts
  have h : (serveAll (.initial, ⟨[], []⟩) ts).map (fun r => r.1.map (·.password)) =
      some [("secret" : Text)] := by decide +kernel
  obtain ⟨r, hr, hpassword⟩ := Option.map_eq_some_iff.mp h
  exact ⟨r.1, r.2, hr, hpassword, serveAll_answers hr⟩

/-- **The commands, however they are cut.**  As long as no line is too long for the buffer, the
    connection comes to the same state with any reads of the same bytes. -/
theorem man_read_cut {reads reads' : List (List UInt8)} (hbytes : reads.flatten = reads'.flatten)
    (hreads : ∀ buf ∈ reads, buf.length ≤ READ_SIZE)
    (hreads' : ∀ buf ∈ reads', buf.length ≤ READ_SIZE) (hfits : Fits (stream reads))
    (man : ManagementConnection) :
    reads.foldl man_read (man, ⟨[], []⟩) = reads'.foldl man_read (man, ⟨[], []⟩) := by
  have hstream : stream reads = stream reads' := by rw [stream, stream, hbytes]
  have h := readAll_eq processLine man hreads hfits
  have h' := readAll_eq processLine man hreads' (hstream ▸ hfits)
  rw [← hstream] at h'
  exact h.trans h'.symm

/-- One read, or one byte in each. -/
theorem man_read_cut_bytes :
    let bytes : List UInt8 :=
      ("password \"Private Key\" secret\nusername" : Text).map fun c => UInt8.ofNat c.toNat
    [bytes].foldl man_read (.initial, ⟨[], []⟩) =
      (bytes.map fun b => [b]).foldl man_read (.initial, ⟨[], []⟩) := by
  intro bytes
  have hfits : Fits (stream [bytes]) := by
    unfold Fits
    decide +kernel
  exact man_read_cut (by decide +kernel) (by decide +kernel) (by decide +kernel) hfits .initial

end ManagementConnection

end OpenVpnAndroid
