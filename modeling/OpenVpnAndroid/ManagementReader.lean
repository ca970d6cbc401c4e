/-
  OpenVpnAndroid/ManagementReader.lean
  ====================================
  **The read loop of the management thread.**

  `run` decodes every read on its own and appends it to `pendingInput`;
  `processInput` takes the complete lines off it.  Lines may come in any pieces,
  also with the two characters of a terminator apart (`run_eq`), but a character
  may not: the lines are processed as they were sent exactly when every read
  consists of whole characters (`run_lines_iff`).
-/
import OpenVpnAndroid.JavaText
import OpenVpnAndroid.Utf8

namespace OpenVpnAndroid

open Utf8 (encode decode REPLACEMENT)

/-! ### Lines -/

/-- A line with its terminator.  A line break takes a carriage return before it
    along. -/
structure ManagementLine where
  content : Text
  crlf : Bool
  no_newline : '\n' ∉ content
  no_return : crlf = false → content.getLast? ≠ some '\r'

namespace ManagementLine

def terminator (crlf : Bool) : Text := if crlf then ['\r', '\n'] else ['\n']

def text (line : ManagementLine) : Text := line.content ++ terminator line.crlf

end ManagementLine

namespace ManagementReader

/-- `pendingInput.split("\\r?\\n", 2)` for a text with a line break. -/
def splitLine : Text → Option (Text × Text)
  | [] => none
  | '\n' :: rest => some ([], rest)
  | '\r' :: '\n' :: rest => some ([], rest)
  | c :: rest => (splitLine rest).map fun tokens => (c :: tokens.1, tokens.2)

theorem splitLine_cons {c : Char} {s : Text} (hc : c ≠ '\n')
    (hs : c = '\r' → s.head? ≠ some '\n') :
    splitLine (c :: s) = (splitLine s).map fun tokens => (c :: tokens.1, tokens.2) := by
  rw [splitLine]
  · exact hc
  · rintro rest rfl rfl
    exact hs rfl rfl

/-- The first line is split off. -/
theorem splitLine_text (line : ManagementLine) (rest : Text) :
    splitLine (line.text ++ rest) = some (line.content, rest) := by
  obtain ⟨content, crlf, hnewline, hreturn⟩ := line
  induction content with
  | nil => cases crlf <;> rfl
  | cons c content ih =>
      have hc : c ≠ '\n' := fun h => hnewline (h ▸ List.mem_cons_self)
      have hcontent : '\n' ∉ content := fun h => hnewline (List.mem_cons_of_mem c h)
      have hlast : crlf = false → content.getLast? ≠ some '\r' := by
        intro hcrlf h
        apply hreturn hcrlf
        rw [List.getLast?_cons, h]
        rfl
      have hsplit := ih hcontent hlast
      rw [ManagementLine.text, List.append_assoc] at hsplit ⊢
      dsimp only at hsplit ⊢
      rw [List.cons_append, splitLine_cons hc, hsplit]
      · rfl
      · rintro rfl hhead
        -- a terminator directly behind the carriage return
        cases content with
        | cons d content =>
            obtain rfl := Option.some.inj hhead
            exact hcontent List.mem_cons_self
        | nil =>
            cases crlf with
            | true => cases hhead
            | false => exact hreturn rfl rfl

/-- What is split off is a line. -/
theorem exists_line {s token rest : Text} (h : splitLine s = some (token, rest)) :
    ∃ line : ManagementLine, line.content = token ∧ s = line.text ++ rest := by
  induction s using splitLine.induct generalizing token with
  | case1 => cases h
  | case2 tail =>
      cases h
      exact ⟨⟨[], false, List.not_mem_nil, fun _ h => nomatch h⟩, rfl, rfl⟩
  | case3 tail =>
      cases h
      exact ⟨⟨[], true, List.not_mem_nil, fun h => nomatch h⟩, rfl, rfl⟩
  | case4 c tail hc hreturn ih =>
      have hhead : c = '\r' → tail.head? ≠ some '\n' := by
        intro hc' hhead
        cases tail with
        | nil => cases hhead
        | cons d tail => exact hreturn tail hc' (by rw [Option.some.inj hhead])
      rw [splitLine_cons hc hhead] at h
      obtain ⟨⟨token', rest'⟩, hsplit, htokens⟩ := Option.map_eq_some_iff.mp h
      cases htokens
      obtain ⟨⟨content, crlf, hnewline, hreturn'⟩, rfl, rfl⟩ := ih hsplit
      refine ⟨⟨c :: content, crlf, ?_, ?_⟩, rfl, rfl⟩
      · intro hmem
        rcases List.mem_cons.mp hmem with h' | h'
        · exact hc h'.symm
        · exact hnewline h'
      · rintro rfl hlast
        cases content with
        | nil => exact hhead (Option.some.inj hlast) rfl
        | cons d content => exact hreturn' rfl (by rwa [List.getLast?_cons_cons] at hlast)

theorem splitLine_length {s token rest : Text} (h : splitLine s = some (token, rest)) :
    rest.length < s.length := by
  obtain ⟨⟨content, crlf, hnewline, hreturn⟩, -, rfl⟩ := exists_line h
  rw [ManagementLine.text, List.length_append, List.length_append]
  cases crlf <;> simp [ManagementLine.terminator]

/-! ### The reader -/

/-- The loop: the strings passed to `processCommand` and the text that is returned. -/
def processInput (pendingInput : Text) : List Text × Text :=
  match h : splitLine pendingInput with
  | none => ([], pendingInput)
  | some (token, rest) =>
      have : rest.length < pendingInput.length := splitLine_length h
      let (commands, pendingInput) := processInput rest
      (token :: commands, pendingInput)
termination_by pendingInput.length

/-- One round of the read loop: the commands so far and `pendingInput`. -/
def readStep (s : List Text × Text) (buffer : List UInt8) : List Text × Text :=
  let (commands, pendingInput) := processInput (s.2 ++ decode buffer)
  (s.1 ++ commands, pendingInput)

/-- The read loop, for the bytes of each `read`. -/
def run (reads : List (List UInt8)) : List Text × Text := reads.foldl readStep ([], [])

theorem processInput_of_none {s : Text} (h : splitLine s = none) : processInput s = ([], s) := by
  rw [processInput]
  split
  · rfl
  · next heq =>
      rw [h] at heq
      cases heq

theorem processInput_of_some {s token rest : Text} (h : splitLine s = some (token, rest)) :
    processInput s = (token :: (processInput rest).1, (processInput rest).2) := by
  rw [processInput]
  split
  · next heq =>
      rw [h] at heq
      cases heq
  · next heq =>
      rw [h] at heq
      cases heq
      rfl

/-- A complete line is processed first. -/
theorem processInput_text (line : ManagementLine) (rest : Text) :
    processInput (line.text ++ rest) =
      (line.content :: (processInput rest).1, (processInput rest).2) :=
  processInput_of_some (splitLine_text line rest)

/-- A text is a line and a rest, or has nothing to process yet. -/
theorem processInput_induction {P : Text → Prop} (pending : ∀ s, splitLine s = none → P s)
    (line : ∀ (l : ManagementLine) rest, P rest → P (l.text ++ rest)) (s : Text) : P s := by
  induction hn : s.length using Nat.strongRecOn generalizing s with
  | ind n ih =>
      cases h : splitLine s with
      | none => exact pending s h
      | some tokens =>
          have hlt := splitLine_length h
          obtain ⟨l, -, hs⟩ := exists_line h
          rw [hs]
          exact line l tokens.2 (ih tokens.2.length (hn ▸ hlt) tokens.2 rfl)

/-- Text that arrives later is processed as if it had been there. -/
theorem processInput_append (s t : Text) :
    processInput (s ++ t) =
      ((processInput s).1 ++ (processInput ((processInput s).2 ++ t)).1,
        (processInput ((processInput s).2 ++ t)).2) := by
  induction s using processInput_induction with
  | pending s h => rw [processInput_of_none h]; rfl
  | line l rest ih =>
      rw [List.append_assoc, processInput_text, processInput_text, ih]
      rfl

/-- The loop processes the lines of all that was decoded. -/
theorem run_eq (reads : List (List UInt8)) : run reads = processInput (reads.flatMap decode) := by
  induction reads using List.reverseRecOn with
  | nil => exact (processInput_of_none rfl).symm
  | append_singleton reads buffer ih =>
      rw [run, List.foldl_append, ← run, ih, List.flatMap_append, List.flatMap_singleton,
        processInput_append]
      rfl

/-- Lines are processed as they were sent. -/
theorem processInput_lines (lines : List ManagementLine) :
    processInput (lines.flatMap ManagementLine.text) = (lines.map ManagementLine.content, []) := by
  induction lines with
  | nil => exact processInput_of_none rfl
  | cons line lines ih =>
      rw [List.flatMap_cons, processInput_text, ih]
      rfl

/-! ### Replacements -/

theorem count_text (line : ManagementLine) :
    line.text.count REPLACEMENT = line.content.count REPLACEMENT := by
  rw [ManagementLine.text, List.count_append]
  cases line.crlf <;> rfl

theorem count_processInput (s : Text) :
    ((processInput s).1.flatten).count REPLACEMENT + (processInput s).2.count REPLACEMENT =
      s.count REPLACEMENT := by
  induction s using processInput_induction with
  | pending s h => rw [processInput_of_none h]; simp
  | line l rest ih =>
      rw [processInput_text, List.count_append, count_text, ← ih]
      simp [Nat.add_assoc]

theorem count_lines (lines : List ManagementLine) :
    (lines.map ManagementLine.content).flatten.count REPLACEMENT =
      (lines.flatMap ManagementLine.text).count REPLACEMENT := by
  have hcount := count_processInput (lines.flatMap ManagementLine.text)
  rwa [processInput_lines, List.count_nil, Nat.add_zero] at hcount

/-! ### The end of the stream -/

theorem splitLine_ne_none {s : Text} (h : '\n' ∈ s) : splitLine s ≠ none := by
  induction s using splitLine.induct with
  | case1 => cases h
  | case2 tail => exact Option.some_ne_none _
  | case3 tail => exact Option.some_ne_none _
  | case4 c tail hc hreturn ih =>
      have htail : '\n' ∈ tail := by
        rcases List.mem_cons.mp h with h' | h'
        · exact absurd h'.symm hc
        · exact h'
      rw [splitLine]
      · rw [ne_eq, Option.map_eq_none_iff]
        exact ih htail
      · exact hc
      · exact hreturn

/-- Nothing is pending behind a line break. -/
theorem processInput_pending (s : Text) (h : s = [] ∨ s.getLast? = some '\n') :
    (processInput s).2 = [] := by
  induction s using processInput_induction with
  | pending s hs =>
      rw [processInput_of_none hs]
      rcases h with h | h
      · exact h
      · exact absurd hs (splitLine_ne_none (List.mem_of_getLast? h))
  | line l rest ih =>
      rw [processInput_text]
      apply ih
      cases rest with
      | nil => exact .inl rfl
      | cons c rest =>
          right
          rcases h with h | h
          · exact absurd h (List.append_ne_nil_of_right_ne_nil _ (List.cons_ne_nil c rest))
          · rwa [List.getLast?_append_cons] at h

theorem text_getLast? (line : ManagementLine) : line.text.getLast? = some '\n' := by
  rw [ManagementLine.text]
  cases line.crlf <;> simp [ManagementLine.terminator]

/-- The line break at the end of a stream is read, however the stream is cut. -/
theorem decode_getLast? (reads : List (List UInt8)) (x : List UInt8)
    (h : reads.flatten = x ++ String.utf8EncodeChar '\n') :
    (reads.flatMap decode).getLast? = some '\n' := by
  induction reads using List.reverseRecOn with
  | nil => exact absurd h.symm (List.append_ne_nil_of_right_ne_nil x (by decide))
  | append_singleton reads buffer ih =>
      rw [List.flatten_append, List.flatten_singleton] at h
      rw [List.flatMap_append, List.flatMap_singleton]
      rcases List.eq_nil_or_concat buffer with rfl | ⟨buffer, b, rfl⟩
      · rw [List.append_nil] at h
        rw [Utf8.decode_nil, List.append_nil]
        exact ih h
      · rw [List.concat_eq_append, ← List.append_assoc] at h
        have hlast : [b] = String.utf8EncodeChar '\n' := (List.append_inj' h rfl).2
        rw [List.concat_eq_append, hlast, Utf8.decode_append_char, ← List.append_assoc,
          List.getLast?_concat]

/-- All that was decoded is processed when a stream of lines has ended. -/
theorem run_pending (lines : List ManagementLine) (reads : List (List UInt8))
    (h : reads.flatten = encode (lines.flatMap ManagementLine.text)) :
    (processInput (reads.flatMap decode)).2 = [] := by
  apply processInput_pending
  rcases List.eq_nil_or_concat lines with rfl | ⟨lines, line, rfl⟩
  · left
    rw [List.flatMap_eq_nil_iff]
    intro buffer hbuffer
    rw [List.flatten_eq_nil_iff.mp h buffer hbuffer]
    rfl
  · right
    obtain ⟨init, hinit⟩ := List.getLast?_eq_some_iff.mp (text_getLast? line)
    rw [List.concat_eq_append, List.flatMap_append, List.flatMap_singleton, hinit,
      ← List.append_assoc, Utf8.encode_append] at h
    exact decode_getLast? reads _ h

/-! ### Every way of reading -/

/-- A stream of lines is processed as the lines that were sent exactly when every read
    consists of whole characters. -/
theorem run_lines_iff (lines : List ManagementLine) (reads : List (List UInt8))
    (hreads : reads.flatten = encode (lines.flatMap ManagementLine.text)) :
    (run reads).1 = lines.map ManagementLine.content ↔
      ∃ parts : List Text, reads = parts.map encode := by
  rw [run_eq]
  constructor
  · intro hcommands
    have hcount := count_processInput (reads.flatMap decode)
    rw [run_pending lines reads hreads, List.count_nil, Nat.add_zero, hcommands, count_lines,
      ← Utf8.sum_replacements] at hcount
    exact Utf8.chunks_whole reads _ hreads hcount.ge
  · rintro ⟨parts, rfl⟩
    have hparts : parts.flatten = lines.flatMap ManagementLine.text := by
      apply Utf8.encode_injective
      rw [Utf8.encode_flatten, hreads]
    rw [Utf8.decode_parts, hparts, processInput_lines]

/-- Two lines, the first cut inside its content and the second between the two
    characters of its terminator. -/
theorem run_lines_iff_cut :
    let lines : List ManagementLine :=
      [⟨"\u00e9t\u00e9", false, by decide, by decide⟩, ⟨"ok", true, by decide, by decide⟩]
    let reads := ["\u00e9", "t\u00e9\nok\r", "\n"].map fun s : String => encode s
    (run reads).1 = lines.map ManagementLine.content ↔
      ∃ parts : List Text, reads = parts.map encode := by
  intro lines reads
  exact run_lines_iff lines reads (by decide +kernel)

/-- A read that ends inside a character. -/
theorem not_run_lines :
    ¬ ∀ (lines : List ManagementLine) (reads : List (List UInt8)),
      (∀ buffer ∈ reads, buffer ≠ [] ∧ buffer.length ≤ 2048) →
      reads.flatten = encode (lines.flatMap ManagementLine.text) →
      (run reads).1 = lines.map ManagementLine.content := by
  intro h
  have hrun := h [⟨"\u00e9", false, by decide, by decide⟩] [[0xC3], [0xA9, 0x0A]] (by decide)
    (by decide +kernel)
  exact absurd hrun (by decide +kernel)

end ManagementReader

end OpenVpnAndroid
