/-
  OpenVpnAndroid/CommandLine.lean
  ===============================
  **`struct command_line`: the commands of a management client** (`manage.c`).

  `man_read` reads at most 256 bytes at a time and adds what may be printed to a buffer
  of 1024.  When the buffer is full it is emptied, and with it go the lines in it that
  have not been processed.  It does not happen while no line is longer than what a read
  leaves room for: then the lines are those of the stream, however it is cut into reads
  (`readAll_eq`).
-/
import Mathlib

namespace OpenVpnAndroid

def LINE_FEED : UInt8 := 10

/-- `buf` and `residual`, two buffers of the same capacity. -/
structure CommandLine where
  buf : List UInt8
  residual : List UInt8
deriving DecidableEq, Repr

namespace CommandLine

/-- The argument of `command_line_new`. -/
def CAPACITY : Nat := 1024

/-- The size of the buffer of `man_read`. -/
def READ_SIZE : Nat := 256

/-- `c && char_class(c, CC_PRINT|CC_NEWLINE)` -/
def accepts (c : UInt8) : Bool := c ≠ 0 && ((32 ≤ c && c ≠ 127) || c == LINE_FEED)

def addByte (buf : List UInt8) (c : UInt8) : List UInt8 :=
  if accepts c then
    -- `buf_write_u8`, and `buf_clear` if it fails
    if buf.length + 1 ≤ CAPACITY then buf ++ [c] else []
  else buf

/-- `command_line_add` -/
def add (cl : CommandLine) (buf : List UInt8) : CommandLine :=
  { cl with buf := buf.foldl addByte cl.buf }

/-- `buf_substring_len(buf, '\n')`: the length of the first line with its end. -/
def buf_substring_len : List UInt8 → Option Nat
  | [] => none
  | c :: cs => if c = LINE_FEED then some 1 else (buf_substring_len cs).map (· + 1)

/-- `char_class(c, CC_CRLF|CC_NULL)` -/
def isLineEnd (c : UInt8) : Bool := c == 13 || c == LINE_FEED || c == 0

def buf_chomp (buf : List UInt8) : List UInt8 := buf.rdropWhile isLineEnd

/-- `buf_copy`, which copies nothing if there is no room. -/
def buf_copy (dest src : List UInt8) : List UInt8 :=
  if dest.length + src.length ≤ CAPACITY then dest ++ src else dest

/-- `command_line_get`: what is behind the line goes to `residual`. -/
def get (cl : CommandLine) : Option (List UInt8 × CommandLine) :=
  (buf_substring_len cl.buf).map fun i =>
    let line := buf_chomp (cl.buf.take i)
    (line, { buf := line, residual := buf_copy cl.residual (cl.buf.drop i) })

/-- `command_line_next` -/
def next (cl : CommandLine) : CommandLine := { buf := cl.residual, residual := [] }

variable {σ : Type*} (process : σ → List UInt8 → σ)

/-- The rounds of the loop of `man_read`. -/
def rounds : Nat → σ × CommandLine → σ × CommandLine
  | 0, s => s
  | n + 1, s =>
      match s.2.get with
      | none => s
      | some (line, cl) => rounds n (process s.1 line, cl.next)

/-- The bytes of one read: every round takes one line. -/
def read (s : σ × CommandLine) (buf : List UInt8) : σ × CommandLine :=
  let cl := s.2.add buf
  rounds process (cl.buf.count LINE_FEED) (s.1, cl)

/-- All reads, one after another. -/
def readAll (s : σ) (reads : List (List UInt8)) : σ × CommandLine :=
  reads.foldl (read process) (s, ⟨[], []⟩)

/-! ### One line -/

variable {process}

theorem buf_substring_len_line {line : List UInt8} (h : LINE_FEED ∉ line) (rest : List UInt8) :
    buf_substring_len (line ++ LINE_FEED :: rest) = some (line.length + 1) := by
  induction line with
  | nil => rfl
  | cons c line ih =>
      rw [List.mem_cons, not_or] at h
      rw [List.cons_append, buf_substring_len, if_neg (Ne.symm h.1), ih h.2, Option.map_some,
        List.length_cons]

/-- What was added can be printed, but for the ends of the lines. -/
def Clean (buf : List UInt8) : Prop := ∀ c ∈ buf, accepts c = true

theorem isLineEnd_of_accepts {c : UInt8} (h : accepts c = true) (hc : c ≠ LINE_FEED) :
    isLineEnd c = false := by
  have hne : c ≠ 13 := by
    rintro rfl
    exact absurd h (by decide)
  have hzero : c ≠ 0 := by
    rintro rfl
    exact absurd h (by decide)
  simp [isLineEnd, hne, hzero, hc]

/-- The line break goes, and nothing else. -/
theorem buf_chomp_line {line : List UInt8} (hclean : Clean line) (h : LINE_FEED ∉ line) :
    buf_chomp (line ++ [LINE_FEED]) = line := by
  rw [buf_chomp, List.rdropWhile_concat_pos _ _ _ (by decide)]
  rcases List.eq_nil_or_concat line with rfl | ⟨line, c, rfl⟩
  · rfl
  · rw [List.concat_eq_append] at hclean h ⊢
    have hmem : c ∈ line ++ [c] := List.mem_append_right _ (List.mem_singleton_self c)
    have hend := isLineEnd_of_accepts (hclean c hmem) fun hc => h (hc ▸ hmem)
    rw [List.rdropWhile_concat_neg _ _ _ (by rw [hend]; exact Bool.false_ne_true)]

theorem get_line {line rest : List UInt8} (hclean : Clean line) (h : LINE_FEED ∉ line)
    (hrest : rest.length ≤ CAPACITY) :
    get ⟨line ++ LINE_FEED :: rest, []⟩ = some (line, ⟨line, rest⟩) := by
  have hsplit : line ++ LINE_FEED :: rest = (line ++ [LINE_FEED]) ++ rest := by simp
  have hlen : line.length + 1 = (line ++ [LINE_FEED]).length := by simp
  rw [get, buf_substring_len_line h, Option.map_some]
  dsimp only
  rw [hsplit, hlen, List.take_left, List.drop_left, buf_chomp_line hclean h, buf_copy,
    List.length_nil, Nat.zero_add, if_pos hrest, List.nil_append]

/-- The lines of a stream, the last of which has no end yet. -/
def lines (stream : List UInt8) : List (List UInt8) := (stream.splitOn LINE_FEED).dropLast

def pending (stream : List UInt8) : List UInt8 :=
  (stream.splitOn LINE_FEED).getLast (List.splitOn_ne_nil _ _)

theorem lines_of_not_mem {buf : List UInt8} (h : LINE_FEED ∉ buf) :
    lines buf = [] ∧ pending buf = buf := by
  simp only [lines, pending, List.splitOn_eq_singleton h]
  exact ⟨rfl, rfl⟩

theorem lines_line {line : List UInt8} (h : LINE_FEED ∉ line) (rest : List UInt8) :
    lines (line ++ LINE_FEED :: rest) = line :: lines rest ∧
      pending (line ++ LINE_FEED :: rest) = pending rest := by
  have hsplit : (line ++ LINE_FEED :: rest).splitOn LINE_FEED =
      line :: rest.splitOn LINE_FEED := by
    rw [List.splitOn_append_cons_self, List.splitOn_eq_singleton h, List.singleton_append]
  have hne := List.splitOn_ne_nil LINE_FEED rest
  simp only [lines, pending, hsplit]
  exact ⟨List.dropLast_cons_of_ne_nil hne, List.getLast_cons hne⟩

/-- A stream is a line and a rest, or has no end of a line. -/
theorem line_induction {P : List UInt8 → Prop} (last : ∀ buf, LINE_FEED ∉ buf → P buf)
    (line : ∀ l rest, LINE_FEED ∉ l → P rest → P (l ++ LINE_FEED :: rest)) (stream : List UInt8) :
    P stream := by
  induction hn : stream.length using Nat.strongRecOn generalizing stream with
  | ind n ih =>
      by_cases h : LINE_FEED ∈ stream
      · obtain ⟨l, rest, rfl, hl⟩ := List.eq_append_cons_of_mem h
        refine line l rest hl (ih rest.length ?_ rest rfl)
        rw [← hn, List.length_append, List.length_cons]
        omega
      · exact last stream h

/-! ### The lines of a stream -/

theorem pending_suffix (stream : List UInt8) : pending stream <:+ stream := by
  induction stream using line_induction with
  | last buf h => rw [(lines_of_not_mem h).2]
  | line l rest h ih =>
      rw [(lines_line h rest).2]
      exact (ih.trans (List.suffix_cons LINE_FEED rest)).trans (List.suffix_append l _)

theorem not_mem_pending (stream : List UInt8) : LINE_FEED ∉ pending stream := by
  induction stream using line_induction with
  | last buf h => rw [(lines_of_not_mem h).2]; exact h
  | line l rest h ih => rw [(lines_line h rest).2]; exact ih

theorem not_mem_lines {stream l : List UInt8} (hl : l ∈ lines stream) : LINE_FEED ∉ l := by
  induction stream using line_induction with
  | last buf h =>
      rw [(lines_of_not_mem h).1] at hl
      exact absurd hl List.not_mem_nil
  | line l' rest h ih =>
      rw [(lines_line h rest).1] at hl
      rcases List.mem_cons.mp hl with rfl | hl
      · exact h
      · exact ih hl

theorem subset_of_mem_lines {stream l : List UInt8} (hl : l ∈ lines stream) : l ⊆ stream := by
  induction stream using line_induction with
  | last buf h =>
      rw [(lines_of_not_mem h).1] at hl
      exact absurd hl List.not_mem_nil
  | line l' rest h ih =>
      rw [(lines_line h rest).1] at hl
      rcases List.mem_cons.mp hl with rfl | hl
      · exact List.subset_append_left l _
      · exact fun c hc => List.mem_append_right l' (List.mem_cons_of_mem _ (ih hl hc))

/-- What comes later goes on from what is pending. -/
theorem lines_append (stream more : List UInt8) :
    lines (stream ++ more) = lines stream ++ lines (pending stream ++ more) ∧
      pending (stream ++ more) = pending (pending stream ++ more) := by
  induction stream using line_induction with
  | last buf h =>
      rw [(lines_of_not_mem h).1, (lines_of_not_mem h).2]
      exact ⟨rfl, rfl⟩
  | line l rest h ih =>
      simp [lines_line h, ih]

/-- Whole lines. -/
theorem lines_whole {ls : List (List UInt8)} (h : ∀ l ∈ ls, LINE_FEED ∉ l) :
    lines (ls.flatMap (· ++ [LINE_FEED])) = ls ∧ pending (ls.flatMap (· ++ [LINE_FEED])) = [] := by
  induction ls with
  | nil => exact ⟨rfl, rfl⟩
  | cons l ls ih =>
      obtain ⟨hl, hls⟩ := List.forall_mem_cons.mp h
      rw [List.flatMap_cons, List.append_assoc, List.singleton_append, (lines_line hl _).1,
        (lines_line hl _).2, (ih hls).1, (ih hls).2]
      exact ⟨rfl, rfl⟩

/-! ### One read -/

/-- The loop takes the lines off the buffer. -/
theorem rounds_eq (process : σ → List UInt8 → σ) (s : σ) {buf : List UInt8} (hclean : Clean buf)
    (hlen : buf.length ≤ CAPACITY) :
    rounds process (buf.count LINE_FEED) (s, ⟨buf, []⟩) =
      ((lines buf).foldl process s, ⟨pending buf, []⟩) := by
  induction buf using line_induction generalizing s with
  | last buf h =>
      rw [(lines_of_not_mem h).1, (lines_of_not_mem h).2, List.count_eq_zero_of_not_mem h]
      rfl
  | line l rest h ih =>
      have hcount : (l ++ LINE_FEED :: rest).count LINE_FEED = rest.count LINE_FEED + 1 := by
        rw [List.count_append, List.count_eq_zero_of_not_mem h, List.count_cons_self, Nat.zero_add]
      have hl : Clean l := fun c hc => hclean c (List.mem_append_left _ hc)
      have hrest : Clean rest := fun c hc =>
        hclean c (List.mem_append_right _ (List.mem_cons_of_mem _ hc))
      rw [List.length_append, List.length_cons] at hlen
      rw [hcount, rounds, get_line hl h (by omega)]
      dsimp only [next]
      rw [ih (process s l) hrest (by omega), (lines_line h rest).1, (lines_line h rest).2,
        List.foldl_cons]

theorem add_eq (buf : List UInt8) (bytes : List UInt8)
    (hlen : buf.length + bytes.length ≤ CAPACITY) :
    bytes.foldl addByte buf = buf ++ bytes.filter accepts := by
  induction bytes generalizing buf with
  | nil => simp
  | cons c bytes ih =>
      rw [List.length_cons] at hlen
      rw [List.foldl_cons, addByte]
      cases hc : accepts c with
      | false =>
          rw [if_neg Bool.false_ne_true, ih buf (by omega), List.filter_cons_of_neg (by simp [hc])]
      | true =>
          rw [if_pos rfl, if_pos (by omega), ih _ (by rw [List.length_append]; simp; omega),
            List.filter_cons_of_pos hc, List.append_assoc, List.singleton_append]

theorem clean_filter (bytes : List UInt8) : Clean (bytes.filter accepts) :=
  fun _ hc => (List.mem_filter.mp hc).2

theorem read_eq (process : σ → List UInt8 → σ) (s : σ) {buf bytes : List UInt8}
    (hclean : Clean buf) (hlen : buf.length + bytes.length ≤ CAPACITY) :
    read process (s, ⟨buf, []⟩) bytes =
      ((lines (buf ++ bytes.filter accepts)).foldl process s,
        ⟨pending (buf ++ bytes.filter accepts), []⟩) := by
  have hle := List.length_filter_le accepts bytes
  rw [read, add]
  dsimp only
  rw [add_eq buf bytes hlen]
  refine rounds_eq process s (fun c hc => ?_) (by rw [List.length_append]; omega)
  exact (List.mem_append.mp hc).elim (hclean c) (clean_filter bytes c)

/-! ### All reads -/

/-- What arrives of the stream. -/
def stream (reads : List (List UInt8)) : List UInt8 := reads.flatten.filter accepts

/-- Every line leaves room for a read. -/
def Fits (stream : List UInt8) : Prop :=
  ∀ l ∈ stream.splitOn LINE_FEED, l.length + READ_SIZE ≤ CAPACITY

theorem splitOn_eq (stream : List UInt8) :
    stream.splitOn LINE_FEED = lines stream ++ [pending stream] :=
  (List.dropLast_append_getLast (List.splitOn_ne_nil LINE_FEED stream)).symm

/-- What is pending is the start of the next line. -/
theorem exists_pending_prefix (s more : List UInt8) :
    ∃ l ∈ (s ++ more).splitOn LINE_FEED, pending s <+: l := by
  have hp := not_mem_pending s
  rw [splitOn_eq, (lines_append s more).1, (lines_append s more).2, List.append_assoc,
    ← splitOn_eq]
  by_cases h : LINE_FEED ∈ more
  · obtain ⟨l, rest, rfl, hl⟩ := List.eq_append_cons_of_mem h
    have hfirst : LINE_FEED ∉ pending s ++ l := fun hmem => (List.mem_append.mp hmem).elim hp hl
    refine ⟨pending s ++ l, List.mem_append_right _ ?_, List.prefix_append _ _⟩
    rw [← List.append_assoc, splitOn_eq, (lines_line hfirst rest).1]
    exact List.mem_cons_self
  · have hall : LINE_FEED ∉ pending s ++ more := fun hmem => (List.mem_append.mp hmem).elim hp h
    refine ⟨pending s ++ more, List.mem_append_right _ ?_, List.prefix_append _ _⟩
    rw [List.splitOn_eq_singleton hall]
    exact List.mem_singleton_self _

theorem Fits.pending_le {s more : List UInt8} (h : Fits (s ++ more)) :
    (pending s).length + READ_SIZE ≤ CAPACITY := by
  obtain ⟨l, hl, hprefix⟩ := exists_pending_prefix s more
  have hle := hprefix.length_le
  have := h l hl
  omega

theorem Fits.of_append {s more : List UInt8} (h : Fits (s ++ more)) : Fits s := by
  intro l hl
  rw [splitOn_eq] at hl
  rcases List.mem_append.mp hl with hl | hl
  · refine h l ?_
    rw [splitOn_eq, (lines_append s more).1]
    exact List.mem_append_left _ (List.mem_append_left _ hl)
  · rw [List.mem_singleton.mp hl]
    exact h.pending_le

/-- The lines, however they are cut: when no line is longer than what a read leaves room for,
    each is processed once and in order. -/
theorem readAll_eq (process : σ → List UInt8 → σ) (s : σ) {reads : List (List UInt8)}
    (hreads : ∀ buf ∈ reads, buf.length ≤ READ_SIZE) (hfits : Fits (stream reads)) :
    readAll process s reads =
      ((lines (stream reads)).foldl process s, ⟨pending (stream reads), []⟩) := by
  induction reads using List.reverseRecOn with
  | nil => rfl
  | append_singleton reads bytes ih =>
      have hstream : stream (reads ++ [bytes]) = stream reads ++ bytes.filter accepts := by
        rw [stream, List.flatten_append, List.flatten_singleton, List.filter_append]
        rfl
      rw [hstream] at hfits ⊢
      have hbytes := hreads bytes (List.mem_append_right _ (List.mem_singleton_self bytes))
      have hpending := hfits.pending_le
      have hclean : Clean (pending (stream reads)) := fun c hc =>
        clean_filter _ c ((pending_suffix _).subset hc)
      rw [readAll, List.foldl_append, ← readAll,
        ih (fun buf hbuf => hreads buf (List.mem_append_left _ hbuf)) hfits.of_append,
        List.foldl_cons, List.foldl_nil, read_eq process _ hclean (by omega),
        (lines_append (stream reads) _).1, (lines_append (stream reads) _).2, List.foldl_append]

end CommandLine

end OpenVpnAndroid
