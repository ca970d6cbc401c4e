/-
  OpenVpnAndroid/PemFile.lean
  ===========================
  **`PemWriter` and `PemReader`.**

  A PEM object is written as lines: a boundary, headers, the content in base 64
  and a boundary.  The reader skips what stands before the first boundary.  It
  reads back exactly the objects that are `Readable` (`readPemObject_write_iff`), also
  one after another out of one file (`readPemObjects_write`), and whatever it accepts
  is such an object (`readable_of_read`).
-/
import OpenVpnAndroid.Base64Encoder
import OpenVpnAndroid.TextDecoding
import OpenVpnAndroid.InlineFile

namespace OpenVpnAndroid

structure PemHeader where
  name : Text
  value : Text
deriving DecidableEq, Repr

structure PemObject where
  type : Text
  headers : List PemHeader
  content : List UInt8
deriving DecidableEq, Repr

/-- `line.separator` -/
inductive LineSeparator where
  | lf
  | cr
  | crlf
deriving DecidableEq, Repr

def LineSeparator.text : LineSeparator → Text
  | lf => "\n"
  | cr => "\r"
  | crlf => "\r\n"

namespace PemWriter

def LINE_LENGTH : Nat := 64

def BEGIN : Text := "-----BEGIN "

def END : Text := "-----END "

def DASHES : Text := "-----"

theorem length_drop_lt {bytes : List UInt8} (h : bytes ≠ []) :
    (bytes.drop LINE_LENGTH).length < bytes.length := by
  have hpos := List.length_pos_of_ne_nil h
  rw [List.length_drop, LINE_LENGTH]
  omega

/-- The loop of `writeEncoded`: `buf` holds up to `LINE_LENGTH` characters. -/
def writeLines (nl : Text) (bytes : List UInt8) : Text :=
  if bytes = [] then []
  else (bytes.take LINE_LENGTH).map UInt8.toChar ++ nl ++ writeLines nl (bytes.drop LINE_LENGTH)
termination_by bytes.length
decreasing_by exact length_drop_lt ‹_›

def writeEncoded (nl : Text) (bytes : List UInt8) : Java Text := do
  let bytes ← SpongycastleBase64.encode bytes
  return writeLines nl bytes

def writeHeader (nl : Text) (hdr : PemHeader) : Text := hdr.name ++ ": " ++ hdr.value ++ nl

def writePreEncapsulationBoundary (nl type : Text) : Text := BEGIN ++ type ++ DASHES ++ nl

def writePostEncapsulationBoundary (nl type : Text) : Text := END ++ type ++ DASHES ++ nl

def writeObject (sep : LineSeparator) (obj : PemObject) : Java Text := do
  let nl := sep.text
  let headers :=
    if obj.headers.isEmpty then [] else obj.headers.flatMap (writeHeader nl) ++ nl
  let encoded ← writeEncoded nl obj.content
  return writePreEncapsulationBoundary nl obj.type ++ headers ++ encoded ++
    writePostEncapsulationBoundary nl obj.type

/-- `getOutputSize(obj)`, an `int` like every number on the way. -/
def getOutputSize (sep : LineSeparator) (obj : PemObject) : Int :=
  let nlLength : Int := sep.text.length
  let size := int (2 * (obj.type.length + 10 + nlLength) + 6 + 4)
  let headers := obj.headers.foldl
    (fun size hdr => int (size + (hdr.name.length + 2 + hdr.value.length + nlLength))) size
  let size := if obj.headers.isEmpty then size else int (headers + nlLength)
  let dataLen := int (Int.tdiv (int (obj.content.length + 2)) 3 * 4)
  int (size + (dataLen + Int.tdiv (int (dataLen + LINE_LENGTH - 1)) LINE_LENGTH * nlLength))

end PemWriter

namespace PemReader

open PemWriter (BEGIN END)

/-- The text before the first `c`. -/
def before (c : Char) (line : Text) : Text := line.takeWhile (· != c)

/-- The text behind the first `c`. -/
def behind (c : Char) (line : Text) : Text := (line.dropWhile (· != c)).drop 1

/-- The loop of `loadObject`: `buf` and `headers` at the end marker, with the lines behind
    it, or `none` when there is no such line. -/
def loadLoop (endMarker : Text) : Text → List PemHeader → List Text →
    Option (Text × List PemHeader × List Text)
  | _, _, [] => none
  | buf, headers, line :: lines =>
      if ':' ∈ line then
        loadLoop endMarker buf (headers ++ [⟨before ':' line, trim (behind ':' line)⟩]) lines
      else if containsText endMarker line then some (buf, headers, lines)
      else loadLoop endMarker (buf ++ trim line) headers lines

def loadObject (type : Text) (lines : List Text) : Java (PemObject × List Text) :=
  match loadLoop (END ++ type) [] [] lines with
  | none => throwJava .ioException
  | some (buf, headers, lines) => do
      let content ← SpongycastleBase64.decode buf
      return (⟨type, headers, content⟩, lines)

/-- `readPemObject()` on the lines that were not read yet. -/
def readPemObject : List Text → Java (Option PemObject × List Text)
  | [] => return (none, [])
  | line :: lines =>
      if BEGIN.isPrefixOf line then
        let line := line.drop BEGIN.length
        if '-' ∈ line then
          if before '-' line ≠ [] then do
            let (obj, lines) ← loadObject (before '-' line) lines
            return (some obj, lines)
          else return (none, lines)
        -- `substring(0, -1)`
        else throwJava .stringIndexOutOfBounds
      else readPemObject lines

end PemReader

/-! ### Lines -/

/-- A line without line breaks in it. -/
def Unbroken (line : Text) : Prop := '\n' ∉ line ∧ '\r' ∉ line

instance (line : Text) : Decidable (Unbroken line) := inferInstanceAs (Decidable (_ ∧ _))

theorem Unbroken.of_subset {line line' : Text} (h : Unbroken line) (hsub : line' ⊆ line) :
    Unbroken line' := ⟨fun hn => h.1 (hsub hn), fun hr => h.2 (hsub hr)⟩

theorem Unbroken.append {line line' : Text} (h : Unbroken line) (h' : Unbroken line') :
    Unbroken (line ++ line') :=
  ⟨by simpa using ⟨h.1, h'.1⟩, by simpa using ⟨h.2, h'.2⟩⟩

/-- Lines as they are written. -/
def unlines (sep : LineSeparator) (lines : List Text) : Text := lines.flatMap (· ++ sep.text)

@[simp] theorem unlines_nil (sep : LineSeparator) : unlines sep [] = [] := rfl

@[simp] theorem unlines_cons (sep : LineSeparator) (line : Text) (lines : List Text) :
    unlines sep (line :: lines) = line ++ sep.text ++ unlines sep lines := rfl

theorem unlines_append (sep : LineSeparator) (lines lines' : List Text) :
    unlines sep (lines ++ lines') = unlines sep lines ++ unlines sep lines' := List.flatMap_append

theorem readLines_separator (sep : LineSeparator) {rest : Text}
    (h : sep = .cr → rest.head? ≠ some '\n') :
    readLines (sep.text ++ rest) = [] :: readLines rest := by
  cases sep with
  | lf => rfl
  | crlf => rfl
  | cr =>
      change readLines ('\r' :: rest) = [] :: readLines rest
      rw [readLines.eq_4]
      rintro s rfl
      exact h rfl rfl

theorem readLines_line_separator (sep : LineSeparator) {line rest : Text} (hline : Unbroken line)
    (h : sep = .cr → rest.head? ≠ some '\n') :
    readLines (line ++ sep.text ++ rest) = line :: readLines rest := by
  induction line with
  | nil => exact readLines_separator sep h
  | cons c line ih =>
      have hn : c ≠ '\n' := fun hc => hline.1 (hc ▸ List.mem_cons_self)
      have hr : c ≠ '\r' := fun hc => hline.2 (hc ▸ List.mem_cons_self)
      rw [List.cons_append, List.cons_append, readLines_cons hn hr,
        ih (hline.of_subset (List.subset_cons_self c line))]

theorem head_unlines {lines : List Text} (h : ∀ line ∈ lines, Unbroken line) :
    (unlines .cr lines).head? ≠ some '\n' := by
  cases lines with
  | nil => simp
  | cons line lines =>
      cases line with
      | nil => simp [LineSeparator.text]
      | cons c line =>
          have hc := (h (c :: line) List.mem_cons_self).1
          simp only [unlines_cons, List.cons_append, List.head?_cons]
          rintro ⟨rfl⟩
          exact hc List.mem_cons_self

/-- The lines that were written are read. -/
theorem readLines_unlines (sep : LineSeparator) {lines : List Text}
    (h : ∀ line ∈ lines, Unbroken line) : readLines (unlines sep lines) = lines := by
  induction lines with
  | nil => rfl
  | cons line lines ih =>
      have hlines : ∀ line ∈ lines, Unbroken line := fun l hl => h l (List.mem_cons_of_mem line hl)
      rw [unlines_cons, readLines_line_separator sep (h line List.mem_cons_self), ih hlines]
      rintro rfl
      exact head_unlines hlines

/-- What is read has no line breaks in it. -/
theorem unbroken_of_readLines {s line : Text} (h : line ∈ readLines s) : Unbroken line := by
  have hnil : Unbroken [] := ⟨List.not_mem_nil, List.not_mem_nil⟩
  induction s using readLines.induct generalizing line with
  | case1 => exact absurd h List.not_mem_nil
  | case2 s ih =>
      rcases List.mem_cons.mp h with rfl | h
      · exact hnil
      · exact ih h
  | case3 s ih =>
      rcases List.mem_cons.mp h with rfl | h
      · exact hnil
      · exact ih h
  | case4 s hs ih =>
      rw [readLines.eq_4 s hs] at h
      rcases List.mem_cons.mp h with rfl | h
      · exact hnil
      · exact ih h
  | case5 c s hn hcrlf hr hs ih =>
      rw [readLines_cons hn hr, hs] at h
      obtain rfl := List.mem_singleton.mp h
      exact ⟨by simpa using Ne.symm hn, by simpa using Ne.symm hr⟩
  | case6 c s hn hcrlf hr l ls hs ih =>
      rw [readLines_cons hn hr, hs] at h
      rcases List.mem_cons.mp h with rfl | h
      · have hl : Unbroken l := ih (hs ▸ List.mem_cons_self)
        exact ⟨by simpa using ⟨Ne.symm hn, hl.1⟩, by simpa using ⟨Ne.symm hr, hl.2⟩⟩
      · exact ih (hs ▸ List.mem_cons_of_mem l h)

/-! ### Parts of a line -/

theorem subset_of_containsText {sub s : Text} (h : containsText sub s = true) : sub ⊆ s := by
  induction s with
  | nil =>
      have hsub : sub = [] := by simpa [containsText] using h
      rw [hsub]
      exact List.Subset.refl _
  | cons c s ih =>
      rw [containsText, Bool.or_eq_true] at h
      rcases h with h | h
      · exact (List.isPrefixOf_iff_prefix.mp h).subset
      · exact fun x hx => List.mem_cons_of_mem c (ih h hx)

theorem containsText_append (sub rest : Text) : containsText sub (sub ++ rest) = true := by
  have hpre : sub.isPrefixOf (sub ++ rest) = true :=
    List.isPrefixOf_iff_prefix.mpr (List.prefix_append sub rest)
  cases hs : sub ++ rest with
  | nil =>
      obtain ⟨rfl, -⟩ := List.append_eq_nil_iff.mp hs
      rfl
  | cons c s =>
      rw [containsText, ← hs, hpre]
      rfl

/-- `trim` leaves the ends of a text that was trimmed. -/
theorem trim_trim (s : Text) : trim (trim s) = trim s := by
  have htrim : ∀ t : Text, trim t =
      (t.dropWhile fun c => c.toNat ≤ 32).rdropWhile fun c => c.toNat ≤ 32 := fun _ => rfl
  have hfront : (trim s).dropWhile (fun c => c.toNat ≤ 32) = trim s := by
    rw [List.dropWhile_eq_self_iff]
    intro hpos
    have hpre : trim s <+: s.dropWhile fun c => c.toNat ≤ 32 := List.rdropWhile_prefix _ _
    have hhead : (s.dropWhile fun c => c.toNat ≤ 32) ≠ [] :=
      fun hnil => by rw [hnil, List.prefix_nil] at hpre; simp [hpre] at hpos
    rw [hpre.getElem hpos, ← List.head_eq_getElem hhead]
    exact Bool.eq_false_iff.mp (List.head_dropWhile_not _ hhead)
  rw [htrim (trim s), hfront]
  exact List.rdropWhile_idempotent _ _

theorem trim_subset (s : Text) : trim s ⊆ s := by
  intro c hc
  rw [trim, List.mem_reverse] at hc
  have hc' := (List.dropWhile_suffix _).subset hc
  exact (List.dropWhile_suffix _).subset (List.mem_reverse.mp hc')

theorem trim_of_visible {s : Text} (h : ∀ c ∈ s, 32 < c.toNat) : trim s = s := by
  have hdrop : ∀ t : Text, (∀ c ∈ t, 32 < c.toNat) → t.dropWhile (fun c => c.toNat ≤ 32) = t := by
    intro t ht
    cases t with
    | nil => rfl
    | cons c t =>
        have hc := ht c List.mem_cons_self
        rw [List.dropWhile_cons_of_neg (by simpa using hc)]
  rw [trim, hdrop s h, hdrop s.reverse (by simpa using h), List.reverse_reverse]

namespace PemReader

theorem before_append {c : Char} {u : Text} (hu : c ∉ u) (rest : Text) :
    before c (u ++ c :: rest) = u := by
  have hall : ∀ x ∈ u, (x != c) = true := by
    intro x hx
    simp only [bne_iff_ne]
    rintro rfl
    exact hu hx
  rw [before, List.takeWhile_append_of_pos hall, List.takeWhile_cons_of_neg (by simp),
    List.append_nil]

theorem behind_append {c : Char} {u : Text} (hu : c ∉ u) (rest : Text) :
    behind c (u ++ c :: rest) = rest := by
  have hall : ∀ x ∈ u, (x != c) = true := by
    intro x hx
    simp only [bne_iff_ne]
    rintro rfl
    exact hu hx
  rw [behind, List.dropWhile_append_of_pos hall, List.dropWhile_cons_of_neg (by simp)]
  rfl

theorem before_subset (c : Char) (line : Text) : before c line ⊆ line :=
  (List.takeWhile_prefix _).subset

theorem not_mem_before (c : Char) (line : Text) : c ∉ before c line := by
  intro hc
  have hne := List.mem_takeWhile_imp hc
  simp at hne

theorem behind_subset (c : Char) (line : Text) : behind c line ⊆ line :=
  fun _ hx => (List.dropWhile_suffix _).subset (List.mem_of_mem_drop hx)

end PemReader

/-! ### What can be read back -/

/-- The header stands on one line and is taken apart where it was put together. -/
structure PemHeader.Readable (hdr : PemHeader) : Prop where
  name_unbroken : Unbroken hdr.name
  colon_not_mem : ':' ∉ hdr.name
  value_unbroken : Unbroken hdr.value
  trim_value : trim hdr.value = hdr.value

structure PemObject.Readable (obj : PemObject) : Prop where
  type_ne_nil : obj.type ≠ []
  type_unbroken : Unbroken obj.type
  dash_not_mem : '-' ∉ obj.type
  colon_not_mem : ':' ∉ obj.type
  headers : ∀ hdr ∈ obj.headers, hdr.Readable
  content_ne_nil : obj.content ≠ []

namespace PemWriter

open Base64Encoder (alphabet encoded)

/-! ### The lines of an object -/

def headerLine (hdr : PemHeader) : Text := hdr.name ++ ": " ++ hdr.value

def contentLines (bytes : List UInt8) : List Text :=
  if bytes = [] then []
  else (bytes.take LINE_LENGTH).map UInt8.toChar :: contentLines (bytes.drop LINE_LENGTH)
termination_by bytes.length
decreasing_by exact length_drop_lt ‹_›

def headerLines (headers : List PemHeader) : List Text :=
  if headers.isEmpty then [] else headers.map headerLine ++ [[]]

def objectLines (obj : PemObject) : List Text :=
  (BEGIN ++ obj.type ++ DASHES) :: (headerLines obj.headers ++
    (contentLines (Radix64.encode alphabet obj.content) ++ [END ++ obj.type ++ DASHES]))

theorem writeLines_eq (sep : LineSeparator) (bytes : List UInt8) :
    writeLines sep.text bytes = unlines sep (contentLines bytes) := by
  induction bytes using contentLines.induct with
  | case1 => rw [writeLines, contentLines, if_pos rfl, if_pos rfl, unlines_nil]
  | case2 bytes hne ih => rw [writeLines, contentLines, if_neg hne, if_neg hne, ih, unlines_cons]

theorem flatten_contentLines (bytes : List UInt8) :
    (contentLines bytes).flatten = bytes.map UInt8.toChar := by
  induction bytes using contentLines.induct with
  | case1 => rw [contentLines, if_pos rfl]; rfl
  | case2 bytes hne ih =>
      rw [contentLines, if_neg hne, List.flatten_cons, ih, ← List.map_append,
        List.take_append_drop]

theorem writeObject_eq (sep : LineSeparator) (obj : PemObject) :
    writeObject sep obj = .ok (unlines sep (objectLines obj)) := by
  have hheaders : (if obj.headers.isEmpty then [] else
      obj.headers.flatMap (writeHeader sep.text) ++ sep.text) =
      unlines sep (headerLines obj.headers) := by
    unfold headerLines
    split
    · rfl
    · rw [unlines_append, unlines_cons, unlines_nil, List.nil_append, List.append_nil, unlines,
        List.flatMap_map]
      rfl
  rw [writeObject, writeEncoded, SpongycastleBase64.encode_eq, hheaders, Commands.ok_bind]
  change Except.ok (writePreEncapsulationBoundary sep.text obj.type ++
    unlines sep (headerLines obj.headers) ++
    writeLines sep.text (Radix64.encode alphabet obj.content) ++
    writePostEncapsulationBoundary sep.text obj.type) = _
  rw [ writeLines_eq, objectLines, unlines_cons, unlines_append, unlines_append]
  simp only [writePreEncapsulationBoundary, writePostEncapsulationBoundary, unlines_cons,
    unlines_nil, List.append_assoc, List.append_nil]

/-- The characters of base 64 and the padding. -/
theorem mem_contentLines {bytes : List UInt8} {line : Text} {c : Char}
    (hline : line ∈ contentLines (Radix64.encode alphabet bytes)) (hc : c ∈ line) :
    c ∈ encoded bytes := by
  rw [encoded, ← flatten_contentLines]
  exact List.mem_flatten.mpr ⟨line, hline, hc⟩

theorem encoded_plain {bytes : List UInt8} {c : Char} (hc : c ∈ encoded bytes) :
    32 < c.toNat ∧ c ≠ ':' ∧ c ≠ '-' := by
  have hdigit : ∀ d : Fin 64, 32 < (Base64Encoder.digitChar d).toNat ∧
      Base64Encoder.digitChar d ≠ ':' ∧ Base64Encoder.digitChar d ≠ '-' := by decide +kernel
  rcases Base64Encoder.mem_encoded hc with ⟨d, rfl⟩ | rfl
  · exact hdigit d
  · decide

theorem unbroken_of_visible {line : Text} (h : ∀ c ∈ line, 32 < c.toNat) : Unbroken line :=
  ⟨fun hn => absurd (h _ hn) (by decide), fun hr => absurd (h _ hr) (by decide)⟩

theorem unbroken_objectLines {obj : PemObject} (h : obj.Readable) :
    ∀ line ∈ objectLines obj, Unbroken line := by
  intro line hline
  have hbegin : Unbroken BEGIN := by decide
  have hend : Unbroken END := by decide
  have hdashes : Unbroken DASHES := by decide
  have hcolon : Unbroken (": " : Text) := by decide
  rcases List.mem_cons.mp hline with rfl | hline
  · exact (hbegin.append h.type_unbroken).append hdashes
  rcases List.mem_append.mp hline with hline | hline
  · unfold headerLines at hline
    split at hline
    · exact absurd hline List.not_mem_nil
    · rcases List.mem_append.mp hline with hline | hline
      · obtain ⟨hdr, hmem, rfl⟩ := List.mem_map.mp hline
        have hhdr := h.headers hdr hmem
        exact (hhdr.name_unbroken.append hcolon).append hhdr.value_unbroken
      · obtain rfl := List.mem_singleton.mp hline
        exact ⟨List.not_mem_nil, List.not_mem_nil⟩
  rcases List.mem_append.mp hline with hline | hline
  · exact unbroken_of_visible fun c hc => (encoded_plain (mem_contentLines hline hc)).1
  · obtain rfl := List.mem_singleton.mp hline
    exact (hend.append h.type_unbroken).append hdashes

/-! ### The size of the output -/

theorem int_of_range {x : Int} (hlo : -2 ^ 31 ≤ x) (hhi : x < 2 ^ 31) : int x = x := by
  rw [int, Int.bmod_eq_emod]
  split <;> omega

theorem int_natCast {n : Nat} (h : n < 2 ^ 31) : int (n : Int) = n :=
  int_of_range (by omega) (by exact_mod_cast h)

theorem length_unlines (sep : LineSeparator) (lines : List Text) :
    (unlines sep lines).length = lines.flatten.length + lines.length * sep.text.length := by
  induction lines with
  | nil => simp
  | cons line lines ih =>
      rw [unlines_cons, List.length_append, List.length_append, ih, List.flatten_cons,
        List.length_append, List.length_cons, Nat.add_mul]
      omega

theorem length_contentLines (bytes : List UInt8) :
    (contentLines bytes).length = (bytes.length + 63) / 64 := by
  induction bytes using contentLines.induct with
  | case1 => rw [contentLines, if_pos rfl]; rfl
  | case2 bytes hne ih =>
      have hpos := List.length_pos_of_ne_nil hne
      rw [contentLines, if_neg hne, List.length_cons, ih, List.length_drop, LINE_LENGTH]
      omega

theorem length_BEGIN : BEGIN.length = 11 := rfl

theorem length_END : END.length = 9 := rfl

theorem length_DASHES : DASHES.length = 5 := rfl

/-- The characters of the header lines with their line ends. -/
def headersSize (nlLength : Nat) (headers : List PemHeader) : Nat :=
  (headers.map fun hdr => hdr.name.length + 2 + hdr.value.length + nlLength).sum

theorem length_headerLines (sep : LineSeparator) (headers : List PemHeader) :
    (unlines sep (headerLines headers)).length =
      if headers.isEmpty then 0 else headersSize sep.text.length headers + sep.text.length := by
  have hlines : ∀ headers : List PemHeader, (unlines sep (headers.map headerLine)).length =
      headersSize sep.text.length headers := by
    intro headers
    induction headers with
    | nil => rfl
    | cons hdr headers ih =>
        rw [List.map_cons, unlines_cons, List.length_append, ih, headersSize, headersSize,
          List.map_cons, List.sum_cons]
        simp only [headerLine, List.length_append]
        rfl
  unfold headerLines
  split
  · rfl
  · rw [unlines_append, List.length_append, hlines, unlines_cons, unlines_nil, List.nil_append,
      List.append_nil]

theorem foldl_headers (nlLength : Nat) (headers : List PemHeader) (size : Nat)
    (h : size + headersSize nlLength headers < 2 ^ 31) :
    headers.foldl (fun (size : Int) hdr =>
      int (size + (hdr.name.length + 2 + hdr.value.length + nlLength))) (size : Int) =
      (size + headersSize nlLength headers : Nat) := by
  induction headers generalizing size with
  | nil => rfl
  | cons hdr headers ih =>
      rw [headersSize, List.map_cons, List.sum_cons, ← headersSize] at h
      have hstep : int ((size : Int) + (hdr.name.length + 2 + hdr.value.length + nlLength)) =
          ((size + (hdr.name.length + 2 + hdr.value.length + nlLength) : Nat) : Int) := by
        rw [int_of_range (by omega) (by omega)]
        push_cast
        ring
      rw [List.foldl_cons, hstep, ih _ (by omega), headersSize, headersSize, List.map_cons,
        List.sum_cons]
      push_cast
      ring

theorem int_dataLen {n dataLen : Nat} (h : (n + 2) / 3 * 4 = dataLen)
    (hlt : dataLen + 2 < 2147483648) : int (Int.tdiv (int ((n : Int) + 2)) 3 * 4) = dataLen := by
  have hn : int ((n : Int) + 2) = (n : Int) + 2 := int_of_range (by omega) (by omega)
  have hdiv : Int.tdiv ((n : Int) + 2) 3 * 4 = dataLen := by
    rw [Int.tdiv_eq_ediv_of_nonneg (by omega)]
    omega
  rw [hn, hdiv, int_of_range (by omega) (by omega)]

theorem int_rows {dataLen rows : Nat} (h : (dataLen + 63) / 64 = rows)
    (hlt : dataLen + 63 < 2147483648) :
    Int.tdiv (int ((dataLen : Int) + LINE_LENGTH - 1)) LINE_LENGTH = rows := by
  have hlength : (LINE_LENGTH : Int) = 64 := rfl
  rw [hlength, int_of_range (by omega) (by omega), Int.tdiv_eq_ediv_of_nonneg (by omega)]
  omega

/-- `getOutputSize` is no estimate: it is the number of characters that `writeObject` writes,
    as long as that is an `int`. -/
theorem getOutputSize_eq (sep : LineSeparator) (obj : PemObject) {text : Text}
    (h : writeObject sep obj = .ok text) (hint : text.length < 2 ^ 31) :
    getOutputSize sep obj = text.length := by
  have hlen : text.length = obj.type.length + 16 + sep.text.length +
      ((if obj.headers.isEmpty then 0 else
        headersSize sep.text.length obj.headers + sep.text.length) +
      ((obj.content.length + 2) / 3 * 4 +
        ((obj.content.length + 2) / 3 * 4 + 63) / 64 * sep.text.length +
        (obj.type.length + 14 + sep.text.length))) := by
    rw [writeObject_eq] at h
    rw [← Except.ok.inj h, objectLines, unlines_cons, unlines_append, unlines_append, unlines_cons,
      unlines_nil]
    simp only [List.length_append, length_headerLines, length_unlines sep (contentLines _),
      flatten_contentLines, length_contentLines, List.length_map, Radix64.length_encode,
      length_BEGIN, length_END, length_DASHES, List.length_nil]
    ring
  have hnl : 1 ≤ sep.text.length := by cases sep <;> decide
  generalize hdata : (obj.content.length + 2) / 3 * 4 = dataLen at hlen
  generalize hrows : (dataLen + 63) / 64 = rows at hlen
  have hrow : rows ≤ rows * sep.text.length := Nat.le_mul_of_pos_right _ hnl
  have hbounds : int (2 * ((obj.type.length : Int) + 10 + sep.text.length) + 6 + 4) =
      ((2 * (obj.type.length + 10 + sep.text.length) + 10 : Nat) : Int) := by
    rw [int_of_range (by omega) (by omega)]
    push_cast
    ring
  have hdataLen := int_dataLen hdata (by omega)
  have hrowsInt := int_rows hrows (by omega)
  rw [getOutputSize, hbounds, hdataLen, hrowsInt]
  split at hlen
  · next hempty =>
      have hsize : 2 * (obj.type.length + 10 + sep.text.length) + 10 +
          (dataLen + rows * sep.text.length) = text.length := by omega
      rw [if_pos hempty, ← hsize]
      exact_mod_cast int_natCast (hsize ▸ hint)
  · next hempty =>
      generalize hheaders : headersSize sep.text.length obj.headers = headers at hlen
      have hsize : 2 * (obj.type.length + 10 + sep.text.length) + 10 + headers +
          sep.text.length + (dataLen + rows * sep.text.length) = text.length := by omega
      have hblank : 2 * (obj.type.length + 10 + sep.text.length) + 10 + headers +
          sep.text.length < 2 ^ 31 := by omega
      have hfold := foldl_headers sep.text.length obj.headers
        (2 * (obj.type.length + 10 + sep.text.length) + 10) (by omega)
      rw [if_neg hempty, hfold, hheaders, ← hsize, ← Nat.cast_add, int_natCast hblank]
      exact_mod_cast int_natCast (hsize ▸ hint)

theorem getOutputSize_certificate :
    ((11 + 11 + 5 + 2) + (4 + 2) + (9 + 11 + 5 + 2) : Int) =
      getOutputSize .crlf ⟨"CERTIFICATE", [], [1, 2, 3]⟩ := by
  have h := getOutputSize_eq .crlf ⟨"CERTIFICATE", [], [1, 2, 3]⟩ (writeObject_eq _ _) (by
    rw [length_unlines]
    decide +kernel)
  rw [h, length_unlines]
  decide +kernel

end PemWriter

namespace PemReader

open PemWriter
open Base64Encoder (alphabet encoded)

/-! ### Reading an object -/

theorem loadLoop_headers {headers : List PemHeader} (h : ∀ hdr ∈ headers, hdr.Readable)
    (endMarker buf : Text) (read : List PemHeader) (lines : List Text) :
    loadLoop endMarker buf read (headers.map headerLine ++ lines) =
      loadLoop endMarker buf (read ++ headers) lines := by
  induction headers generalizing read with
  | nil => rw [List.append_nil]; rfl
  | cons hdr headers ih =>
      have hhdr := h hdr List.mem_cons_self
      have hline : headerLine hdr = hdr.name ++ ':' :: (' ' :: hdr.value) := by
        rw [headerLine, List.append_assoc]
        rfl
      have hcolon : ':' ∈ headerLine hdr := by
        rw [hline]
        exact List.mem_append_right _ List.mem_cons_self
      have hvalue : trim (' ' :: hdr.value) = hdr.value := hhdr.trim_value
      rw [List.map_cons, List.cons_append, loadLoop, if_pos hcolon, hline,
        before_append hhdr.colon_not_mem, behind_append hhdr.colon_not_mem, hvalue,
        ih fun hdr' hmem => h hdr' (List.mem_cons_of_mem hdr hmem), List.append_assoc]
      rfl

/-- Lines without a colon and without a dash belong to the content. -/
theorem loadLoop_content {content : List Text} (h : ∀ line ∈ content, ∀ c ∈ line,
      32 < c.toNat ∧ c ≠ ':' ∧ c ≠ '-') {endMarker : Text} (hdash : '-' ∈ endMarker) (buf : Text)
    (headers : List PemHeader) (lines : List Text) :
    loadLoop endMarker buf headers (content ++ lines) =
      loadLoop endMarker (buf ++ content.flatten) headers lines := by
  induction content generalizing buf with
  | nil => rw [List.flatten_nil, List.append_nil]; rfl
  | cons line content ih =>
      have hline := h line List.mem_cons_self
      have hcolon : ':' ∉ line := fun hc => (hline _ hc).2.1 rfl
      have hmarker : ¬ containsText endMarker line = true :=
        fun hc => (hline _ (subset_of_containsText hc hdash)).2.2 rfl
      rw [List.cons_append, loadLoop, if_neg hcolon, if_neg hmarker,
        trim_of_visible fun c hc => (hline c hc).1,
        ih fun l hl => h l (List.mem_cons_of_mem line hl), List.flatten_cons, List.append_assoc]

theorem loadLoop_objectLines {obj : PemObject} (h : obj.Readable) (lines : List Text) :
    loadLoop (END ++ obj.type) [] [] (headerLines obj.headers ++
      (contentLines (Radix64.encode alphabet obj.content) ++ (END ++ obj.type ++ DASHES) :: lines)) =
      some (encoded obj.content, obj.headers, lines) := by
  have hdash : '-' ∈ END ++ obj.type := List.mem_append_left _ (by decide)
  have hheaders : ∀ rest, loadLoop (END ++ obj.type) [] [] (headerLines obj.headers ++ rest) =
      loadLoop (END ++ obj.type) [] obj.headers rest := by
    intro rest
    unfold headerLines
    split
    · next hempty =>
        rw [List.isEmpty_iff.mp hempty]
        rfl
    · -- the blank line behind the headers
      rw [List.append_assoc, loadLoop_headers h.headers]
      exact @loadLoop_content [[]] (by simp) _ hdash [] obj.headers rest
  have hcontent : ∀ line ∈ contentLines (Radix64.encode alphabet obj.content), ∀ c ∈ line,
      32 < c.toNat ∧ c ≠ ':' ∧ c ≠ '-' :=
    fun line hline c hc => encoded_plain (mem_contentLines hline hc)
  have hcolon : ':' ∉ END ++ obj.type ++ DASHES := by
    rw [List.mem_append, List.mem_append]
    rintro ((hc | hc) | hc)
    · exact absurd hc (by decide)
    · exact h.colon_not_mem hc
    · exact absurd hc (by decide)
  rw [hheaders, loadLoop_content hcontent hdash, loadLoop, if_neg hcolon,
    if_pos (containsText_append _ _), flatten_contentLines]
  rfl

/-- Lines in front of the boundary are skipped, and what stands behind the object is left. -/
theorem readPemObject_objectLines {obj : PemObject} (h : obj.Readable) {noise : List Text}
    (hnoise : ∀ line ∈ noise, ¬ BEGIN <+: line) (lines : List Text) :
    readPemObject (noise ++ (objectLines obj ++ lines)) = .ok (some obj, lines) := by
  induction noise with
  | cons line noise ih =>
      have hline : ¬ BEGIN.isPrefixOf line = true :=
        fun hp => hnoise line List.mem_cons_self (List.isPrefixOf_iff_prefix.mp hp)
      rw [List.cons_append, readPemObject, if_neg hline]
      exact ih fun l hl => hnoise l (List.mem_cons_of_mem line hl)
  | nil =>
      have hbegin : BEGIN.isPrefixOf (BEGIN ++ obj.type ++ DASHES) = true := by
        rw [List.append_assoc]
        exact List.isPrefixOf_iff_prefix.mpr (List.prefix_append _ _)
      have hdrop : (BEGIN ++ obj.type ++ DASHES).drop BEGIN.length =
          obj.type ++ '-' :: ("----" : Text) := by
        rw [List.append_assoc, List.drop_left]
        rfl
      have hdash : '-' ∈ obj.type ++ '-' :: ("----" : Text) :=
        List.mem_append_right _ List.mem_cons_self
      rw [List.nil_append, objectLines, List.cons_append, readPemObject, if_pos hbegin]
      dsimp only
      rw [hdrop, if_pos hdash, before_append h.dash_not_mem, if_pos h.type_ne_nil, loadObject,
        List.append_assoc, List.append_assoc, List.singleton_append, loadLoop_objectLines h]
      dsimp only
      rw [SpongycastleBase64.decode_encoded h.content_ne_nil]
      rfl

/-! ### What is accepted -/

theorem readable_of_loadLoop {endMarker buf buf' : Text} {headers headers' : List PemHeader}
    {lines rest : List Text} (hlines : ∀ line ∈ lines, Unbroken line)
    (hheaders : ∀ hdr ∈ headers, hdr.Readable)
    (h : loadLoop endMarker buf headers lines = some (buf', headers', rest)) :
    ':' ∉ endMarker ∧ (∀ hdr ∈ headers', hdr.Readable) ∧ rest ⊆ lines := by
  induction lines generalizing buf headers with
  | nil => cases h
  | cons line lines ih =>
      have hline := hlines line List.mem_cons_self
      have htail : ∀ l ∈ lines, Unbroken l := fun l hl => hlines l (List.mem_cons_of_mem line hl)
      rw [loadLoop] at h
      split at h
      · have hhdr : PemHeader.Readable ⟨before ':' line, trim (behind ':' line)⟩ :=
          { name_unbroken := hline.of_subset (before_subset _ _)
            colon_not_mem := not_mem_before _ _
            value_unbroken :=
              hline.of_subset (List.Subset.trans (trim_subset _) (behind_subset _ _))
            trim_value := trim_trim _ }
        obtain ⟨hcolon, hread, hrest⟩ := ih htail (by
          intro hdr hmem
          rcases List.mem_append.mp hmem with hmem | hmem
          · exact hheaders hdr hmem
          · rw [List.mem_singleton.mp hmem]
            exact hhdr) h
        exact ⟨hcolon, hread, List.Subset.trans hrest (List.subset_cons_self _ _)⟩
      · next hcolon =>
          split at h
          · next hmarker =>
              cases h
              exact ⟨fun hc => hcolon (subset_of_containsText hmarker hc), hheaders,
                List.subset_cons_self _ _⟩
          · obtain ⟨hcolon', hread, hrest⟩ := ih htail hheaders h
            exact ⟨hcolon', hread, List.Subset.trans hrest (List.subset_cons_self _ _)⟩

/-- Whatever is accepted can be written and read again. -/
theorem readable_of_read {lines rest : List Text} {obj : PemObject}
    (hlines : ∀ line ∈ lines, Unbroken line)
    (h : readPemObject lines = .ok (some obj, rest)) : obj.Readable ∧ rest ⊆ lines := by
  induction lines with
  | nil => cases h
  | cons line lines ih =>
      have htail : ∀ l ∈ lines, Unbroken l := fun l hl => hlines l (List.mem_cons_of_mem line hl)
      rw [readPemObject] at h
      split at h
      · dsimp only at h
        split at h
        · split at h
          · next hne =>
              obtain ⟨⟨obj', lines'⟩, hload, h⟩ := Commands.ok_of_bind h
              cases h
              rw [loadObject] at hload
              split at hload
              · cases hload
              · next buf headers lines' hloop =>
                  obtain ⟨content, hdecode, hload⟩ := Commands.ok_of_bind hload
                  cases hload
                  obtain ⟨hcolon, hheaders, hrest⟩ :=
                    readable_of_loadLoop htail (by simp) hloop
                  have hsub : before '-' (line.drop BEGIN.length) ⊆ line :=
                    List.Subset.trans (before_subset _ _) (List.drop_subset _ _)
                  refine ⟨?_, List.Subset.trans hrest (List.subset_cons_self _ _)⟩
                  exact
                    { type_ne_nil := hne
                      type_unbroken := (hlines line List.mem_cons_self).of_subset hsub
                      dash_not_mem := not_mem_before _ _
                      colon_not_mem := fun hc => hcolon (List.mem_append_right _ hc)
                      headers := hheaders
                      content_ne_nil := Base64Encoder.decode_ne_nil hdecode }
          · cases h
        · cases h
      · obtain ⟨hread, hrest⟩ := ih htail h
        exact ⟨hread, List.Subset.trans hrest (List.subset_cons_self _ _)⟩

/-! ### Files -/

/-- `readPemObject` called `n` times on one reader. -/
def readPemObjects : Nat → List Text → Java (List (Option PemObject))
  | 0, _ => return []
  | n + 1, lines => do
      let (obj, lines) ← readPemObject lines
      return obj :: (← readPemObjects n lines)

/-- Objects written one after another, each behind some lines of text. -/
def writeFile (sep : LineSeparator) (items : List (List Text × PemObject)) : Java Text :=
  List.flatten <$> items.mapM fun item =>
    (unlines sep item.1 ++ ·) <$> writeObject sep item.2

/-- The lines of such a file. -/
def fileLines (items : List (List Text × PemObject)) : List Text :=
  items.flatMap fun item => item.1 ++ objectLines item.2

theorem writeFile_eq (sep : LineSeparator) (items : List (List Text × PemObject)) :
    writeFile sep items = .ok (unlines sep (fileLines items)) := by
  induction items with
  | nil => rfl
  | cons item items ih =>
      have hmapM : items.mapM (fun item => (unlines sep item.1 ++ ·) <$> writeObject sep item.2) =
          (.ok (items.map fun item => unlines sep item.1 ++ unlines sep (objectLines item.2)) :
            Java (List Text)) := by
        clear ih
        induction items with
        | nil => rfl
        | cons item items ih =>
            rw [List.mapM_cons, writeObject_eq, ih]
            rfl
      rw [writeFile, hmapM] at ih
      rw [writeFile, List.mapM_cons, writeObject_eq, hmapM]
      change Except.ok (unlines sep item.1 ++ unlines sep (objectLines item.2) ++ _) = _
      rw [fileLines, List.flatMap_cons, unlines_append, unlines_append]
      congr 2
      exact Except.ok.inj ih

theorem readPemObject_of_readable (sep : LineSeparator) {obj : PemObject} (h : obj.Readable) :
    ∃ rest, (writeObject sep obj >>= fun text => readPemObject (readLines text)) =
      .ok (some obj, rest) := by
  refine ⟨[], ?_⟩
  have hread := @readPemObject_objectLines _ h [] (by simp) []
  rw [List.nil_append, List.append_nil] at hread
  rw [writeObject_eq, Commands.ok_bind, readLines_unlines sep (unbroken_objectLines h), hread]

/-- The text that one object makes is read back as that object exactly if the object is
    readable. -/
theorem readPemObject_write_iff (sep : LineSeparator) (obj : PemObject) :
    (∃ rest, (writeObject sep obj >>= fun text => readPemObject (readLines text)) =
      .ok (some obj, rest)) ↔ obj.Readable := by
  constructor
  · rintro ⟨rest, h⟩
    rw [writeObject_eq, Commands.ok_bind] at h
    exact (readable_of_read (fun _ => unbroken_of_readLines) h).1
  · exact readPemObject_of_readable sep

/-- The objects of a file are read one after another, in the order in which they were written,
    and the next call finds none. -/
theorem readPemObjects_write (sep : LineSeparator) {items : List (List Text × PemObject)}
    (hitems : ∀ item ∈ items, item.2.Readable ∧ ∀ line ∈ item.1, Unbroken line ∧ ¬ BEGIN <+: line) :
    (writeFile sep items >>= fun text => readPemObjects (items.length + 1) (readLines text)) =
      .ok (items.map (fun item => some item.2) ++ [none]) := by
  have hlines : ∀ line ∈ fileLines items, Unbroken line := by
    intro line hline
    obtain ⟨item, hmem, hline⟩ := List.mem_flatMap.mp hline
    rcases List.mem_append.mp hline with hline | hline
    · exact ((hitems item hmem).2 line hline).1
    · exact unbroken_objectLines (hitems item hmem).1 line hline
  rw [writeFile_eq, Commands.ok_bind, readLines_unlines sep hlines]
  clear hlines
  induction items with
  | nil => rfl
  | cons item items ih =>
      have hitem := hitems item List.mem_cons_self
      have hread := readPemObject_objectLines hitem.1 (fun line hline => (hitem.2 line hline).2)
        (fileLines items)
      have hrest := ih fun item' hmem => hitems item' (List.mem_cons_of_mem item hmem)
      rw [fileLines, List.flatMap_cons, ← fileLines, List.append_assoc, List.length_cons,
        readPemObjects, hread, Commands.ok_bind]
      dsimp only
      rw [hrest]
      rfl

/-- Certificates behind the text that tools put in front of them. -/
theorem readPemObjects_write_chain :
    let first : PemObject := ⟨"CERTIFICATE", [], [0x30, 0x03]⟩
    let second : PemObject := ⟨"RSA PRIVATE KEY", [⟨"Proc-Type", "4,ENCRYPTED"⟩], [0x30]⟩
    (writeFile .lf [(["subject=CN = a"], first), ([], second)] >>= fun text =>
      readPemObjects 3 (readLines text)) = .ok [some first, some second, none] := by
  intro first second
  have hfirst : first.Readable :=
    { type_ne_nil := by decide
      type_unbroken := by decide
      dash_not_mem := by decide
      colon_not_mem := by decide
      headers := by simp [first]
      content_ne_nil := by decide }
  have hheader : PemHeader.Readable ⟨"Proc-Type", "4,ENCRYPTED"⟩ :=
    { name_unbroken := by decide
      colon_not_mem := by decide
      value_unbroken := by decide
      trim_value := by decide }
  have hsecond : second.Readable :=
    { type_ne_nil := by decide
      type_unbroken := by decide
      dash_not_mem := by decide
      colon_not_mem := by decide
      headers := by simpa [second] using hheader
      content_ne_nil := by decide }
  refine @readPemObjects_write .lf [(["subject=CN = a"], first), ([], second)] ?_
  intro item hitem
  rcases List.mem_cons.mp hitem with rfl | hitem
  · refine ⟨hfirst, fun line hline => ?_⟩
    obtain rfl := List.mem_singleton.mp hline
    exact ⟨by decide, by decide⟩
  · obtain rfl := List.mem_singleton.mp hitem
    exact ⟨hsecond, by simp⟩

/-- Any text that has an object in it: the object can be written, in any style of line ends, and
    is the same when it is read again. -/
theorem readPemObject_write_read (sep : LineSeparator) {text : Text} {obj : PemObject}
    {rest : List Text} (h : readPemObject (readLines text) = .ok (some obj, rest)) :
    ∃ rest', (writeObject sep obj >>= fun text => readPemObject (readLines text)) =
      .ok (some obj, rest') :=
  readPemObject_of_readable sep (readable_of_read (fun _ => unbroken_of_readLines) h).1

theorem readPemObject_write_read_spread :
    let obj : PemObject := ⟨"KEY", [⟨"Key", "a:b"⟩], [0x41, 0x42, 0x43, 0x44]⟩
    ∃ rest', (writeObject .crlf obj >>= fun text => readPemObject (readLines text)) =
      .ok (some obj, rest') := by
  intro obj
  refine @readPemObject_write_read .crlf
    "x\n-----BEGIN KEY-----\rKey:  a:b \n QUJ DRA==\t\n-----END KEY-----" obj [] ?_
  rfl

end PemReader

end OpenVpnAndroid
