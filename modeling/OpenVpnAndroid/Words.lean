/-
  OpenVpnAndroid/Words.lean
  =========================
  **The words of a text**: what lies between separators and is not empty.

  With fewer separators the words get longer; each of them is cut into the words with
  more separators (`words_eq_flatMap`).
-/
import OpenVpnAndroid.JavaText

namespace OpenVpnAndroid

def words (separator : Char → Bool) (s : Text) : List Text :=
  (pieces separator s).filter fun w => !w.isEmpty

section Words

variable {separator : Char → Bool}

/-- A text is without separators, or one without separators is before the first. -/
theorem separator_induction {P : Text → Prop} (separator : Char → Bool)
    (hlast : ∀ u, (∀ x ∈ u, separator x = false) → P u)
    (hcut : ∀ u c rest, (∀ x ∈ u, separator x = false) → separator c = true → P rest →
      P (u ++ c :: rest)) (s : Text) : P s := by
  have hfrom : ∀ s u, (∀ x ∈ u, separator x = false) → P (u ++ s) := by
    intro s
    induction s with
    | nil =>
        intro u hu
        rw [List.append_nil]
        exact hlast u hu
    | cons c s ih =>
        intro u hu
        cases hc : separator c with
        | true => exact hcut u c s hu hc (ih [] (fun _ h => nomatch h))
        | false =>
            have hstep := ih (u ++ [c]) fun x hx => by
              rcases List.mem_append.mp hx with hx | hx
              · exact hu x hx
              · rwa [List.mem_singleton.mp hx]
            rwa [List.append_assoc] at hstep
  exact hfrom s [] (fun _ h => nomatch h)

theorem pieces_append_cons (s : Text) {c : Char} (hc : separator c = true) (rest : Text) :
    pieces separator (s ++ c :: rest) = pieces separator s ++ pieces separator rest := by
  induction s using separator_induction separator with
  | hlast u hu => rw [pieces_append rest hu hc, pieces_of_none hu]; rfl
  | hcut u c' s hu hc' ih =>
      rw [List.append_assoc, List.cons_append, pieces_append _ hu hc', pieces_append _ hu hc', ih]
      rfl

/-- A separator more, and a last piece that is not empty. -/
theorem split_append_cons (s : Text) {c : Char} (hc : separator c = true) {last : Text}
    (hlast : ∀ x ∈ last, separator x = false) (hne : last ≠ []) :
    split separator (s ++ c :: last) = pieces separator s ++ [last] := by
  have hany : (s ++ c :: last).any separator = true := by simp [hc]
  rw [split, hany, if_pos rfl, pieces_append_cons s hc, pieces_of_none hlast,
    List.reverse_append, List.reverse_singleton, List.singleton_append,
    List.dropWhile_cons_of_neg (by simpa using hne)]
  simp

theorem words_append_cons (s : Text) {c : Char} (hc : separator c = true) (rest : Text) :
    words separator (s ++ c :: rest) = words separator s ++ words separator rest := by
  rw [words, pieces_append_cons s hc rest, List.filter_append]
  rfl

@[simp] theorem words_nil : words separator [] = [] := rfl

theorem words_of_none {s : Text} (hs : ∀ x ∈ s, separator x = false) (hne : s ≠ []) :
    words separator s = [s] := by
  rw [words, pieces_of_none hs]
  simp [hne]

theorem of_mem_words {s w : Text} (hw : w ∈ words separator s) :
    w ≠ [] ∧ ∀ x ∈ w, separator x = false := by
  have hne : w ≠ [] := by simpa using (List.mem_filter.mp hw).2
  refine ⟨hne, ?_⟩
  induction s using separator_induction separator with
  | hlast u hu =>
      rw [words, pieces_of_none hu] at hw
      rwa [List.mem_singleton.mp (List.mem_of_mem_filter hw)]
  | hcut u c rest hu hc ih =>
      rw [words_append_cons u hc] at hw
      rcases List.mem_append.mp hw with hw | hw
      · rw [words, pieces_of_none hu] at hw
        rwa [List.mem_singleton.mp (List.mem_of_mem_filter hw)]
      · exact ih hw

/-- Every other character is in a word. -/
theorem exists_word {s : Text} {x : Char} (hx : x ∈ s) (hsep : separator x = false) :
    ∃ w ∈ words separator s, x ∈ w := by
  induction s using separator_induction separator with
  | hlast u hu => exact ⟨u, by simp [words_of_none hu (List.ne_nil_of_mem hx)], hx⟩
  | hcut u c rest hu hc ih =>
      rw [words_append_cons u hc]
      rcases List.mem_append.mp hx with hx | hx
      · refine ⟨u, ?_, hx⟩
        rw [words_of_none hu (List.ne_nil_of_mem hx)]
        exact List.mem_append_left _ List.mem_cons_self
      · rcases List.mem_cons.mp hx with rfl | hx
        · rw [hc] at hsep
          cases hsep
        · obtain ⟨w, hw, hxw⟩ := ih hx
          exact ⟨w, List.mem_append_right _ hw, hxw⟩

/-- The words with fewer separators, each cut at the other ones. -/
theorem words_eq_flatMap {fewer : Char → Bool} (hfewer : ∀ c, fewer c = true → separator c = true)
    (s : Text) : words separator s = (words fewer s).flatMap (words separator) := by
  have hword : ∀ u : Text, (∀ x ∈ u, fewer x = false) →
      words separator u = (words fewer u).flatMap (words separator) := by
    intro u hu
    by_cases hne : u = []
    · rw [hne]
      rfl
    · rw [words_of_none hu hne, List.flatMap_singleton]
  induction s using separator_induction fewer with
  | hlast u hu => exact hword u hu
  | hcut u c rest hu hc ih =>
      rw [words_append_cons u (hfewer c hc), words_append_cons u hc, List.flatMap_append, ← ih,
        ← hword u hu]

/-- Separators that are not in the text do not count. -/
theorem words_congr {other : Char → Bool} {s : Text} (h : ∀ c ∈ s, separator c = other c) :
    words separator s = words other s := by
  have hpieces : pieces separator s = pieces other s := by
    induction s with
    | nil => rfl
    | cons c s ih =>
        rw [pieces, pieces, h c List.mem_cons_self,
          ih fun x hx => h x (List.mem_cons_of_mem c hx)]
  rw [words, hpieces]
  rfl

theorem subset_of_mem_words {s w : Text} (hw : w ∈ words separator s) : w ⊆ s := by
  induction s using separator_induction separator with
  | hlast u hu =>
      rw [words, pieces_of_none hu] at hw
      rw [List.mem_singleton.mp (List.mem_of_mem_filter hw)]
      exact List.Subset.refl u
  | hcut u c rest hu hc ih =>
      rw [words_append_cons u hc] at hw
      rcases List.mem_append.mp hw with hw | hw
      · rw [words, pieces_of_none hu] at hw
        rw [List.mem_singleton.mp (List.mem_of_mem_filter hw)]
        exact List.subset_append_left u _
      · intro x hx
        exact List.mem_append_right u (List.mem_cons_of_mem c (ih hw hx))

theorem filter_not_dropWhile {α : Type*} (p : α → Bool) (l : List α) :
    ((l.dropWhile p).filter fun a => !p a) = l.filter fun a => !p a := by
  induction l with
  | nil => rfl
  | cons a l ih =>
      cases ha : p a with
      | true => rw [List.dropWhile_cons_of_pos ha, ih, List.filter_cons_of_neg (by simp [ha])]
      | false => rw [List.dropWhile_cons_of_neg (by simp [ha])]

/-- `split` leaves out no word. -/
theorem filter_split (separator : Char → Bool) (s : Text) :
    ((split separator s).filter fun w => !w.isEmpty) = words separator s := by
  rw [split]
  split
  · rw [List.filter_reverse, filter_not_dropWhile, List.filter_reverse, List.reverse_reverse]
    rfl
  · rename_i hnone
    have hs : ∀ x ∈ s, separator x = false := by simpa using hnone
    rw [words, pieces_of_none hs]

end Words

end OpenVpnAndroid
