/-
  OpenVpnAndroid/TextDecoding.lean
  ================================
  **Reading back texts that were put together.**

  A part ends at the first, or at the last, occurrence of a character that it does
  not contain; numbers and joined lists are determined by their text.  Two numbers
  without a separator are not: `Apart` says that no digit could move over.
-/
import OpenVpnAndroid.JavaText

namespace OpenVpnAndroid

/-! ### Separators -/

section Separators

variable {α : Type*} {c : α} {u u' v v' : List α}

theorem split_at_first (hu : c ∉ u) (hu' : c ∉ u') (h : u ++ c :: v = u' ++ c :: v') :
    u = u' ∧ v = v' := by
  induction u generalizing u' with
  | nil =>
      cases u' with
      | nil => exact ⟨rfl, (List.cons.inj h).2⟩
      | cons a u' =>
          rw [(List.cons.inj h).1] at hu'
          exact absurd List.mem_cons_self hu'
  | cons a u ih =>
      cases u' with
      | nil =>
          rw [← (List.cons.inj h).1] at hu
          exact absurd List.mem_cons_self hu
      | cons a' u' =>
          obtain ⟨rfl, htail⟩ := List.cons.inj h
          obtain ⟨rfl, rfl⟩ := ih (fun hc => hu (List.mem_cons_of_mem _ hc))
            (fun hc => hu' (List.mem_cons_of_mem _ hc)) htail
          exact ⟨rfl, rfl⟩

theorem split_at_last (hv : c ∉ v) (hv' : c ∉ v') (h : u ++ c :: v = u' ++ c :: v') :
    u = u' ∧ v = v' := by
  have hreverse : v.reverse ++ c :: u.reverse = v'.reverse ++ c :: u'.reverse := by
    have := congrArg List.reverse h
    simpa using this
  obtain ⟨hvs, hus⟩ := split_at_first (by simpa using hv) (by simpa using hv') hreverse
  exact ⟨List.reverse_injective hus, List.reverse_injective hvs⟩

/-- A character that is in none of the characters of a text is not in the text. -/
theorem notMem_of_subset (hu : u ⊆ v) (hc : c ∉ v) : c ∉ u := fun h => hc (hu h)

/-- Two parts that a property tells apart. -/
theorem append_inj_of_forall {P : α → Prop} {a b a' b' : List α} (h : a ++ b = a' ++ b')
    (ha : ∀ x ∈ a, P x) (hb : ∀ x ∈ b, ¬P x) (ha' : ∀ x ∈ a', P x) (hb' : ∀ x ∈ b', ¬P x) :
    a = a' ∧ b = b' := by
  classical
  have hfirst : ∀ {a b : List α}, (∀ x ∈ a, P x) → (∀ x ∈ b, ¬P x) →
      (a ++ b).filter (fun x => decide (P x)) = a := by
    intro a b ha hb
    rw [List.filter_append, List.filter_eq_self.mpr fun x hx => decide_eq_true (ha x hx),
      List.filter_eq_nil_iff.mpr fun x hx => by simpa using hb x hx, List.append_nil]
  obtain rfl : a = a' := by
    rw [← hfirst ha hb, h, hfirst ha' hb']
  exact ⟨rfl, List.append_cancel_left h⟩

end Separators

/-! ### Lines -/

theorem readLines_cons {c : Char} (hn : c ≠ '\n') (hr : c ≠ '\r') (s : Text) :
    readLines (c :: s) =
      match readLines s with
      | [] => [[c]]
      | l :: ls => (c :: l) :: ls :=
  readLines.eq_5 c s hn (fun _ h _ => hr h) hr

/-- Without carriage returns the lines are the pieces between line feeds. -/
theorem readLines_append {content : Text} (hr : '\r' ∉ content) (rest : Text) :
    readLines (content ++ '\n' :: rest) = pieces (· == '\n') content ++ readLines rest := by
  induction content with
  | nil => simp [readLines, pieces]
  | cons c content ih =>
    simp only [List.mem_cons, not_or] at hr
    have hlines := ih hr.2
    by_cases hn : c = '\n'
    · simp [hn, readLines, pieces, hlines]
    · rw [List.cons_append, readLines_cons hn (Ne.symm hr.1), hlines, pieces_eq]
      simp [pieces, hn, pieces_eq (· == '\n') content]

/-- A text without line ends is a line. -/
theorem readLines_line {s : Text} (hn : '\n' ∉ s) (hr : '\r' ∉ s) (rest : Text) :
    readLines (s ++ '\n' :: rest) = s :: readLines rest := by
  have hnone : ∀ x ∈ s, (x == '\n') = false := by
    intro x hx
    rw [beq_eq_false_iff_ne]
    rintro rfl
    exact hn hx
  rw [readLines_append hr, pieces_of_none hnone, List.singleton_append]

/-! ### Numbers -/

theorem digitChar_injective {n m : Nat} (hn : n < 16) (hm : m < 16)
    (h : Nat.digitChar n = Nat.digitChar m) : n = m := by
  have hall : ∀ n < 16, ∀ m < 16, Nat.digitChar n = Nat.digitChar m → n = m := by decide
  exact hall n hn m hm h

/-- The digits of a number are those below the base. -/
theorem toDigits_subset {b : Nat} {digits : Text} (hb : 1 < b)
    (hdigits : ∀ d < b, Nat.digitChar d ∈ digits) (n : Nat) : Nat.toDigits b n ⊆ digits := by
  induction n using Nat.strongRecOn with
  | ind n ih =>
      rw [Nat.toDigits_eq_if hb]
      split
      · rename_i hlt
        exact List.cons_subset.mpr ⟨hdigits n hlt, List.nil_subset _⟩
      · rename_i hle
        have hdiv : n / b < n := Nat.div_lt_self (by omega) hb
        have hmod : n % b < b := Nat.mod_lt n (by omega)
        apply List.append_subset.mpr
        exact ⟨ih (n / b) hdiv, List.cons_subset.mpr ⟨hdigits _ hmod, List.nil_subset _⟩⟩

/-- A number is determined by its digits: the last one is the remainder. -/
theorem toDigits_injective {b : Nat} (hb : 1 < b) (hb' : b ≤ 16) {n m : Nat}
    (h : Nat.toDigits b n = Nat.toDigits b m) : n = m := by
  induction n using Nat.strongRecOn generalizing m with
  | ind n ih =>
      rw [Nat.toDigits_eq_if (n := n) hb, Nat.toDigits_eq_if (n := m) hb] at h
      split at h <;> split at h
      · exact digitChar_injective (by omega) (by omega) (List.cons.inj h).1
      · have hnil := (List.append_eq_singleton_iff.mp h.symm)
        simp at hnil
      · have hnil := (List.append_eq_singleton_iff.mp h)
        simp at hnil
      · rename_i hn hm
        obtain ⟨hquotient, hlast⟩ := List.append_inj' h rfl
        have hq : n / b = m / b := ih (n / b) (Nat.div_lt_self (by omega) hb) hquotient
        have hr : n % b = m % b := by
          have hnb := Nat.mod_lt n (show 0 < b by omega)
          have hmb := Nat.mod_lt m (show 0 < b by omega)
          exact digitChar_injective (by omega) (by omega) (List.cons.inj hlast).1
        rw [← Nat.div_add_mod n b, ← Nat.div_add_mod m b, hq, hr]

theorem decimal_natCast (n : Nat) : decimal n = Nat.toDigits 10 n := by
  rw [decimal, if_neg (by omega)]
  rfl

theorem decimal_of_nonneg {n : Int} (h : 0 ≤ n) : decimal n = Nat.toDigits 10 n.toNat := by
  obtain ⟨n, rfl⟩ := Int.eq_ofNat_of_zero_le h
  rw [decimal_natCast, Int.toNat_natCast]

theorem decimal_subset (n : Int) : decimal n ⊆ ("-0123456789" : Text) := by
  have hdigits : Nat.toDigits 10 n.natAbs ⊆ ("-0123456789" : Text) :=
    toDigits_subset (by decide) (by decide) _
  rw [decimal]
  split
  · exact List.cons_subset.mpr ⟨by decide, hdigits⟩
  · exact hdigits

theorem decimal_ne_nil (n : Int) : decimal n ≠ [] := by
  rw [decimal]
  split
  · exact List.cons_ne_nil _ _
  · exact Nat.toDigits_ne_nil

theorem decimal_injective {n m : Int} (h : decimal n = decimal m) : n = m := by
  have hsign : ∀ k : Nat, '-' ∉ Nat.toDigits 10 k := by
    intro k
    have hdigits : Nat.toDigits 10 k ⊆ ("0123456789" : Text) :=
      toDigits_subset (by decide) (by decide) k
    exact notMem_of_subset hdigits (by decide)
  have hmagnitude : ∀ {k l : Nat}, Nat.toDigits 10 k = Nat.toDigits 10 l → k = l :=
    toDigits_injective (by decide) (by decide)
  rw [decimal, decimal] at h
  split at h <;> split at h
  · have := hmagnitude (List.cons.inj h).2
    omega
  · exact absurd (h ▸ List.mem_cons_self) (hsign _)
  · exact absurd (h ▸ List.mem_cons_self) (hsign _)
  · have := hmagnitude h
    omega

theorem digit_digitChar {d : Nat} (hd : d < 10) : digit (Nat.digitChar d) = some d := by
  have hall : ∀ d < 10, digit (Nat.digitChar d) = some d := by decide
  exact hall d hd

theorem digitsValue_append_singleton (s : Text) (c : Char) :
    digitsValue (s ++ [c]) =
      (digitsValue s).bind fun v => (digit c).map fun d => 10 * v + d := by
  rw [digitsValue, List.foldl_append]
  rfl

theorem digit_of_digitsValue {s : Text} {n : Nat} (h : digitsValue s = some n) :
    ∀ c ∈ s, (digit c).isSome = true := by
  induction s using List.reverseRecOn generalizing n with
  | nil => exact fun c hc => nomatch hc
  | append_singleton s d ih =>
      rw [digitsValue_append_singleton, Option.bind_eq_some_iff] at h
      obtain ⟨v, hv, hd⟩ := h
      obtain ⟨e, he, -⟩ := Option.map_eq_some_iff.mp hd
      intro c hc
      rcases List.mem_append.mp hc with hc | hc
      · exact ih hv c hc
      · rw [List.mem_singleton.mp hc, he]
        rfl

/-- A number is a sign and digits. -/
theorem mem_of_parseSigned {width : Nat} {s : Text} {n : Int} (h : parseSigned width s = some n) :
    ∀ c ∈ s, c = '-' ∨ c = '+' ∨ (digit c).isSome = true := by
  intro c hc
  unfold parseSigned at h
  split at h
  rename_i negative digits hsign
  split at h
  · cases h
  · obtain ⟨v, hv, -⟩ := Option.bind_eq_some_iff.mp h
    have hdigits : c ∈ digits → (digit c).isSome = true := digit_of_digitsValue hv c
    split at hsign
    · obtain ⟨-, rfl⟩ := Prod.mk.inj hsign
      exact (List.mem_cons.mp hc).imp_right fun hc => .inr (hdigits hc)
    · obtain ⟨-, rfl⟩ := Prod.mk.inj hsign
      exact .inr ((List.mem_cons.mp hc).imp_right hdigits)
    · obtain ⟨-, rfl⟩ := Prod.mk.inj hsign
      exact .inr (.inr (hdigits hc))

/-- A number that is in a range is in every larger one. -/
theorem parseSigned_mono {width width' : Nat} (hwidth : width ≤ width') {s : Text} {n : Int}
    (h : parseSigned width s = some n) : parseSigned width' s = some n := by
  have hpow : (2 : Int) ^ (width - 1) ≤ 2 ^ (width' - 1) := by
    exact_mod_cast Nat.pow_le_pow_right (by decide) (Nat.sub_le_sub_right hwidth 1)
  unfold parseSigned at h ⊢
  split at h
  rename_i negative digits hsign
  split at h
  · cases h
  · rename_i hne
    rw [if_neg hne]
    obtain ⟨v, hv, hrange⟩ := Option.bind_eq_some_iff.mp h
    rw [hv, Option.bind_some]
    simp only [Option.ite_none_right_eq_some] at hrange ⊢
    obtain ⟨⟨hlow, hhigh⟩, hvalue⟩ := hrange
    exact ⟨⟨Int.le_trans (Int.neg_le_neg hpow) hlow, Int.lt_of_lt_of_le hhigh hpow⟩, hvalue⟩

/-- The digits of a number have its value: the last one adds the remainder. -/
theorem digitsValue_toDigits (n : Nat) : digitsValue (Nat.toDigits 10 n) = some n := by
  induction n using Nat.strongRecOn with
  | ind n ih =>
      rw [Nat.toDigits_eq_if (by decide)]
      split
      · rename_i hlt
        rw [← List.nil_append [_], digitsValue_append_singleton, digit_digitChar hlt]
        simp [digitsValue]
      · rename_i hle
        rw [digitsValue_append_singleton, ih (n / 10) (Nat.div_lt_self (by omega) (by decide)),
          digit_digitChar (Nat.mod_lt n (by decide))]
        simp [Nat.div_add_mod]

/-- A number in range is read back. -/
theorem parseSigned_toDigits {width n : Nat} (h : n < 2 ^ (width - 1)) :
    parseSigned width (Nat.toDigits 10 n) = some (n : Int) := by
  have hsign : ∀ c ∈ ['-', '+'], c ∉ Nat.toDigits 10 n := by
    intro c hc
    have hdigits : Nat.toDigits 10 n ⊆ ("0123456789" : Text) :=
      toDigits_subset (by decide) (by decide) n
    refine notMem_of_subset hdigits ?_
    rcases List.mem_cons.mp hc with rfl | hc
    · decide
    · rw [List.mem_singleton.mp hc]
      decide
  have hvalue := digitsValue_toDigits n
  have hne : Nat.toDigits 10 n ≠ [] := Nat.toDigits_ne_nil
  have hrange : (n : Int) < 2 ^ (width - 1) := by exact_mod_cast h
  have hlow : -2 ^ (width - 1) ≤ (n : Int) := by
    have : (0 : Int) ≤ 2 ^ (width - 1) := Int.pow_nonneg (by decide)
    omega
  generalize Nat.toDigits 10 n = digits at hsign hvalue hne
  unfold parseSigned
  split
  rename_i negative rest heq
  split at heq
  · exact absurd List.mem_cons_self (hsign '-' (by decide))
  · exact absurd List.mem_cons_self (hsign '+' (by decide))
  · obtain ⟨rfl, rfl⟩ := Prod.mk.inj heq
    simp [hvalue, hne, hrange, hlow]

/-! ### Lists -/

/-- `TextUtils.join` with a separator of one character. -/
def join (delimiter : Char) : List Text → Text
  | [] => []
  | [token] => token
  | token :: tokens => token ++ delimiter :: join delimiter tokens

theorem join_cons_cons (delimiter : Char) (t t' : Text) (ts : List Text) :
    join delimiter (t :: t' :: ts) = t ++ delimiter :: join delimiter (t' :: ts) := rfl

theorem join_subset {delimiter : Char} {tokens : List Text} {characters : Text}
    (hdelimiter : delimiter ∈ characters) (h : ∀ t ∈ tokens, t ⊆ characters) :
    join delimiter tokens ⊆ characters := by
  induction tokens with
  | nil => exact List.nil_subset _
  | cons t ts ih =>
      have htail := ih fun t' ht' => h t' (List.mem_cons_of_mem _ ht')
      cases ts with
      | nil => exact h t List.mem_cons_self
      | cons t' ts =>
          apply List.append_subset.mpr
          exact ⟨h t List.mem_cons_self, List.cons_subset.mpr ⟨hdelimiter, htail⟩⟩

/-- Tokens that are not empty and do not contain the separator are determined by
    their text. -/
theorem join_injective {delimiter : Char} {tokens tokens' : List Text}
    (h : ∀ t ∈ tokens, t ≠ [] ∧ delimiter ∉ t) (h' : ∀ t ∈ tokens', t ≠ [] ∧ delimiter ∉ t)
    (heq : join delimiter tokens = join delimiter tokens') : tokens = tokens' := by
  have hnil : ∀ {t : Text} {ts : List Text}, t ≠ [] → join delimiter (t :: ts) ≠ [] := by
    intro t ts ht
    cases ts with
    | nil => exact ht
    | cons t' ts => exact List.append_ne_nil_of_left_ne_nil ht _
  induction tokens generalizing tokens' with
  | nil =>
      cases tokens' with
      | nil => rfl
      | cons t' ts' => exact absurd heq.symm (hnil (h' t' List.mem_cons_self).1)
  | cons t ts ih =>
      cases tokens' with
      | nil => exact absurd heq (hnil (h t List.mem_cons_self).1)
      | cons t' ts' =>
          have ht := h t List.mem_cons_self
          have ht' := h' t' List.mem_cons_self
          cases ts with
          | nil =>
              cases ts' with
              | nil => exact congrArg (fun t => [t]) heq
              | cons s' ss' =>
                  have hmem : delimiter ∈ join delimiter [t] := by
                    rw [heq, join_cons_cons]
                    exact List.mem_append_right _ List.mem_cons_self
                  exact absurd hmem ht.2
          | cons s ss =>
              cases ts' with
              | nil =>
                  have hmem : delimiter ∈ join delimiter [t'] := by
                    rw [← heq, join_cons_cons]
                    exact List.mem_append_right _ List.mem_cons_self
                  exact absurd hmem ht'.2
              | cons s' ss' =>
                  rw [join_cons_cons, join_cons_cons] at heq
                  obtain ⟨rfl, htail⟩ := split_at_first ht.2 ht'.2 heq
                  have hts := ih (fun x hx => h x (List.mem_cons_of_mem _ hx))
                    (fun x hx => h' x (List.mem_cons_of_mem _ hx)) htail
                  rw [hts]

/-! ### Numbers without a separator -/

/-- No digit at the beginning of the text could be one of the number before it, for
    numbers up to `bound`. -/
def Apart (bound number : Nat) (text : Text) : Prop :=
  ∀ d < 10, text.head? = some (Nat.digitChar d) → number = 0 ∨ bound < 10 * number + d

instance (bound number : Nat) (text : Text) : Decidable (Apart bound number text) :=
  inferInstanceAs (Decidable (∀ d < 10, _ → _))

theorem toDigits_two {n : Nat} (h : 10 ≤ n) (h' : n < 100) :
    Nat.toDigits 10 n = [Nat.digitChar (n / 10), Nat.digitChar (n % 10)] := by
  rw [Nat.toDigits_of_base_le (by decide) h, Nat.toDigits_of_lt_base (show n / 10 < 10 by omega)]
  rfl

/-- A number of one digit that is apart from the text behind it is not the first
    digit of one with two. -/
theorem not_two_digits {bound n m : Nat} {s s' : Text} (hapart : Apart bound n s) (hn : n < 10)
    (hm : m ≤ bound) (hm' : 10 ≤ m) (hbound : bound < 100)
    (h : Nat.toDigits 10 n ++ s = Nat.toDigits 10 m ++ s') : False := by
  rw [Nat.toDigits_of_lt_base hn, toDigits_two hm' (by omega)] at h
  obtain ⟨hfirst, hrest⟩ := List.cons.inj h
  have hs : s = Nat.digitChar (m % 10) :: s' := hrest
  have hquotient : n = m / 10 := digitChar_injective (by omega) (by omega) hfirst
  have hhead : s.head? = some (Nat.digitChar (m % 10)) := by
    rw [hs]
    rfl
  have := hapart (m % 10) (Nat.mod_lt _ (by decide)) hhead
  omega

theorem toDigits_append_inj {bound n m : Nat} {s s' : Text} (hbound : bound < 100)
    (hn : n ≤ bound) (hm : m ≤ bound) (hs : Apart bound n s) (hs' : Apart bound m s')
    (h : Nat.toDigits 10 n ++ s = Nat.toDigits 10 m ++ s') : n = m ∧ s = s' := by
  by_cases hn' : n < 10 <;> by_cases hm' : m < 10
  · have hlength : (Nat.toDigits 10 n).length = (Nat.toDigits 10 m).length := by
      rw [Nat.toDigits_of_lt_base hn', Nat.toDigits_of_lt_base hm']
      rfl
    obtain ⟨hdigits, hrest⟩ := List.append_inj h hlength
    exact ⟨toDigits_injective (by decide) (by decide) hdigits, hrest⟩
  · exact (not_two_digits hs hn' hm (by omega) hbound h).elim
  · exact (not_two_digits hs' hm' hn (by omega) hbound h.symm).elim
  · have hlength : (Nat.toDigits 10 n).length = (Nat.toDigits 10 m).length := by
      rw [toDigits_two (by omega) (by omega), toDigits_two (by omega) (by omega)]
      rfl
    obtain ⟨hdigits, hrest⟩ := List.append_inj h hlength
    exact ⟨toDigits_injective (by decide) (by decide) hdigits, hrest⟩

end OpenVpnAndroid
