/-
  OpenVpnAndroid/LongestMatch.lean
  ================================
  **Longest-prefix matching, over any kind of rules.**

  A rule covers some points, has a rank (a longer prefix has a higher rank) and
  a label.  A list of rules decides a point by a rule of highest rank among
  those that cover it.  The list is consistent when two rules of one rank that
  cover a common point have one label, so that the decision is unique.

  Where rules of one rank disagree the first may decide (`FirstLongest`); a set that keeps
  the first of equal rules decides in the same way (`longest_known`, `longest_new`).

  Two ways to change a list leave its decisions as they are: a rule may be
  replaced by pieces of the next rank (`longest_split`), and a rule may be
  dropped when the next lower one has its label (`longest_drop`).
-/
import Mathlib

namespace OpenVpnAndroid

namespace LongestMatch

variable {ρ α β : Type*} (covers : ρ → α → Prop) (rank : ρ → Nat) (label : ρ → β)

/-- The rules `rs` decide the point `a` as `b`. -/
def Longest (rs : List ρ) (a : α) (b : β) : Prop :=
  ∃ r ∈ rs, covers r a ∧ label r = b ∧ ∀ s ∈ rs, covers s a → rank s ≤ rank r

def Consistent (rs : List ρ) : Prop :=
  ∀ r ∈ rs, ∀ s ∈ rs, ∀ a, covers r a → covers s a → rank r = rank s → label r = label s

variable {covers rank label} {rs ss ps : List ρ} {r : ρ} {a : α} {b b' : β}

theorem longest_congr (h : ∀ s, s ∈ rs ↔ s ∈ ss) :
    Longest covers rank label rs a b ↔ Longest covers rank label ss a b := by
  simp only [Longest, h]

theorem Consistent.congr (h : ∀ s, s ∈ rs ↔ s ∈ ss) :
    Consistent covers rank label rs ↔ Consistent covers rank label ss := by
  simp only [Consistent, h]

theorem Consistent.mono (h : Consistent covers rank label rs) (hsub : ∀ s ∈ ss, s ∈ rs) :
    Consistent covers rank label ss := by
  intro s hs t ht a
  exact h s (hsub s hs) t (hsub t ht) a

/-- A consistent list decides a point in one way. -/
theorem Longest.unique (hrs : Consistent covers rank label rs)
    (h : Longest covers rank label rs a b) (h' : Longest covers rank label rs a b') : b = b' := by
  obtain ⟨r, hr, hra, rfl, hrmax⟩ := h
  obtain ⟨s, hs, hsa, rfl, hsmax⟩ := h'
  exact hrs r hr s hs a hra hsa (Nat.le_antisymm (hsmax r hr hra) (hrmax s hs hsa))

/-- Replacing a rule by pieces of the next rank.  The pieces may leave out what
    rules of a higher rank cover anyway. -/
theorem longest_split
    (hpieces : ∀ p ∈ ps, rank p = rank r + 1 ∧ label p = label r ∧ ∀ a, covers p a → covers r a)
    (hcover : ∀ a, covers r a →
      (∃ p ∈ ps, covers p a) ∨ ∃ s ∈ rs, covers s a ∧ rank r < rank s)
    (hbefore : Consistent covers rank label (r :: rs))
    (hafter : Consistent covers rank label (ps ++ rs)) (a : α) (b : β) :
    Longest covers rank label (r :: rs) a b ↔ Longest covers rank label (ps ++ rs) a b := by
  constructor
  · rintro ⟨t, ht, hta, rfl, hmax⟩
    by_cases hpiece : ∃ p ∈ ps, covers p a ∧ rank t < rank p
    · -- the rule was the longest, and a piece of it takes over
      obtain ⟨p, hp, hpa, hlt⟩ := hpiece
      obtain ⟨hrank, hlabel, hsub⟩ := hpieces p hp
      have hra : covers r a := hsub a hpa
      have heq : rank t = rank r := by
        have := hmax r List.mem_cons_self hra
        omega
      have htr : label t = label r := hbefore t ht r List.mem_cons_self a hta hra heq
      refine ⟨p, List.mem_append_left _ hp, hpa, hlabel.trans htr.symm, ?_⟩
      intro s hs hsa
      rcases List.mem_append.mp hs with hs | hs
      · have := (hpieces s hs).1
        omega
      · have := hmax s (List.mem_cons_of_mem _ hs) hsa
        omega
    · have hpiece : ∀ p ∈ ps, covers p a → rank p ≤ rank t :=
        fun p hp hpa => Nat.le_of_not_lt fun hlt => hpiece ⟨p, hp, hpa, hlt⟩
      rcases List.mem_cons.mp ht with rfl | ht
      · -- the rule itself cannot stay the longest: it is covered
        rcases hcover a hta with ⟨p, hp, hpa⟩ | ⟨s, hs, hsa, hlt⟩
        · have := hpiece p hp hpa
          have := (hpieces p hp).1
          omega
        · have := hmax s (List.mem_cons_of_mem _ hs) hsa
          omega
      · refine ⟨t, List.mem_append_right _ ht, hta, rfl, ?_⟩
        intro s hs hsa
        rcases List.mem_append.mp hs with hs | hs
        · exact hpiece s hs hsa
        · exact hmax s (List.mem_cons_of_mem _ hs) hsa
  · rintro ⟨t, ht, hta, rfl, hmax⟩
    rcases List.mem_append.mp ht with hp | ht'
    · -- a piece decides: before the split the rule did, or one that ties with the piece
      obtain ⟨hrank, hlabel, hsub⟩ := hpieces t hp
      by_cases htie : ∃ s ∈ rs, covers s a ∧ rank s = rank t
      · obtain ⟨s, hs, hsa, hst⟩ := htie
        have hlab : label s = label t :=
          hafter s (List.mem_append_right _ hs) t ht a hsa hta hst
        refine ⟨s, List.mem_cons_of_mem _ hs, hsa, hlab, ?_⟩
        intro u hu hua
        rcases List.mem_cons.mp hu with rfl | hu
        · omega
        · have := hmax u (List.mem_append_right _ hu) hua
          omega
      · push Not at htie
        refine ⟨r, List.mem_cons_self, hsub a hta, hlabel.symm, ?_⟩
        intro u hu hua
        rcases List.mem_cons.mp hu with rfl | hu
        · exact Nat.le_refl _
        · have := hmax u (List.mem_append_right _ hu) hua
          have := htie u hu hua
          omega
    · refine ⟨t, List.mem_cons_of_mem _ ht', hta, rfl, ?_⟩
      intro u hu hua
      rcases List.mem_cons.mp hu with rfl | hu
      · rcases hcover a hua with ⟨p, hp, hpa⟩ | ⟨s, hs, hsa, hlt⟩
        · have := hmax p (List.mem_append_left _ hp) hpa
          have := (hpieces p hp).1
          omega
        · have := hmax s (List.mem_append_right _ hs) hsa
          omega
      · exact hmax u (List.mem_append_right _ hu) hua

/-- Dropping a rule: wherever it applies, the highest of the rules that are not
    above it has its label. -/
theorem longest_drop
    (hnext : ∀ a, covers r a → ∃ s ∈ rs, covers s a ∧ label s = label r ∧ rank s ≤ rank r ∧
      ∀ t ∈ rs, covers t a → rank t ≤ rank r → rank t ≤ rank s)
    (hbefore : Consistent covers rank label (r :: rs)) (a : α) (b : β) :
    Longest covers rank label (r :: rs) a b ↔ Longest covers rank label rs a b := by
  constructor
  · rintro ⟨t, ht, hta, rfl, hmax⟩
    rcases List.mem_cons.mp ht with rfl | ht
    · obtain ⟨s, hs, hsa, hlabel, -, hhigh⟩ := hnext a hta
      refine ⟨s, hs, hsa, hlabel, ?_⟩
      intro u hu hua
      exact hhigh u hu hua (hmax u (List.mem_cons_of_mem _ hu) hua)
    · exact ⟨t, ht, hta, rfl, fun u hu => hmax u (List.mem_cons_of_mem _ hu)⟩
  · rintro ⟨t, ht, hta, rfl, hmax⟩
    by_cases hr : covers r a ∧ rank t < rank r
    · -- the dropped rule was the longest
      obtain ⟨hra, hlt⟩ := hr
      obtain ⟨s, hs, hsa, hlabel, hle, hhigh⟩ := hnext a hra
      have heq : rank s = rank t := Nat.le_antisymm (hmax s hs hsa) (hhigh t ht hta (Nat.le_of_lt hlt))
      have hst : label s = label t :=
        hbefore s (List.mem_cons_of_mem _ hs) t (List.mem_cons_of_mem _ ht) a hsa hta heq
      refine ⟨r, List.mem_cons_self, hra, hlabel.symm.trans hst, ?_⟩
      intro u hu hua
      rcases List.mem_cons.mp hu with rfl | hu
      · exact Nat.le_refl _
      · exact Nat.le_trans (hmax u hu hua) (Nat.le_of_lt hlt)
    · refine ⟨t, List.mem_cons_of_mem _ ht, hta, rfl, ?_⟩
      intro u hu hua
      rcases List.mem_cons.mp hu with rfl | hu
      · by_contra hgt
        exact hr ⟨hua, by omega⟩
      · exact hmax u hu hua

/-! ### The first of equal rules -/

section First

variable (covers : ρ → α → Prop) (rank : ρ → Nat) (label : ρ → β)

/-- The first of the longest rules that cover the point decides it. -/
def FirstLongest (rs : List ρ) (a : α) (b : β) : Prop :=
  ∃ before r after, rs = before ++ r :: after ∧ covers r a ∧ label r = b ∧
    (∀ s ∈ before, covers s a → rank s < rank r) ∧ ∀ s ∈ after, covers s a → rank s ≤ rank r

end First

/-- A rule at the end decides a point if it is longer than all others that cover it, and
    otherwise changes nothing unless it is longer. -/
theorem firstLongest_concat :
    FirstLongest covers rank label (rs ++ [r]) a b ↔
      (FirstLongest covers rank label rs a b ∧
          (covers r a → ∃ s ∈ rs, covers s a ∧ rank r ≤ rank s)) ∨
        (covers r a ∧ label r = b ∧ ∀ s ∈ rs, covers s a → rank s < rank r) := by
  constructor
  · rintro ⟨before, x, after, heq, hx, hlabel, hbefore, hafter⟩
    rcases List.eq_nil_or_concat after with rfl | ⟨init, last, rfl⟩
    · obtain ⟨rfl, hlast⟩ := List.append_inj' heq rfl
      obtain rfl : r = x := by simpa using hlast
      exact .inr ⟨hx, hlabel, hbefore⟩
    · rw [List.concat_eq_append, ← List.cons_append, ← List.append_assoc] at heq
      obtain ⟨rfl, hlast⟩ := List.append_inj' heq rfl
      obtain rfl : r = last := by simpa using hlast
      rw [List.concat_eq_append] at hafter
      refine .inl ⟨⟨before, x, init, rfl, hx, hlabel, hbefore, fun s hs => ?_⟩, fun hr => ?_⟩
      · exact hafter s (List.mem_append_left _ hs)
      · exact ⟨x, by simp, hx, hafter r (by simp) hr⟩
  · rintro (⟨⟨before, x, after, rfl, hx, hlabel, hbefore, hafter⟩, hr⟩ | ⟨hr, hlabel, hlt⟩)
    · refine ⟨before, x, after ++ [r], by simp, hx, hlabel, hbefore, fun s hs hsa => ?_⟩
      rcases List.mem_append.mp hs with hs | hs
      · exact hafter s hs hsa
      · rw [List.mem_singleton] at hs
        subst hs
        obtain ⟨t, ht, hta, hle⟩ := hr hsa
        refine hle.trans ?_
        rcases List.mem_append.mp ht with ht | ht
        · exact Nat.le_of_lt (hbefore t ht hta)
        · rcases List.mem_cons.mp ht with rfl | ht
          · exact le_rfl
          · exact hafter t ht hta
    · exact ⟨rs, r, [], rfl, hr, hlabel, hlt, by simp⟩

/-- A set that stands for the rules of a list: for each rule it has one of the same rank that
    covers as much. -/
structure Represents (covers : ρ → α → Prop) (rank : ρ → Nat) (ss rs : List ρ) : Prop where
  mem : ∀ s ∈ ss, s ∈ rs
  like : ∀ s ∈ rs, ∃ t ∈ ss, rank t = rank s ∧ ∀ a, covers s a → covers t a

/-- A rule that the set has already is not added. -/
theorem longest_known (hss : Represents covers rank ss rs)
    (h : Longest covers rank label ss a b ↔ FirstLongest covers rank label rs a b)
    (hknown : ∃ t ∈ ss, rank t = rank r ∧ ∀ a, covers r a → covers t a) :
    Longest covers rank label ss a b ↔ FirstLongest covers rank label (rs ++ [r]) a b := by
  obtain ⟨t, ht, hrank, hcovers⟩ := hknown
  rw [firstLongest_concat, h]
  constructor
  · intro hfirst
    refine .inl ⟨hfirst, fun hr => ?_⟩
    exact ⟨t, hss.mem t ht, hcovers a hr, hrank.ge⟩
  · rintro (⟨hfirst, -⟩ | ⟨hr, -, hlt⟩)
    · exact hfirst
    · have := hlt t (hss.mem t ht) (hcovers a hr)
      omega

/-- A rule that is added beside others of its rank covers none of their points. -/
theorem longest_new (hss : Represents covers rank ss rs)
    (h : Longest covers rank label ss a b ↔ FirstLongest covers rank label rs a b)
    (hnew : ∀ t ∈ ss, covers r a → covers t a → rank t ≠ rank r) {ss' : List ρ}
    (hmem : ∀ s, s ∈ ss' ↔ s = r ∨ s ∈ ss) :
    Longest covers rank label ss' a b ↔ FirstLongest covers rank label (rs ++ [r]) a b := by
  have hbelow : covers r a → (∀ s ∈ ss, covers s a → rank s ≤ rank r) →
      ∀ s ∈ rs, covers s a → rank s < rank r := by
    intro hr hle s hs hsa
    obtain ⟨t, ht, hrank, hcovers⟩ := hss.like s hs
    have hta := hcovers a hsa
    have := hle t ht hta
    have := hnew t ht hr hta
    omega
  rw [firstLongest_concat]
  constructor
  · rintro ⟨z, hz, hza, hlabel, hmax⟩
    rcases (hmem z).mp hz with rfl | hz'
    · exact .inr ⟨hza, hlabel, hbelow hza fun s hs => hmax s ((hmem s).mpr (.inr hs))⟩
    · have hlongest : Longest covers rank label ss a b :=
        ⟨z, hz', hza, hlabel, fun s hs => hmax s ((hmem s).mpr (.inr hs))⟩
      refine .inl ⟨h.mp hlongest, fun hr => ⟨z, hss.mem z hz', hza, ?_⟩⟩
      exact hmax r ((hmem r).mpr (.inl rfl)) hr
  · rintro (⟨hfirst, hle⟩ | ⟨hr, hlabel, hlt⟩)
    · obtain ⟨z, hz, hza, hlabel, hmax⟩ := h.mpr hfirst
      refine ⟨z, (hmem z).mpr (.inr hz), hza, hlabel, fun s hs hsa => ?_⟩
      rcases (hmem s).mp hs with rfl | hs
      · obtain ⟨t, ht, hta, hrank⟩ := hle hsa
        obtain ⟨u, hu, hranku, hcovers⟩ := hss.like t ht
        have := hmax u hu (hcovers a hta)
        omega
      · exact hmax s hs hsa
    · refine ⟨r, (hmem r).mpr (.inl rfl), hr, hlabel, fun s hs hsa => ?_⟩
      rcases (hmem s).mp hs with rfl | hs
      · exact le_rfl
      · exact Nat.le_of_lt (hlt s (hss.mem s hs) hsa)

theorem Represents.known (hss : Represents covers rank ss rs)
    (hknown : ∃ t ∈ ss, rank t = rank r ∧ ∀ a, covers r a → covers t a) :
    Represents covers rank ss (rs ++ [r]) := by
  refine ⟨fun s hs => List.mem_append_left _ (hss.mem s hs), fun s hs => ?_⟩
  rcases List.mem_append.mp hs with hs | hs
  · exact hss.like s hs
  · rw [List.mem_singleton.mp hs]
    exact hknown

theorem Represents.new (hss : Represents covers rank ss rs) {ss' : List ρ}
    (hmem : ∀ s, s ∈ ss' ↔ s = r ∨ s ∈ ss) : Represents covers rank ss' (rs ++ [r]) := by
  refine ⟨fun s hs => ?_, fun s hs => ?_⟩
  · rcases (hmem s).mp hs with rfl | hs
    · simp
    · exact List.mem_append_left _ (hss.mem s hs)
  · rcases List.mem_append.mp hs with hs | hs
    · obtain ⟨t, ht, hlike⟩ := hss.like s hs
      exact ⟨t, (hmem t).mpr (.inr ht), hlike⟩
    · rw [List.mem_singleton.mp hs]
      exact ⟨r, (hmem r).mpr (.inl rfl), rfl, fun _ hr => hr⟩

/-! ### Rules in another form -/

section Map

variable {σ γ : Type*} {covers' : σ → γ → Prop} {rank' : σ → Nat} {label' : σ → β} {f : σ → ρ}
variable {ts : List σ} {c : γ}

theorem longest_map (h : ∀ t ∈ ts, (covers (f t) a ↔ covers' t c) ∧ rank (f t) = rank' t ∧
      label (f t) = label' t) :
    Longest covers rank label (ts.map f) a b ↔ Longest covers' rank' label' ts c b := by
  constructor
  · rintro ⟨r, hr, hra, rfl, hmax⟩
    obtain ⟨t, ht, rfl⟩ := List.mem_map.mp hr
    obtain ⟨hcovers, hrank, hlabel⟩ := h t ht
    refine ⟨t, ht, hcovers.mp hra, hlabel.symm, fun s hs hsc => ?_⟩
    obtain ⟨hcovers', hrank', -⟩ := h s hs
    rw [← hrank, ← hrank']
    exact hmax (f s) (List.mem_map_of_mem hs) (hcovers'.mpr hsc)
  · rintro ⟨t, ht, htc, rfl, hmax⟩
    obtain ⟨hcovers, hrank, hlabel⟩ := h t ht
    refine ⟨f t, List.mem_map_of_mem ht, hcovers.mpr htc, hlabel, fun r hr hra => ?_⟩
    obtain ⟨s, hs, rfl⟩ := List.mem_map.mp hr
    obtain ⟨hcovers', hrank', -⟩ := h s hs
    rw [hrank, hrank']
    exact hmax s hs (hcovers'.mp hra)

theorem firstLongest_map (h : ∀ t ∈ ts, (covers (f t) a ↔ covers' t c) ∧ rank (f t) = rank' t ∧
      label (f t) = label' t) :
    FirstLongest covers rank label (ts.map f) a b ↔
      FirstLongest covers' rank' label' ts c b := by
  constructor
  · rintro ⟨before, r, after, heq, hra, rfl, hbefore, hafter⟩
    obtain ⟨first, rest, rfl, rfl, hrest⟩ := List.map_eq_append_iff.mp heq
    obtain ⟨t, last, rfl, rfl, rfl⟩ := List.map_eq_cons_iff.mp hrest
    obtain ⟨hcovers, hrank, hlabel⟩ := h t (by simp)
    refine ⟨first, t, last, rfl, hcovers.mp hra, hlabel.symm, fun s hs hsc => ?_,
      fun s hs hsc => ?_⟩
    · obtain ⟨hcovers', hrank', -⟩ := h s (by simp [hs])
      rw [← hrank, ← hrank']
      exact hbefore (f s) (List.mem_map_of_mem hs) (hcovers'.mpr hsc)
    · obtain ⟨hcovers', hrank', -⟩ := h s (by simp [hs])
      rw [← hrank, ← hrank']
      exact hafter (f s) (List.mem_map_of_mem hs) (hcovers'.mpr hsc)
  · rintro ⟨first, t, last, rfl, htc, rfl, hbefore, hafter⟩
    obtain ⟨hcovers, hrank, hlabel⟩ := h t (by simp)
    refine ⟨first.map f, f t, last.map f, by simp, hcovers.mpr htc, hlabel, fun r hr hra => ?_,
      fun r hr hra => ?_⟩
    all_goals
      obtain ⟨s, hs, rfl⟩ := List.mem_map.mp hr
      obtain ⟨hcovers', hrank', -⟩ := h s (by simp [hs])
      rw [hrank, hrank']
    · exact hbefore s hs (hcovers'.mp hra)
    · exact hafter s hs (hcovers'.mp hra)

end Map

end LongestMatch

end OpenVpnAndroid
