/-
  OpenVpnAndroid/Machine.lean
  ===========================
  **Deterministic machines and their runs.**

  A machine is an initial state and a step function; the events are chosen by
  its environment, in any order.  `latch` is the rule for a property that a
  step can only lose: it holds after a run exactly when every step of the run
  kept it.  `latch_since` is the rule for a property that some steps start anew: it
  holds after a run exactly when the last of them was fine.  `outputs` is what the
  steps of a run give to an observer.
-/
import Mathlib

namespace OpenVpnAndroid

/-- A deterministic machine over states `σ` and events `ε`. -/
structure Machine (σ ε : Type*) where
  initial : σ
  step : σ → ε → σ

namespace Machine

variable {σ ε : Type*} (M : Machine σ ε)

def runFrom (s : σ) (es : List ε) : σ := es.foldl M.step s

/-- The state after the events `es`. -/
def run (es : List ε) : σ := M.runFrom M.initial es

@[simp] theorem runFrom_nil (s : σ) : M.runFrom s [] = s := rfl

@[simp] theorem runFrom_cons (s : σ) (e : ε) (es : List ε) :
    M.runFrom s (e :: es) = M.runFrom (M.step s e) es := rfl

theorem run_append (es fs : List ε) : M.run (es ++ fs) = M.runFrom (M.run es) fs :=
  List.foldl_append

@[simp] theorem run_append_singleton (es : List ε) (e : ε) :
    M.run (es ++ [e]) = M.step (M.run es) e := by
  simp only [run, runFrom, List.foldl_append, List.foldl_cons, List.foldl_nil]

/-- Every step of a run is fine: `fine s e` for each event `e` and the state `s`
    it finds. -/
def EveryStep (fine : σ → ε → Prop) (es : List ε) : Prop :=
  ∀ before e after, es = before ++ e :: after → fine (M.run before) e

/-- The same from any state, along the list. -/
def EveryStepFrom (fine : σ → ε → Prop) : σ → List ε → Prop
  | _, [] => True
  | s, e :: es => fine s e ∧ EveryStepFrom fine (M.step s e) es

variable {M} {fine : σ → ε → Prop} {P : σ → Prop}

theorem everyStepFrom_iff {s : σ} {es : List ε} :
    M.EveryStepFrom fine s es ↔
      ∀ before e after, es = before ++ e :: after → fine (M.runFrom s before) e := by
  induction es generalizing s with
  | nil => simp [EveryStepFrom]
  | cons e es ih =>
    simp only [EveryStepFrom, ih]
    constructor
    · rintro ⟨he, hes⟩ before e' after heq
      rcases List.cons_eq_append_iff.mp heq with ⟨rfl, h⟩ | ⟨before', rfl, h⟩
      · obtain ⟨rfl, rfl⟩ := List.cons.inj h
        exact he
      · exact hes before' e' after h
    · intro h
      refine ⟨h [] e es rfl, ?_⟩
      intro before e' after heq
      exact h (e :: before) e' after (by rw [heq]; rfl)

theorem everyStep_iff {es : List ε} :
    M.EveryStep fine es ↔ M.EveryStepFrom fine M.initial es :=
  everyStepFrom_iff.symm

instance decidableEveryStepFrom [∀ s e, Decidable (fine s e)] :
    ∀ s es, Decidable (M.EveryStepFrom fine s es)
  | _, [] => isTrue True.intro
  | s, e :: es =>
      have := decidableEveryStepFrom (M.step s e) es
      inferInstanceAs (Decidable (fine s e ∧ M.EveryStepFrom fine (M.step s e) es))

instance [∀ s e, Decidable (fine s e)] (es : List ε) : Decidable (M.EveryStep fine es) :=
  decidable_of_iff _ everyStep_iff.symm

theorem latch_from (hstep : ∀ s e, P (M.step s e) ↔ P s ∧ fine s e) (s : σ) (es : List ε) :
    P (M.runFrom s es) ↔ P s ∧ M.EveryStepFrom fine s es := by
  induction es generalizing s with
  | nil => simp [EveryStepFrom]
  | cons e es ih =>
    rw [runFrom_cons, ih, hstep, EveryStepFrom]
    exact and_assoc

/-- What holds initially and after every step holds after a run. -/
theorem invariant {I : σ → Prop} (hinit : I M.initial) (hstep : ∀ s e, I s → I (M.step s e))
    (es : List ε) : I (M.run es) := by
  induction es using List.reverseRecOn with
  | nil => exact hinit
  | append_singleton es e ih =>
      rw [run_append_singleton]
      exact hstep _ e ih

theorem everyStep_append_singleton (es : List ε) (e : ε) :
    M.EveryStep fine (es ++ [e]) ↔ M.EveryStep fine es ∧ fine (M.run es) e := by
  constructor
  · intro h
    refine ⟨fun before e' after heq => ?_, h es e [] rfl⟩
    exact h before e' (after ++ [e]) (by rw [heq, List.append_assoc, List.cons_append])
  · rintro ⟨hes, he⟩ before e' after heq
    rcases List.eq_nil_or_concat after with rfl | ⟨after', e'', rfl⟩
    · obtain ⟨rfl, hlast⟩ := List.append_inj' heq rfl
      obtain rfl := List.singleton_inj.mp hlast
      exact he
    · rw [List.concat_eq_append, ← List.cons_append, ← List.append_assoc] at heq
      exact hes before e' after' (List.append_inj' heq rfl).1

/-- The same for runs whose steps all meet `meets`. -/
theorem invariant_of_everyStep {I : σ → Prop} {meets : σ → ε → Prop} (hinit : I M.initial)
    (hstep : ∀ s e, I s → meets s e → I (M.step s e)) (es : List ε)
    (h : M.EveryStep meets es) : I (M.run es) := by
  induction es using List.reverseRecOn with
  | nil => exact hinit
  | append_singleton es e ih =>
      rw [everyStep_append_singleton] at h
      rw [run_append_singleton]
      exact hstep _ e (ih h.1) h.2

theorem EveryStep.of_append {before after : List ε} (h : M.EveryStep fine (before ++ after)) :
    M.EveryStep fine before := by
  rintro before' e after' rfl
  exact h before' e (after' ++ after) (by rw [List.append_assoc, List.cons_append])

theorem EveryStep.and {fine' : σ → ε → Prop} {es : List ε} (h : M.EveryStep fine es)
    (h' : M.EveryStep fine' es) : M.EveryStep (fun s e => fine s e ∧ fine' s e) es :=
  fun before e after heq => ⟨h before e after heq, h' before e after heq⟩

/-- A property that holds initially and that a step keeps exactly when it is
    fine holds after a run exactly when every step of the run is fine. -/
theorem latch (hinit : P M.initial) (hstep : ∀ s e, P (M.step s e) ↔ P s ∧ fine s e)
    (es : List ε) : P (M.run es) ↔ M.EveryStep fine es := by
  rw [run, latch_from hstep, everyStep_iff]
  exact and_iff_right hinit

/-- The same where only steps from reachable states keep it. -/
theorem latch_of_invariant {I : σ → Prop} (hinv : ∀ es, I (M.run es)) (hinit : P M.initial)
    (hstep : ∀ s e, I s → (P (M.step s e) ↔ P s ∧ fine s e)) (es : List ε) :
    P (M.run es) ↔ M.EveryStep fine es := by
  induction es using List.reverseRecOn with
  | nil => exact iff_of_true hinit fun before _ _ heq => by simp at heq
  | append_singleton es e ih =>
      rw [run_append_singleton, hstep _ e (hinv es), ih, everyStep_append_singleton]

/-- The same for runs whose steps all meet `meets`. -/
theorem latch_of_everyStep {I : σ → Prop} {meets : σ → ε → Prop} (hinv : I M.initial)
    (hinit : P M.initial) (hkeep : ∀ s e, I s → meets s e → I (M.step s e))
    (hstep : ∀ s e, I s → meets s e → (P (M.step s e) ↔ P s ∧ fine s e)) (es : List ε)
    (h : M.EveryStep meets es) : P (M.run es) ↔ M.EveryStep fine es := by
  induction es using List.reverseRecOn with
  | nil => exact iff_of_true hinit fun before _ _ heq => by simp at heq
  | append_singleton es e ih =>
      rw [everyStep_append_singleton] at h
      have hrun : I (M.run es) := invariant_of_everyStep hinv hkeep es h.1
      rw [run_append_singleton, hstep _ e hrun h.2, ih h.1, everyStep_append_singleton]

/-- A property that holds initially, and that a step from a state with it keeps
    exactly when it is fine, with what else is asked of the step: both are met in all
    of a run exactly when every step of the run is fine. -/
theorem everyState_and_everyStep_iff {good : σ → ε → Prop} (hinit : P M.initial)
    (hstep : ∀ s e, P s → (P (M.step s e) ∧ good s e ↔ fine s e)) (es : List ε) :
    (∀ before after, es = before ++ after → P (M.run before)) ∧ M.EveryStep good es ↔
      M.EveryStep fine es := by
  constructor
  · rintro ⟨h, hgood⟩ before e after heq
    have hbefore : P (M.run before) := h before (e :: after) heq
    have hafter : P (M.run (before ++ [e])) := h (before ++ [e]) after (by rw [heq]; simp)
    rw [run_append_singleton] at hafter
    exact (hstep _ e hbefore).mp ⟨hafter, hgood before e after heq⟩
  · intro h
    have hstates : ∀ before after, es = before ++ after → P (M.run before) := by
      intro before
      induction before using List.reverseRecOn with
      | nil => exact fun _ _ => hinit
      | append_singleton before e ih =>
          intro after heq
          have hbefore : P (M.run before) := ih (e :: after) (by rw [heq]; simp)
          rw [run_append_singleton]
          exact ((hstep _ e hbefore).mpr (h before e after (by rw [heq]; simp))).1
    refine ⟨hstates, fun before e after heq => ?_⟩
    have hbefore : P (M.run before) := hstates before (e :: after) heq
    exact ((hstep _ e hbefore).mpr (h before e after heq)).2

/-- The same without the second property. -/
theorem everyState_iff (hinit : P M.initial)
    (hstep : ∀ s e, P s → (P (M.step s e) ↔ fine s e)) (es : List ε) :
    (∀ before after, es = before ++ after → P (M.run before)) ↔ M.EveryStep fine es := by
  have hstep' : ∀ s e, P s → (P (M.step s e) ∧ True ↔ fine s e) :=
    fun s e hs => (and_iff_left True.intro).trans (hstep s e hs)
  have htrue : M.EveryStep (fun _ _ => True) es := fun _ _ _ _ => True.intro
  exact (and_iff_left htrue).symm.trans (everyState_and_everyStep_iff hinit hstep' es)

/-- A property that some steps give and that it takes others to lose: it was given, and
    kept since. -/
theorem given {gives : σ → ε → Prop} {keeps : ε → Prop} (hinit : ¬ P M.initial)
    (hstep : ∀ s e, P (M.step s e) → gives s e ∨ P s ∧ keeps e) (es : List ε)
    (h : P (M.run es)) :
    ∃ before e after, es = before ++ e :: after ∧ gives (M.run before) e ∧
      ∀ e' ∈ after, keeps e' := by
  induction es using List.reverseRecOn with
  | nil => exact absurd h hinit
  | append_singleton es e ih =>
      rw [run_append_singleton] at h
      rcases hstep _ e h with hgives | ⟨hbefore, hkeep⟩
      · exact ⟨es, e, [], rfl, hgives, fun _ h => nomatch h⟩
      · obtain ⟨before, e', after, rfl, hgives, hkeeps⟩ := ih hbefore
        refine ⟨before, e', after ++ [e], by simp, hgives, fun e'' he'' => ?_⟩
        rcases List.mem_append.mp he'' with he'' | he''
        · exact hkeeps e'' he''
        · rwa [List.mem_singleton.mp he'']

/-- A property that some events give and that the others keep or take: it holds after a
    run exactly when it was given and kept since. -/
theorem since {gives keeps : ε → Prop} (hinit : ¬ P M.initial)
    (hstep : ∀ s e, P (M.step s e) ↔ gives e ∨ P s ∧ keeps e) (es : List ε) :
    P (M.run es) ↔
      ∃ before e after, es = before ++ e :: after ∧ gives e ∧ ∀ e' ∈ after, keeps e' := by
  constructor
  · exact @given _ _ M P (fun _ e => gives e) keeps hinit (fun s e => (hstep s e).mp) es
  · rintro ⟨before, e, after, rfl, hgives, hkeeps⟩
    induction after using List.reverseRecOn with
    | nil =>
        rw [run_append_singleton, hstep]
        exact Or.inl hgives
    | append_singleton after e' ih =>
        rw [← List.cons_append, ← List.append_assoc, run_append_singleton, hstep]
        refine Or.inr ⟨ih fun e'' he'' => hkeeps e'' (by simp [he'']), ?_⟩
        exact hkeeps e' (by simp)

/-- The last reset of a run, if it has one, was fine. -/
def LastReset (M : Machine σ ε) (reset fine : σ → ε → Prop) (es : List ε) : Prop :=
  ∀ before e after, es = before ++ e :: after → reset (M.run before) e →
    (∀ between e' rest, after = between ++ e' :: rest →
      ¬ reset (M.run (before ++ e :: between)) e') → fine (M.run before) e

variable {reset : σ → ε → Prop}

theorem lastReset_of_reset {es : List ε} {e : ε} (h : reset (M.run es) e) :
    M.LastReset reset fine (es ++ [e]) ↔ fine (M.run es) e := by
  constructor
  · intro hlast
    exact hlast es e [] rfl h fun between e' rest heq => by simp at heq
  · intro hfine before e' after heq _ hnone
    rcases List.eq_nil_or_concat after with rfl | ⟨after', e'', rfl⟩
    · obtain ⟨rfl, hlast⟩ := List.append_inj' heq rfl
      obtain rfl := List.singleton_inj.mp hlast
      exact hfine
    · rw [List.concat_eq_append, ← List.cons_append, ← List.append_assoc] at heq
      obtain ⟨rfl, hlast⟩ := List.append_inj' heq rfl
      obtain rfl := List.singleton_inj.mp hlast
      exact absurd h (hnone after' e [] (by rw [List.concat_eq_append]))

theorem lastReset_of_not_reset {es : List ε} {e : ε} (h : ¬ reset (M.run es) e) :
    M.LastReset reset fine (es ++ [e]) ↔ M.LastReset reset fine es := by
  constructor
  · intro hlast before e' after heq hreset hnone
    refine hlast before e' (after ++ [e]) (by rw [heq, List.append_assoc, List.cons_append])
      hreset fun between e'' rest hrest => ?_
    rcases List.eq_nil_or_concat rest with rfl | ⟨rest', e₃, rfl⟩
    · obtain ⟨rfl, hend⟩ := List.append_inj' hrest rfl
      obtain rfl := List.singleton_inj.mp hend
      rwa [← heq]
    · rw [List.concat_eq_append, ← List.cons_append, ← List.append_assoc] at hrest
      exact hnone between e'' rest' (List.append_inj' hrest rfl).1
  · intro hlast before e' after heq hreset hnone
    rcases List.eq_nil_or_concat after with rfl | ⟨after', e'', rfl⟩
    · obtain ⟨rfl, hend⟩ := List.append_inj' heq rfl
      obtain rfl := List.singleton_inj.mp hend
      exact absurd hreset h
    · rw [List.concat_eq_append, ← List.cons_append, ← List.append_assoc] at heq
      obtain ⟨heq, hend⟩ := List.append_inj' heq rfl
      refine hlast before e' after' heq hreset fun between e₃ rest hrest => ?_
      exact hnone between e₃ (rest ++ [e'']) (by
        rw [List.concat_eq_append, hrest, List.append_assoc, List.cons_append])

/-- A property that a reset gives exactly when it is fine and that the other steps do
    not change, where the states with `Q` are looked at and the other steps come to
    `Q` only from `Q`. -/
theorem latch_since {I Q : σ → Prop} (hinv : ∀ es, I (M.run es)) (hinit : P M.initial)
    (hback : ∀ s e, I s → Q (M.step s e) → ¬ reset s e → Q s)
    (hkeep : ∀ s e, I s → Q (M.step s e) → ¬ reset s e → (P (M.step s e) ↔ P s))
    (hreset : ∀ s e, I s → Q (M.step s e) → reset s e → (P (M.step s e) ↔ fine s e))
    (es : List ε) (hq : Q (M.run es)) : P (M.run es) ↔ M.LastReset reset fine es := by
  induction es using List.reverseRecOn with
  | nil => exact iff_of_true hinit fun before _ _ heq => by simp at heq
  | append_singleton es e ih =>
      rw [run_append_singleton] at hq ⊢
      by_cases h : reset (M.run es) e
      · rw [lastReset_of_reset h]
        exact hreset _ e (hinv es) hq h
      · rw [lastReset_of_not_reset h, hkeep _ e (hinv es) hq h]
        exact ih (hback _ e (hinv es) hq h)

/-! ### What the steps of a run give -/

section Outputs

variable {α : Type*}

def outputsFrom (M : Machine σ ε) (out : σ → ε → List α) : σ → List ε → List α
  | _, [] => []
  | s, e :: es => out s e ++ outputsFrom M out (M.step s e) es

/-- What `out` has for each step of a run, in their order. -/
def outputs (M : Machine σ ε) (out : σ → ε → List α) (es : List ε) : List α :=
  M.outputsFrom out M.initial es

variable {out : σ → ε → List α}

theorem outputsFrom_append (s : σ) (es fs : List ε) :
    M.outputsFrom out s (es ++ fs) =
      M.outputsFrom out s es ++ M.outputsFrom out (M.runFrom s es) fs := by
  induction es generalizing s with
  | nil => rfl
  | cons e es ih => rw [List.cons_append, outputsFrom, ih, outputsFrom, List.append_assoc,
      runFrom_cons]

@[simp] theorem outputs_append_singleton (es : List ε) (e : ε) :
    M.outputs out (es ++ [e]) = M.outputs out es ++ out (M.run es) e := by
  rw [outputs, outputsFrom_append, outputsFrom, outputsFrom, List.append_nil]
  rfl

theorem mem_outputs {before : List ε} {e : ε} {x : α} (hx : x ∈ out (M.run before) e)
    (after : List ε) : x ∈ M.outputs out (before ++ e :: after) := by
  rw [outputs, outputsFrom_append, outputsFrom]
  exact List.mem_append_right _ (List.mem_append_left _ hx)

theorem forall_mem_outputs {P : α → Prop} {es : List ε}
    (h : ∀ s, ∀ e ∈ es, ∀ x ∈ out s e, P x) : ∀ x ∈ M.outputs out es, P x := by
  induction es using List.reverseRecOn with
  | nil => exact fun _ hx => nomatch hx
  | append_singleton es e ih =>
      intro x hx
      rw [outputs_append_singleton, List.mem_append] at hx
      rcases hx with hx | hx
      · exact ih (fun s e' he' => h s e' (List.mem_append_left _ he')) x hx
      · exact h _ e (List.mem_append_right _ List.mem_cons_self) x hx

theorem outputs_sublist {out' : σ → ε → List α} (h : ∀ s e, (out s e).Sublist (out' s e))
    (es : List ε) : (M.outputs out es).Sublist (M.outputs out' es) := by
  induction es using List.reverseRecOn with
  | nil => exact List.Sublist.refl []
  | append_singleton es e ih =>
      rw [outputs_append_singleton, outputs_append_singleton]
      exact ih.append (h (M.run es) e)

end Outputs

end Machine

end OpenVpnAndroid
