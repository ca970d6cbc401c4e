/-
  OpenVpnAndroid/Commands.lean
  ============================
  **Commands with a state and exceptions**, and the rules for what they keep.

  `Yields E V x` says that `x` stops only for a reason in `E`, and otherwise
  returns a value in `V`.  `Keeps I E V m` says the same of a command that runs on
  states with the invariant `I`, and that it keeps the invariant.  With `E` true
  everywhere these are partial correctness.
-/
import Mathlib

namespace OpenVpnAndroid

namespace Commands

variable {σ ε α β : Type}

/-! ### Results -/

@[simp] theorem ok_bind {a : α} {f : α → Except ε β} : ((.ok a : Except ε α) >>= f) = f a := rfl

@[simp] theorem error_bind {e : ε} {f : α → Except ε β} :
    ((.error e : Except ε α) >>= f) = .error e := rfl

/-- A result came from the first command and then from the second. -/
theorem ok_of_bind {x : Except ε α} {f : α → Except ε β} {b : β} (h : (x >>= f) = .ok b) :
    ∃ a, x = .ok a ∧ f a = .ok b := by
  cases x with
  | error e => cases h
  | ok a => exact ⟨a, rfl, h⟩

def Yields (E : ε → Prop) (V : α → Prop) : Except ε α → Prop
  | .ok a => V a
  | .error e => E e

section Yields

variable {E : ε → Prop} {V : α → Prop} {W : β → Prop}

@[simp] theorem yields_ok {a : α} : Yields E V (.ok a) ↔ V a := Iff.rfl

@[simp] theorem yields_pure {a : α} : Yields E V (pure a) ↔ V a := Iff.rfl

@[simp] theorem yields_error {e : ε} : Yields E V (.error e) ↔ E e := Iff.rfl

theorem yields_bind {x : Except ε α} {f : α → Except ε β} :
    Yields E W (x >>= f) ↔ Yields E (fun a => Yields E W (f a)) x := by
  cases x <;> exact Iff.rfl

theorem Yields.mono {V' : α → Prop} {x : Except ε α} (h : Yields E V x)
    (hV : ∀ a, V a → V' a) : Yields E V' x := by
  cases x with
  | error e => exact h
  | ok a => exact hV a h

theorem Yields.bind {x : Except ε α} {f : α → Except ε β} (hx : Yields E V x)
    (hf : ∀ a, V a → Yields E W (f a)) : Yields E W (x >>= f) :=
  yields_bind.mpr (hx.mono hf)

theorem Yields.trivial {x : Except ε α} (h : Yields E V x) : Yields E (fun _ => True) x :=
  h.mono fun _ _ => True.intro

theorem yields_map {f : α → β} {x : Except ε α} :
    Yields E W (x.map f) ↔ Yields E (fun a => W (f a)) x := by
  cases x <;> exact Iff.rfl

theorem Yields.ite {c : Prop} [Decidable c] {x y : Except ε α} (h : c → Yields E V x)
    (h' : ¬c → Yields E V y) : Yields E V (if c then x else y) := by
  split
  · exact h ‹_›
  · exact h' ‹_›

/-- A `mapM` stops at the first element for which the function stops. -/
theorem yields_mapM {f : α → Except ε β} {l : List α} :
    Yields E (fun _ => True) (l.mapM f) ↔
      ∀ before a after, l = before ++ a :: after → (∀ b ∈ before, ∃ v, f b = .ok v) →
        Yields E (fun _ => True) (f a) := by
  induction l with
  | nil =>
      refine ⟨fun _ before a after h => ?_, fun _ => True.intro⟩
      cases before <;> cases h
  | cons a l ih =>
      rw [List.mapM_cons]
      cases hfa : f a with
      | error e =>
          constructor
          · intro he before b after h hbefore
            cases before with
            | nil =>
                rw [← (List.cons.inj h).1, hfa]
                exact he
            | cons c before =>
                obtain ⟨v, hv⟩ := hbefore a ((List.cons.inj h).1 ▸ List.mem_cons_self)
                cases hfa.symm.trans hv
          · intro h
            have := h [] a l rfl fun b hb => absurd hb List.not_mem_nil
            rw [hfa] at this
            exact this
      | ok v =>
          have hrest : Yields E (fun _ => True) (l.mapM f >>= fun vs => pure (v :: vs)) ↔
              Yields E (fun _ => True) (l.mapM f) := by
            rw [yields_bind]
            exact ⟨Yields.trivial, Yields.trivial⟩
          rw [ok_bind, hrest, ih]
          constructor
          · intro h before b after hl hbefore
            cases before with
            | nil =>
                rw [← (List.cons.inj hl).1, hfa]
                exact True.intro
            | cons c before =>
                exact h before b after (List.cons.inj hl).2 fun d hd =>
                  hbefore d (List.mem_cons_of_mem _ hd)
          · intro h before b after hl hbefore
            refine h (a :: before) b after (by rw [hl]; rfl) fun d hd => ?_
            rcases List.mem_cons.mp hd with rfl | hd
            · exact ⟨v, hfa⟩
            · exact hbefore d hd

theorem Yields.mapM {f : α → Except ε β} {l : List α}
    (h : ∀ a ∈ l, Yields E (fun _ => True) (f a)) : Yields E (fun _ => True) (l.mapM f) :=
  yields_mapM.mpr fun before a after hl _ => h a (by rw [hl]; simp)

/-- What every step of the loop keeps. -/
theorem Yields.foldlM_keeps {I : σ → Prop} {f : σ → α → Except ε σ} {l : List α}
    (h : ∀ s, ∀ a ∈ l, I s → Yields E I (f s a)) {s : σ} (hs : I s) :
    Yields E I (l.foldlM f s) := by
  induction l generalizing s with
  | nil => exact hs
  | cons a l ih =>
      rw [List.foldlM_cons]
      refine Yields.bind (h s a List.mem_cons_self hs) fun s' hs' => ?_
      exact ih (fun s a ha => h s a (List.mem_cons_of_mem _ ha)) hs'

theorem Yields.foldlM {f : σ → α → Except ε σ} {l : List α}
    (h : ∀ s, ∀ a ∈ l, Yields E (fun _ => True) (f s a)) (s : σ) :
    Yields E (fun _ => True) (l.foldlM f s) :=
  Yields.foldlM_keeps (fun s a ha _ => h s a ha) True.intro

end Yields

/-! ### Running commands -/

section Run

variable {m : StateT σ (Except ε) α} {f : α → StateT σ (Except ε) β} {s s' : σ} {a : α} {e : ε}

theorem bind_ok (h : m s = .ok (a, s')) : (m >>= f) s = f a s' := by
  change (m s >>= fun r => f r.1 r.2) = _
  rw [h]
  rfl

theorem bind_error (h : m s = .error e) : (m >>= f) s = .error e := by
  change (m s >>= fun r => f r.1 r.2) = _
  rw [h]
  rfl

theorem lift_ok {x : Except ε α} (h : x = .ok a) :
    (liftM x : StateT σ (Except ε) α) s = .ok (a, s) := by
  rw [h]
  rfl

theorem lift_error {x : Except ε α} (h : x = .error e) :
    (liftM x : StateT σ (Except ε) α) s = .error e := by
  rw [h]
  rfl

end Run

/-! ### What commands keep -/

/-- A run of `m` from a state with `I`. -/
def Keeps (I : σ → Prop) (E : ε → Prop) (V : α → Prop) (m : StateT σ (Except ε) α) : Prop :=
  ∀ s, I s → Yields E (fun r => V r.1 ∧ I r.2) (m s)

section Keeps

variable {I : σ → Prop} {E : ε → Prop} {V : α → Prop} {W : β → Prop}

theorem Keeps.pure {a : α} (h : V a) : Keeps I E V (pure a) := fun _ hs => ⟨h, hs⟩

theorem Keeps.bind {m : StateT σ (Except ε) α} {f : α → StateT σ (Except ε) β}
    (hm : Keeps I E V m) (hf : ∀ a, V a → Keeps I E W (f a)) : Keeps I E W (m >>= f) := by
  intro s hs
  exact Yields.bind (hm s hs) fun r hr => hf r.1 hr.1 r.2 hr.2

theorem Keeps.mono {V' : α → Prop} {m : StateT σ (Except ε) α} (h : Keeps I E V m)
    (hV : ∀ a, V a → V' a) : Keeps I E V' m :=
  fun s hs => (h s hs).mono fun _ hr => ⟨hV _ hr.1, hr.2⟩

theorem Keeps.trivial {m : StateT σ (Except ε) α} (h : Keeps I E V m) :
    Keeps I E (fun _ => True) m :=
  h.mono fun _ _ => True.intro

theorem Keeps.lift {x : Except ε α} (h : Yields E V x) :
    Keeps I E V (liftM x : StateT σ (Except ε) α) := by
  intro s hs
  cases x with
  | error e => exact h
  | ok a => exact ⟨h, hs⟩

theorem Keeps.get : Keeps I E I (get : StateT σ (Except ε) σ) := fun _ hs => ⟨hs, hs⟩

theorem Keeps.modify {f : σ → σ} (h : ∀ s, I s → I (f s)) :
    Keeps I E (fun _ => True) (modify f : StateT σ (Except ε) PUnit) :=
  fun s hs => ⟨True.intro, h s hs⟩

theorem Keeps.ite {c : Prop} [Decidable c] {m m' : StateT σ (Except ε) α}
    (h : c → Keeps I E V m) (h' : ¬c → Keeps I E V m') : Keeps I E V (if c then m else m') := by
  split
  · exact h ‹_›
  · exact h' ‹_›

/-- Partial correctness: the command may stop for any reason. -/
abbrev Preserves (I : σ → Prop) (m : StateT σ (Except ε) α) : Prop :=
  Keeps I (fun _ => True) (fun _ => True) m

theorem Preserves.lift (x : Except ε α) : Preserves I (liftM x : StateT σ (Except ε) α) := by
  refine Keeps.lift ?_
  cases x with
  | error e => exact True.intro
  | ok a => exact True.intro

theorem Preserves.lift_bind {x : Except ε α} {f : α → StateT σ (Except ε) β}
    (hf : ∀ a, x = .ok a → Preserves I (f a)) :
    Preserves I ((liftM x : StateT σ (Except ε) α) >>= f) := by
  refine Keeps.bind (V := fun a => x = .ok a) (Keeps.lift ?_) hf
  cases x with
  | error e => exact True.intro
  | ok a => exact rfl

theorem Preserves.of_ok {m : StateT σ (Except ε) α} (h : Preserves I m) {s s' : σ} {a : α}
    (hs : I s) (hm : m s = .ok (a, s')) : I s' := by
  have := h s hs
  rw [hm] at this
  exact this.2

end Keeps

end Commands

end OpenVpnAndroid
