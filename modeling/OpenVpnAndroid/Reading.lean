/-
  OpenVpnAndroid/Reading.lean
  ===========================
  **Readers of a list.**

  A reader takes a part off the front of a list or fails.  `Reads g xs a` says that
  it takes `xs` and returns `a`, whatever follows; `After g s Q` that what it returns
  from `s` and what it leaves have the property `Q`; `Fails g s` that it returns
  nothing from `s`; `Returns g P` that what it returns from anything has the property
  `P`.  They go through sequences of readers.
-/
import Mathlib

namespace OpenVpnAndroid

universe u v

variable {ε : Type v} {α β γ : Type u}

/-- A reader of elements `γ`. -/
abbrev Reader (γ : Type u) (ε : Type v) := StateT (List γ) (Except ε)

def Reads (g : Reader γ ε α) (xs : List γ) (a : α) : Prop :=
  ∀ rest, g.run (xs ++ rest) = .ok (a, rest)

def After (g : Reader γ ε α) (s : List γ) (Q : α → List γ → Prop) : Prop :=
  ∀ a rest, g.run s = .ok (a, rest) → Q a rest

def Fails (g : Reader γ ε α) (s : List γ) : Prop := After g s fun _ _ => False

def Returns (g : Reader γ ε α) (P : α → Prop) : Prop := ∀ s, After g s fun a _ => P a

theorem Reads.pure (a : α) : Reads (Pure.pure a : Reader γ ε α) [] a := fun _ => rfl

theorem Reads.bind {g : Reader γ ε α} {f : α → Reader γ ε β} {xs ys : List γ} {a : α} {b : β}
    (hg : Reads g xs a) (hf : Reads (f a) ys b) : Reads (g >>= f) (xs ++ ys) b := by
  intro rest
  rw [StateT.run_bind, List.append_assoc, hg (ys ++ rest)]
  exact hf rest

/-- The last reader takes nothing. -/
theorem Reads.map {g : Reader γ ε α} {f : α → Reader γ ε β} {xs : List γ} {a : α} {b : β}
    (hg : Reads g xs a) (hf : Reads (f a) [] b) : Reads (g >>= f) xs b := by
  have h := hg.bind hf
  rwa [List.append_nil] at h

theorem Reads.run {g : Reader γ ε α} {xs : List γ} {a : α} (h : Reads g xs a) :
    g.run xs = .ok (a, []) := by
  have hnil := h []
  rwa [List.append_nil] at hnil

theorem Reads.run_bind {g : Reader γ ε α} {f : α → Reader γ ε β} {xs rest : List γ} {a : α}
    (hg : Reads g xs a) : (g >>= f).run (xs ++ rest) = (f a).run rest := by
  rw [StateT.run_bind, hg rest]
  rfl

/-- What follows only changes the result. -/
theorem exists_run_map (g : Reader γ ε α) (f : α → β) (s rest : List γ) :
    (∃ b, (g >>= fun a => Pure.pure (f a)).run s = .ok (b, rest)) ↔
      ∃ a, g.run s = .ok (a, rest) := by
  rw [StateT.run_bind]
  cases g.run s with
  | error e => exact iff_of_false (fun ⟨_, h⟩ => nomatch h) (fun ⟨_, h⟩ => nomatch h)
  | ok r =>
      constructor
      · rintro ⟨b, h⟩
        cases h
        exact ⟨r.1, rfl⟩
      · rintro ⟨a, h⟩
        cases h
        exact ⟨f a, rfl⟩

/-! ### What is returned and what is left -/

theorem After.pure {Q : α → List γ → Prop} {a : α} {s : List γ} (h : Q a s) :
    After (Pure.pure a : Reader γ ε α) s Q := by
  intro a' rest hrun
  cases hrun
  exact h

theorem After.throw (e : ε) (s : List γ) (Q : α → List γ → Prop) :
    After (throw e : Reader γ ε α) s Q :=
  fun _ _ hrun => nomatch hrun

theorem After.bind {g : Reader γ ε α} {f : α → Reader γ ε β} {s : List γ}
    {Q : α → List γ → Prop} {R : β → List γ → Prop} (hg : After g s Q)
    (hf : ∀ a rest, Q a rest → After (f a) rest R) : After (g >>= f) s R := by
  intro b rest hrun
  rw [StateT.run_bind] at hrun
  cases h : g.run s with
  | error e =>
      rw [h] at hrun
      cases hrun
  | ok r =>
      rw [h] at hrun
      exact hf r.1 r.2 (hg r.1 r.2 h) b rest hrun

theorem After.ite {c : Prop} [Decidable c] {g f : Reader γ ε α} {s : List γ}
    {Q : α → List γ → Prop} (hg : c → After g s Q) (hf : ¬ c → After f s Q) :
    After (if c then g else f) s Q := by
  by_cases hc : c
  · rw [if_pos hc]
    exact hg hc
  · rw [if_neg hc]
    exact hf hc

/-- After a part that was read. -/
theorem Reads.after_bind {g : Reader γ ε α} {f : α → Reader γ ε β} {xs rest : List γ} {a : α}
    {R : β → List γ → Prop} (hg : Reads g xs a) (hf : After (f a) rest R) :
    After (g >>= f) (xs ++ rest) R := by
  intro b rest' hrun
  rw [hg.run_bind] at hrun
  exact hf b rest' hrun

theorem Fails.bind {g : Reader γ ε α} {s : List γ} (h : Fails g s) (f : α → Reader γ ε β) :
    Fails (g >>= f) s :=
  After.bind h fun _ _ hfalse => hfalse.elim

theorem Fails.ne_ok {g : Reader γ ε α} {s : List γ} (h : Fails g s) (r : α × List γ) :
    g.run s ≠ .ok r :=
  fun hrun => h r.1 r.2 hrun

theorem Returns.pure {P : α → Prop} {a : α} (h : P a) :
    Returns (Pure.pure a : Reader γ ε α) P :=
  fun _ => After.pure h

theorem Returns.throw (e : ε) (P : α → Prop) : Returns (throw e : Reader γ ε α) P :=
  fun s => After.throw e s _

theorem Returns.bind {g : Reader γ ε α} {f : α → Reader γ ε β} {P : α → Prop} {Q : β → Prop}
    (hg : Returns g P) (hf : ∀ a, P a → Returns (f a) Q) : Returns (g >>= f) Q :=
  fun s => (hg s).bind fun a rest ha => hf a ha rest

theorem Returns.ite {c : Prop} [Decidable c] {g f : Reader γ ε α} {P : α → Prop}
    (hg : c → Returns g P) (hf : ¬ c → Returns f P) : Returns (if c then g else f) P :=
  fun s => After.ite (fun hc => hg hc s) fun hc => hf hc s

theorem Returns.trivial (g : Reader γ ε α) : Returns g fun _ => True :=
  fun _ _ _ _ => True.intro

end OpenVpnAndroid
