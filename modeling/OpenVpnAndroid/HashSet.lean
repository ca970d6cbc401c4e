/-
  OpenVpnAndroid/HashSet.lean
  ===========================
  **Hash sets with iterators that fail fast.**

  The elements are listed in the order in which the table is walked; after an element
  is added the order may be another one.  Every change is counted, and an iterator
  compares the count before it gives an element.  So a loop whose body changes the set
  ends with an exception, unless it was in its last round (`forEach_modified`,
  `forEach_singleton`).
-/
import Mathlib

namespace OpenVpnAndroid

/-- The order in which a table with some elements is walked. -/
structure Arrangement (α : Type) where
  arrange : List α → List α
  perm : ∀ xs, (arrange xs).Perm xs

/-- `java.util.HashSet` -/
structure HashSet (α : Type) where
  elements : List α
  nodup : elements.Nodup
  modCount : BitVec 32

namespace HashSet

variable {α : Type}

def empty : HashSet α := ⟨[], List.nodup_nil, 0⟩

def size (s : HashSet α) : Nat := s.elements.length

theorem size_eq_zero {s : HashSet α} : s.size = 0 ↔ s.elements = [] :=
  List.length_eq_zero_iff

section Changes

variable [DecidableEq α]

def add (s : HashSet α) (arrangement : Arrangement α) (x : α) : HashSet α :=
  if h : x ∈ s.elements then s
  else
    { elements := arrangement.arrange (x :: s.elements)
      nodup := (arrangement.perm _).nodup_iff.mpr (List.nodup_cons.mpr ⟨h, s.nodup⟩)
      modCount := s.modCount + 1 }

def remove (s : HashSet α) (x : α) : HashSet α :=
  if x ∈ s.elements then ⟨s.elements.erase x, s.nodup.erase x, s.modCount + 1⟩ else s

theorem add_elements_ne_nil (s : HashSet α) (arrangement : Arrangement α) (x : α) :
    (s.add arrangement x).elements ≠ [] := by
  rw [add]
  split
  · next h => exact List.ne_nil_of_mem h
  · intro hnil
    have hperm := (arrangement.perm (x :: s.elements)).length_eq
    rw [show arrangement.arrange (x :: s.elements) = [] from hnil] at hperm
    cases hperm

theorem remove_elements (s : HashSet α) (x : α) : (s.remove x).elements = s.elements.erase x := by
  rw [remove]
  split
  · rfl
  · next h => exact (List.erase_of_not_mem h).symm

/-- Removing an element is counted. -/
theorem remove_modCount_ne {s : HashSet α} {x : α} (hx : x ∈ s.elements) :
    (s.remove x).modCount ≠ s.modCount := by
  rw [remove, if_pos hx]
  simp

end Changes

/-! ### Loops -/

section Loop

variable {σ ε : Type}

/-- The rounds of a loop, with what the iterator has still to give.  `set` is where the
    set is in the state, `modified` is the exception of the iterator. -/
def loop (set : σ → HashSet α) (modified : ε) (body : α → EStateM ε σ Unit)
    (expectedModCount : BitVec 32) : List α → EStateM ε σ Unit
  | [] => pure ()
  | x :: xs => do
      if (set (← get)).modCount ≠ expectedModCount then throw modified
      body x
      loop set modified body expectedModCount xs

/-- `for (T x : set) body(x)` -/
def forEach (set : σ → HashSet α) (modified : ε) (body : α → EStateM ε σ Unit) :
    EStateM ε σ Unit := do
  let s ← get
  loop set modified body (set s).modCount (set s).elements

/-- The state that a handler leaves, also with an exception. -/
def left {β : Type} : EStateM.Result ε σ β → σ
  | .ok _ s => s
  | .error _ s => s

variable {set : σ → HashSet α} {modified : ε} {body : α → EStateM ε σ Unit} {s s' : σ}
  {expected : BitVec 32}

theorem loop_cons (x : α) (xs : List α) (hcount : (set s).modCount = expected) :
    loop set modified body expected (x :: xs) s =
      match body x s with
      | .ok _ s' => loop set modified body expected xs s'
      | .error e s' => .error e s' := by
  simp only [loop, bind, EStateM.bind, get, getThe, MonadStateOf.get, EStateM.get, hcount,
    ne_eq, not_true_eq_false, if_false]
  cases body x s <;> rfl

theorem loop_cons_modified (x : α) (xs : List α) (hcount : (set s).modCount ≠ expected) :
    loop set modified body expected (x :: xs) s = .error modified s := by
  simp [loop, bind, EStateM.bind, get, getThe, MonadStateOf.get, EStateM.get, hcount,
    throw, throwThe, MonadExceptOf.throw, EStateM.throw]

theorem forEach_eq (s : σ) : forEach set modified body s =
    loop set modified body (set s).modCount (set s).elements s := rfl

/-- What the first keeps, and the rest after it, both keep. -/
theorem left_bind_invariant {β γ : Type} {I : σ → Prop} {first : EStateM ε σ β}
    {rest : β → EStateM ε σ γ} (hfirst : I (left (first s)))
    (hrest : ∀ b s, I s → I (left (rest b s))) : I (left ((first >>= rest) s)) := by
  change I (left (EStateM.bind first rest s))
  rw [EStateM.bind]
  split
  · next hok =>
      rw [hok] at hfirst
      exact hrest _ _ hfirst
  · next herror =>
      rw [herror] at hfirst
      exact hfirst

/-- What every round keeps the loop keeps. -/
theorem forEach_invariant {I : σ → Prop} (hbody : ∀ x s, I s → I (left (body x s)))
    (hs : I s) : I (left (forEach set modified body s)) := by
  rw [forEach_eq]
  generalize (set s).modCount = expected
  induction (set s).elements generalizing s with
  | nil => exact hs
  | cons x xs ih =>
      by_cases hcount : (set s).modCount = expected
      · have hround := hbody x s hs
        rw [loop_cons x xs hcount]
        split
        · next hok =>
            rw [hok] at hround
            exact ih hround
        · next herror =>
            rw [herror] at hround
            exact hround
      · rw [loop_cons_modified x xs hcount]
        exact hs

/-- Rounds that leave the set alone. -/
theorem forEach_of_keeps (f : α → σ → σ) (hbody : ∀ x s, body x s = .ok () (f x s))
    (hset : ∀ x s, set (f x s) = set s) (s : σ) :
    forEach set modified body s = .ok () ((set s).elements.foldl (fun s x => f x s) s) := by
  have hloop : ∀ (xs : List α) (s : σ), loop set modified body (set s).modCount xs s =
      .ok () (xs.foldl (fun s x => f x s) s) := by
    intro xs
    induction xs with
    | nil => exact fun _ => rfl
    | cons x xs ih =>
        intro s
        rw [loop_cons x xs rfl, hbody]
        have hnext := ih (f x s)
        rw [hset] at hnext
        exact hnext
  exact hloop _ s

/-- In its last round a loop may change the set. -/
theorem forEach_singleton {x : α} (h : (set s).elements = [x]) :
    forEach set modified body s = body x s := by
  rw [forEach_eq, h, loop_cons x [] rfl]
  cases body x s <;> rfl

/-- In another round it may not. -/
theorem forEach_modified {x y : α} {xs : List α} (h : (set s).elements = x :: y :: xs)
    (hbody : body x s = .ok () s') (hcount : (set s').modCount ≠ (set s).modCount) :
    forEach set modified body s = .error modified s' := by
  rw [forEach_eq, h, loop_cons x _ rfl, hbody]
  exact loop_cons_modified y xs hcount

end Loop

end HashSet

end OpenVpnAndroid
