/-
  OpenVpnAndroid/CircularList.lean
  ================================
  **Circular lists of fixed capacity.**

  An array, a head and a size: a new item goes in front of the head, and when the array
  is full it takes the place of the oldest one.  `toList` is what the list holds,
  the newest item first; `toList_push` and `toList_setItem` say what the operations
  do to it.
-/
import Mathlib

namespace OpenVpnAndroid

/-- `x + y` in the indices of an array, where `y` is at most one turn in either direction. -/
def moduloAdd (x y mod : Int) : Int :=
  let sum := if mod ≤ x + y then x + y - mod else x + y
  if sum < 0 then sum + mod else sum

theorem moduloAdd_natCast {x y mod : Nat} (hx : x < mod) (hy : y ≤ mod) :
    moduloAdd x y mod = ((y + x) % mod : Nat) := by
  rcases Nat.lt_or_ge (y + x) mod with h | h
  · have hsum : ¬ (mod : Int) ≤ x + y := by omega
    have hpos : ¬ (x : Int) + y < 0 := by omega
    rw [moduloAdd, if_neg hsum, if_neg hpos, Nat.mod_eq_of_lt h]
    omega
  · have hsum : (mod : Int) ≤ x + y := by omega
    have hpos : ¬ (x : Int) + y - mod < 0 := by omega
    rw [moduloAdd, if_pos hsum, if_neg hpos, Nat.mod_eq_sub_mod h, Nat.mod_eq_of_lt (by omega)]
    omega

theorem moduloAdd_neg_one {x mod : Nat} (hx : x < mod) :
    moduloAdd x (-1) mod = ((x + (mod - 1)) % mod : Nat) := by
  have hsum : ¬ (mod : Int) ≤ x + -1 := by omega
  rcases Nat.eq_zero_or_pos x with rfl | h
  · have hneg : ((0 : Nat) : Int) + -1 < 0 := by omega
    rw [moduloAdd, if_neg hsum, if_pos hneg, Nat.mod_eq_of_lt (by omega)]
    omega
  · have hpos : ¬ (x : Int) + -1 < 0 := by omega
    rw [moduloAdd, if_neg hsum, if_neg hpos, Nat.mod_eq_sub_mod (by omega),
      Nat.mod_eq_of_lt (by omega)]
    omega

structure CircularList (α : Type*) where
  head : Nat
  size : Nat
  list : List α
  head_lt : head < list.length
  size_le : size ≤ list.length

namespace CircularList

variable {α : Type*}

/-- An empty list of `cap` items. -/
def alloc (cap : Nat) (hcap : 0 < cap) (x : α) : CircularList α :=
  ⟨0, 0, List.replicate cap x, by rw [List.length_replicate]; exact hcap, Nat.zero_le _⟩

variable (c : CircularList α)

def cap : Nat := c.list.length

def index (i : Nat) : Nat := (moduloAdd c.head i c.cap).toNat

def item (i : Nat) : Option α := if i < c.size then c.list[c.index i]? else none

def setItem (i : Nat) (x : α) : CircularList α :=
  if i < c.size then
    ⟨c.head, c.size, c.list.set (c.index i) x, by rw [List.length_set]; exact c.head_lt,
      by rw [List.length_set]; exact c.size_le⟩
  else c

/-- One before the head. -/
def before : Nat := (moduloAdd c.head (-1) c.cap).toNat

theorem before_eq : c.before = (c.head + (c.cap - 1)) % c.cap := by
  have hlt : c.head < c.cap := c.head_lt
  rw [before, moduloAdd_neg_one hlt, Int.toNat_natCast]

def push (x : α) : CircularList α :=
  ⟨c.before, min (c.size + 1) c.cap, c.list.set c.before x,
    by rw [List.length_set, before_eq]; exact Nat.mod_lt _ (Nat.zero_lt_of_lt c.head_lt),
    by rw [List.length_set]; exact Nat.min_le_right _ _⟩

def reset : CircularList α := ⟨0, 0, c.list, Nat.zero_lt_of_lt c.head_lt, Nat.zero_le _⟩

/-- The items, the newest one first. -/
def toList : List α := (c.list.rotate c.head).take c.size

variable {c}

theorem cap_pos (c : CircularList α) : 0 < c.cap := Nat.zero_lt_of_lt c.head_lt

theorem size_le_cap (c : CircularList α) : c.size ≤ c.cap := c.size_le

@[simp] theorem length_toList (c : CircularList α) : c.toList.length = c.size := by
  rw [toList, List.length_take, List.length_rotate]
  exact Nat.min_eq_left c.size_le

theorem index_eq {i : Nat} (h : i ≤ c.cap) : c.index i = (i + c.head) % c.cap := by
  have hlt : c.head < c.cap := c.head_lt
  rw [index, moduloAdd_natCast hlt h, Int.toNat_natCast]

theorem getElem?_toList {i : Nat} (h : i < c.size) :
    c.toList[i]? = c.list[(i + c.head) % c.cap]? := by
  rw [toList, List.getElem?_take_of_lt h, List.getElem?_rotate (Nat.lt_of_lt_of_le h c.size_le)]
  rfl

theorem item_eq (i : Nat) : c.item i = c.toList[i]? := by
  rw [item]
  split
  · next h => rw [index_eq (Nat.le_of_lt (Nat.lt_of_lt_of_le h c.size_le)), getElem?_toList h]
  · next h => rw [List.getElem?_eq_none (by rw [length_toList]; exact Nat.not_lt.mp h)]

/-- Two offsets of one turn lead to different places. -/
theorem add_mod_inj {i j head cap : Nat} (hi : i < cap) (hj : j < cap)
    (h : (i + head) % cap = (j + head) % cap) : i = j := by
  have hmod : i % cap = j % cap := Nat.ModEq.add_right_cancel' head h
  rwa [Nat.mod_eq_of_lt hi, Nat.mod_eq_of_lt hj] at hmod

@[simp] theorem cap_setItem (i : Nat) (x : α) : (c.setItem i x).cap = c.cap := by
  rw [setItem]
  split
  · exact List.length_set
  · rfl

@[simp] theorem head_setItem (i : Nat) (x : α) : (c.setItem i x).head = c.head := by
  rw [setItem]
  split <;> rfl

@[simp] theorem size_setItem (i : Nat) (x : α) : (c.setItem i x).size = c.size := by
  rw [setItem]
  split <;> rfl

theorem list_setItem {i : Nat} (h : i < c.size) (x : α) :
    (c.setItem i x).list = c.list.set (c.index i) x := by
  rw [setItem, if_pos h]

theorem toList_setItem {i : Nat} (h : i < c.size) (x : α) :
    (c.setItem i x).toList = c.toList.set i x := by
  have hcap : i < c.cap := Nat.lt_of_lt_of_le h c.size_le
  apply List.ext_getElem?
  intro j
  by_cases hj : j < c.size
  · have hjcap : j < c.cap := Nat.lt_of_lt_of_le hj c.size_le
    have hplace : (j + c.head) % c.cap < c.list.length := Nat.mod_lt _ c.cap_pos
    rw [getElem?_toList (by rw [size_setItem]; exact hj), cap_setItem, head_setItem, list_setItem h,
      index_eq (Nat.le_of_lt hcap), List.getElem?_set, List.getElem?_set, getElem?_toList hj]
    by_cases hij : i = j
    · subst hij
      rw [if_pos rfl, if_pos rfl, if_pos hplace, if_pos (by rw [length_toList]; exact h)]
    · rw [if_neg hij, if_neg (fun heq => hij (add_mod_inj hcap hjcap heq))]
  · rw [List.getElem?_eq_none (by rw [length_toList, size_setItem]; exact Nat.not_lt.mp hj),
      List.getElem?_eq_none (by rw [List.length_set, length_toList]; exact Nat.not_lt.mp hj)]

theorem toList_push (x : α) : (c.push x).toList = (x :: c.toList).take c.cap := by
  have hpos := c.cap_pos
  have hsize := c.size_le_cap
  have hcap : (c.push x).cap = c.cap := List.length_set
  have hturn : ∀ j, (j + 1 + c.before) % c.cap = (j + c.head) % c.cap := by
    intro j
    rw [before_eq, Nat.add_mod_mod]
    have hsum : j + 1 + (c.head + (c.cap - 1)) = j + c.head + c.cap := by omega
    rw [hsum, Nat.add_mod_right]
  have hbefore : c.before < c.cap := by
    rw [before_eq]
    exact Nat.mod_lt _ hpos
  apply List.ext_getElem?
  intro i
  by_cases hi : i < min (c.size + 1) c.cap
  · rw [getElem?_toList (by exact hi), hcap, List.getElem?_take_of_lt (by omega)]
    change (c.list.set c.before x)[(i + c.before) % c.cap]? = _
    cases i with
    | zero =>
        rw [Nat.zero_add, Nat.mod_eq_of_lt hbefore, List.getElem?_set_self hbefore]
        rfl
    | succ j =>
        have hne : c.before ≠ (j + 1 + c.before) % c.cap := by
          intro heq
          have hzero : (0 + c.before) % c.cap = (j + 1 + c.before) % c.cap := by
            rw [Nat.zero_add, Nat.mod_eq_of_lt hbefore]
            exact heq
          have := add_mod_inj hpos (by omega) hzero
          omega
        rw [List.getElem?_set_ne hne, hturn, List.getElem?_cons_succ, getElem?_toList (by omega)]
  · have hlen : (c.push x).toList.length = min (c.size + 1) c.cap := length_toList _
    rw [List.getElem?_eq_none (by rw [hlen]; exact Nat.not_lt.mp hi),
      List.getElem?_eq_none (by rw [List.length_take, List.length_cons, length_toList]; omega)]

@[simp] theorem toList_reset (c : CircularList α) : c.reset.toList = [] := List.take_zero

@[simp] theorem cap_push (x : α) : (c.push x).cap = c.cap := List.length_set

@[simp] theorem cap_reset (c : CircularList α) : c.reset.cap = c.cap := rfl

@[simp] theorem cap_alloc {n : Nat} (h : 0 < n) (x : α) : (alloc n h x).cap = n :=
  List.length_replicate

@[simp] theorem toList_alloc {n : Nat} (h : 0 < n) (x : α) : (alloc n h x).toList = [] :=
  List.take_zero

end CircularList

end OpenVpnAndroid
