/-
  OpenVpnAndroid/Regex.lean
  =========================
  **Regular expressions that backtrack and capture groups.**

  `ways` lists the ways to match the beginning of a text in the order in which a
  backtracking matcher tries them; a whole text is matched by the first way that leaves
  nothing.  A group that is matched again keeps its last text only.

  `First` is the way that is tried first.  Where it leaves nothing there is no
  backtracking (`fullMatch_of_first`).  `Allows` bounds what a way can have passed over,
  whichever it is (`passed_of_mem_ways`).
-/
import OpenVpnAndroid.JavaText

namespace OpenVpnAndroid

inductive Regex where
  | char (p : Char → Bool)
  | seq (first second : Regex)
  /-- as often as possible; the body is not to match an empty text -/
  | star (body : Regex)
  /-- the same, at least once -/
  | plus (body : Regex)
  | group (n : Nat) (body : Regex)

namespace Regex

/-- What is left of the text, and the groups. -/
structure Position where
  rest : Text
  groups : Nat → Option Text

/-- The body again, as long as there is fuel. -/
def loop (body : Position → List Position) : Nat → Position → List Position
  | 0, s => [s]
  | fuel + 1, s => (body s).flatMap (loop body fuel) ++ [s]

def one (p : Char → Bool) : Position → List Position
  | ⟨[], _⟩ => []
  | ⟨c :: rest, groups⟩ => if p c then [⟨rest, groups⟩] else []

def ways : Regex → Position → List Position
  | char p, s => one p s
  | seq first second, s => (first.ways s).flatMap second.ways
  | star body, s => loop body.ways s.rest.length s
  | plus body, s => (body.ways s).flatMap (loop body.ways s.rest.length)
  | group n body, s =>
      (body.ways s).map fun t =>
        { t with
          groups := Function.update t.groups n
            (some (s.rest.take (s.rest.length - t.rest.length))) }

/-- The groups when the whole text matches. -/
def fullMatch (r : Regex) (text : Text) : Option (Nat → Option Text) :=
  ((r.ways ⟨text, fun _ => none⟩).find? fun t => t.rest.isEmpty).map Position.groups

/-! ### What a way has passed over -/

/-- The characters that the expression has a place for. -/
def Allows : Regex → Char → Prop
  | char p, c => p c = true
  | seq first second, c => first.Allows c ∨ second.Allows c
  | star body, c => body.Allows c
  | plus body, c => body.Allows c
  | group _ body, c => body.Allows c

/-- The way from one position to another is over characters with `P`. -/
def Passes (P : Char → Prop) (s t : Position) : Prop :=
  ∃ u, s.rest = u ++ t.rest ∧ ∀ c ∈ u, P c

theorem Passes.refl (P : Char → Prop) (s : Position) : Passes P s s :=
  ⟨[], rfl, fun _ h => nomatch h⟩

theorem Passes.trans {P : Char → Prop} {s t t' : Position} (h : Passes P s t)
    (h' : Passes P t t') : Passes P s t' := by
  obtain ⟨u, hu, hall⟩ := h
  obtain ⟨u', hu', hall'⟩ := h'
  refine ⟨u ++ u', by rw [hu, hu', List.append_assoc], fun c hc => ?_⟩
  rcases List.mem_append.mp hc with hc | hc
  · exact hall c hc
  · exact hall' c hc

theorem Passes.mono {P Q : Char → Prop} {s t : Position} (h : Passes P s t)
    (hPQ : ∀ c, P c → Q c) : Passes Q s t := by
  obtain ⟨u, hu, hall⟩ := h
  exact ⟨u, hu, fun c hc => hPQ c (hall c hc)⟩

theorem passes_loop {P : Char → Prop} {body : Position → List Position}
    (hbody : ∀ s, ∀ t ∈ body s, Passes P s t) (fuel : Nat) (s : Position) :
    ∀ t ∈ loop body fuel s, Passes P s t := by
  induction fuel generalizing s with
  | zero =>
      intro t ht
      rw [loop, List.mem_singleton] at ht
      rw [ht]
      exact Passes.refl P s
  | succ fuel ih =>
      intro t ht
      rw [loop, List.mem_append, List.mem_flatMap, List.mem_singleton] at ht
      rcases ht with ⟨t', ht', ht⟩ | rfl
      · exact (hbody s t' ht').trans (ih t' t ht)
      · exact Passes.refl P t

theorem passed_of_mem_ways (r : Regex) (s : Position) : ∀ t ∈ r.ways s, Passes r.Allows s t := by
  induction r generalizing s with
  | char p =>
      intro t ht
      obtain ⟨rest, groups⟩ := s
      cases rest with
      | nil => cases ht
      | cons c rest =>
          rw [ways, one] at ht
          split at ht
          · rename_i hp
            rw [List.mem_singleton.mp ht]
            refine ⟨[c], rfl, fun c' hc' => ?_⟩
            rwa [List.mem_singleton.mp hc']
          · cases ht
  | seq first second ihfirst ihsecond =>
      intro t ht
      obtain ⟨t', ht', ht⟩ := List.mem_flatMap.mp ht
      exact ((ihfirst s t' ht').mono fun _ => Or.inl).trans
        ((ihsecond t' t ht).mono fun _ => Or.inr)
  | star body ih => exact passes_loop ih _ s
  | plus body ih =>
      intro t ht
      obtain ⟨t', ht', ht⟩ := List.mem_flatMap.mp ht
      exact (ih s t' ht').trans (passes_loop ih _ t' t ht)
  | group n body ih =>
      intro t ht
      obtain ⟨t', ht', rfl⟩ := List.mem_map.mp ht
      obtain ⟨u, hu, hall⟩ := ih s t' ht'
      exact ⟨u, hu, hall⟩

/-- A character without a place keeps the text from matching. -/
theorem fullMatch_eq_none {r : Regex} {text : Text} {c : Char} (hc : c ∈ text)
    (hallows : ¬r.Allows c) : r.fullMatch text = none := by
  rw [fullMatch, Option.map_eq_none_iff, List.find?_eq_none]
  intro t ht hempty
  obtain ⟨u, hu, hall⟩ := passed_of_mem_ways r _ t ht
  rw [List.isEmpty_iff.mp hempty, List.append_nil] at hu
  exact hallows (hall c (hu ▸ hc))

/-! ### The way that is tried first -/

def First (body : Position → List Position) (s t : Position) : Prop :=
  ∃ others, body s = t :: others

theorem fullMatch_of_first {r : Regex} {text : Text} {groups : Nat → Option Text}
    (h : First r.ways ⟨text, fun _ => none⟩ ⟨[], groups⟩) : r.fullMatch text = some groups := by
  obtain ⟨others, h⟩ := h
  rw [fullMatch, h, List.find?_cons_of_pos rfl]
  rfl

theorem first_flatMap {body body' : Position → List Position} {s t t' : Position}
    (h : First body s t) (h' : First body' t t') :
    ∃ others, (body s).flatMap body' = t' :: others := by
  obtain ⟨others, h⟩ := h
  obtain ⟨others', h'⟩ := h'
  refine ⟨others' ++ others.flatMap body', ?_⟩
  rw [h, List.flatMap_cons, h', List.cons_append]

theorem first_seq {first second : Regex} {s t t' : Position} (h : First first.ways s t)
    (h' : First second.ways t t') : First (seq first second).ways s t' :=
  first_flatMap h h'

theorem first_plus {body : Regex} {s t t' : Position} (h : First body.ways s t)
    (h' : First (loop body.ways s.rest.length) t t') : First (plus body).ways s t' :=
  first_flatMap h h'

theorem first_char {p : Char → Bool} {c : Char} (hc : p c = true) (rest : Text)
    (groups : Nat → Option Text) :
    First (char p).ways ⟨c :: rest, groups⟩ ⟨rest, groups⟩ :=
  ⟨[], by rw [ways, one, if_pos hc]⟩

theorem first_group {body : Regex} {n : Nat} {u rest : Text} {groups groups' : Nat → Option Text}
    (h : First body.ways ⟨u ++ rest, groups⟩ ⟨rest, groups'⟩) :
    First (group n body).ways ⟨u ++ rest, groups⟩
      ⟨rest, Function.update groups' n (some u)⟩ := by
  obtain ⟨others, h⟩ := h
  have htaken : (u ++ rest).take ((u ++ rest).length - rest.length) = u := by simp
  rw [First, ways, h, List.map_cons, htaken]
  exact ⟨_, rfl⟩

/-- One round more. -/
theorem first_loop {body : Position → List Position} {fuel : Nat} {s t t' : Position}
    (h : First body s t) (h' : First (loop body fuel) t t') :
    First (loop body (fuel + 1)) s t' := by
  obtain ⟨others, h⟩ := first_flatMap h h'
  refine ⟨others ++ [s], ?_⟩
  rw [loop, h, List.cons_append]

/-- The end of the loop. -/
theorem first_loop_stop {body : Position → List Position} {fuel : Nat} {s : Position}
    (h : body s = []) : First (loop body fuel) s s := by
  cases fuel with
  | zero => exact ⟨[], rfl⟩
  | succ fuel => exact ⟨[], by rw [loop, h]; rfl⟩

/-- The text does not go on with such a character. -/
def Stops (p : Char → Bool) (rest : Text) : Prop := ∀ c, rest.head? = some c → p c = false

theorem ways_char_of_stops {p : Char → Bool} {rest : Text} (h : Stops p rest)
    (groups : Nat → Option Text) : (char p).ways ⟨rest, groups⟩ = [] := by
  cases rest with
  | nil => rfl
  | cons c rest => rw [ways, one, if_neg (by rw [h c rfl]; exact Bool.false_ne_true)]

/-- A loop over a class takes all it can. -/
theorem first_loop_char {p : Char → Bool} {u rest : Text} (hu : ∀ c ∈ u, p c = true)
    (hrest : Stops p rest) (groups : Nat → Option Text) {fuel : Nat} (hfuel : u.length ≤ fuel) :
    First (loop (char p).ways fuel) ⟨u ++ rest, groups⟩ ⟨rest, groups⟩ := by
  induction u generalizing fuel with
  | nil => exact first_loop_stop (ways_char_of_stops hrest groups)
  | cons c u ih =>
      cases fuel with
      | zero => simp at hfuel
      | succ fuel =>
          have hstep := first_char (hu c List.mem_cons_self) (u ++ rest) groups
          exact first_loop hstep (ih (fun x hx => hu x (List.mem_cons_of_mem c hx))
            (Nat.le_of_succ_le_succ hfuel))

theorem first_star_char {p : Char → Bool} {u rest : Text} (hu : ∀ c ∈ u, p c = true)
    (hrest : Stops p rest) (groups : Nat → Option Text) :
    First (star (char p)).ways ⟨u ++ rest, groups⟩ ⟨rest, groups⟩ :=
  first_loop_char hu hrest groups (by simp)

theorem first_plus_char {p : Char → Bool} {u rest : Text} (hu : ∀ c ∈ u, p c = true)
    (hne : u ≠ []) (hrest : Stops p rest) (groups : Nat → Option Text) :
    First (plus (char p)).ways ⟨u ++ rest, groups⟩ ⟨rest, groups⟩ := by
  cases u with
  | nil => exact absurd rfl hne
  | cons c u =>
      refine first_plus (first_char (hu c List.mem_cons_self) (u ++ rest) groups) ?_
      exact first_loop_char (fun x hx => hu x (List.mem_cons_of_mem c hx)) hrest groups
        (by simp; omega)

theorem first_group_char {p : Char → Bool} {c : Char} (hc : p c = true) (n : Nat) (rest : Text)
    (groups : Nat → Option Text) :
    First (group n (char p)).ways ⟨c :: rest, groups⟩
      ⟨rest, Function.update groups n (some [c])⟩ :=
  first_group (u := [c]) (first_char hc rest groups)

theorem ways_group_of_stops {p : Char → Bool} {rest : Text} (h : Stops p rest) (n : Nat)
    (groups : Nat → Option Text) : (group n (char p)).ways ⟨rest, groups⟩ = [] := by
  rw [ways, ways_char_of_stops h]
  rfl

/-- A group inside of a loop is left with the last character. -/
theorem first_loop_group {p : Char → Bool} {u rest : Text} {last : Char}
    (hu : ∀ c ∈ u ++ [last], p c = true) (hrest : Stops p rest) (n : Nat)
    (groups : Nat → Option Text) {fuel : Nat} (hfuel : u.length < fuel) :
    First (loop (group n (char p)).ways fuel) ⟨u ++ last :: rest, groups⟩
      ⟨rest, Function.update groups n (some [last])⟩ := by
  induction u generalizing fuel groups with
  | nil =>
      obtain ⟨fuel, rfl⟩ := Nat.exists_eq_succ_of_ne_zero (Nat.ne_of_gt hfuel)
      exact first_loop (first_group_char (hu last (by simp)) n rest groups)
        (first_loop_stop (ways_group_of_stops hrest n _))
  | cons c u ih =>
      obtain ⟨fuel, rfl⟩ := Nat.exists_eq_succ_of_ne_zero (Nat.ne_of_gt (Nat.zero_lt_of_lt hfuel))
      have hnext := ih (fun x hx => hu x (List.mem_cons_of_mem c hx))
        (Function.update groups n (some [c])) (Nat.lt_of_succ_lt_succ hfuel)
      rw [Function.update_idem] at hnext
      exact first_loop (first_group_char (hu c (by simp)) n _ groups) hnext

theorem first_plus_group {p : Char → Bool} {u rest : Text} {last : Char}
    (hu : ∀ c ∈ u ++ [last], p c = true) (hrest : Stops p rest) (n : Nat)
    (groups : Nat → Option Text) :
    First (plus (group n (char p))).ways ⟨u ++ last :: rest, groups⟩
      ⟨rest, Function.update groups n (some [last])⟩ := by
  cases u with
  | nil =>
      exact first_plus (first_group_char (hu last (by simp)) n rest groups)
        (first_loop_stop (ways_group_of_stops hrest n _))
  | cons c u =>
      have hloop := first_loop_group (fun x hx => hu x (List.mem_cons_of_mem c hx)) hrest n
        (Function.update groups n (some [c]))
        (show u.length < (c :: (u ++ last :: rest)).length by
          rw [List.length_cons, List.length_append]
          omega)
      rw [Function.update_idem] at hloop
      exact first_plus (first_group_char (hu c (by simp)) n _ groups) hloop

end Regex

end OpenVpnAndroid
