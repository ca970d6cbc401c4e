/-
  OpenVpnAndroid/ReplayWindow.lean
  ================================
  **What the replay window accepts.**

  The log of a run has the packets that were accepted, with the clock, and the passes of
  `packet_id_reap`.  `Inv` says what the slots of the window are in terms of the log;
  from it a packet is accepted exactly when it is `Fresh` (`checkReplay_iff_fresh`), whatever
  came before in whatever order, and none is accepted twice (`nodup_accepted`).
-/
import OpenVpnAndroid.PacketId

namespace OpenVpnAndroid

namespace PacketIdRec

/-! ### The loops -/

theorem toNat_add_one {id target : PacketId} (h : id < target) :
    (id + 1).toNat = id.toNat + 1 := by
  have hlt := UInt32.lt_iff_toNat_lt.mp h
  have hmax := target.toNat_lt
  rw [UInt32.toNat_add]
  exact Nat.mod_eq_of_lt (by have hone : (1 : UInt32).toNat = 1 := rfl; omega)

/-- The loop goes up to the id, with one new slot for each id on the way. -/
theorem advance_eq (target : PacketId) (id : PacketId) (seq_list : CircularList Nat) (rounds : Nat)
    (h : target.toNat - id.toNat ≤ rounds) :
    ((advance target rounds id seq_list).1 = if id < target then target else id) ∧
      (advance target rounds id seq_list).2.cap = seq_list.cap ∧
      (advance target rounds id seq_list).2.toList =
        (List.replicate (target.toNat - id.toNat) SEQ_UNSEEN ++ seq_list.toList).take
          seq_list.cap := by
  have hstay : ∀ seq_list : CircularList Nat,
      seq_list.toList = seq_list.toList.take seq_list.cap := by
    intro seq_list
    rw [List.take_of_length_le]
    rw [CircularList.length_toList]
    exact seq_list.size_le_cap
  induction rounds generalizing id seq_list with
  | zero =>
      have hle : ¬ id < target := by rw [UInt32.lt_iff_toNat_lt]; omega
      have hzero : target.toNat - id.toNat = 0 := by omega
      rw [advance, if_neg hle, hzero, List.replicate_zero, List.nil_append]
      exact ⟨rfl, rfl, hstay _⟩
  | succ rounds ih =>
      rw [advance]
      by_cases hlt : id < target
      · have hnext := toNat_add_one hlt
        have hnat := UInt32.lt_iff_toNat_lt.mp hlt
        obtain ⟨hid, hcap, hslots⟩ := ih (id + 1) (seq_list.push SEQ_UNSEEN) (by omega)
        rw [if_pos hlt]
        refine ⟨?_, ?_, ?_⟩
        · rw [hid, if_pos hlt]
          split
          · rfl
          · next hge =>
              rw [UInt32.lt_iff_toNat_lt, hnext] at hge
              exact UInt32.toNat.inj (by omega)
        · rw [hcap, CircularList.cap_push]
        · obtain ⟨n, hn⟩ : ∃ n, target.toNat - id.toNat = n + 1 :=
            ⟨target.toNat - id.toNat - 1, by omega⟩
          have hn' : target.toNat - (id + 1).toNat = n := by omega
          rw [hslots, CircularList.cap_push, CircularList.toList_push, hn, hn', List.replicate_succ',
            List.append_assoc, List.singleton_append, List.take_append, List.take_append,
            List.take_take, Nat.min_eq_left (Nat.sub_le _ _)]
      · have hle : ¬ id.toNat < target.toNat := fun hn => hlt (UInt32.lt_iff_toNat_lt.mpr hn)
        have hzero : target.toNat - id.toNat = 0 := by omega
        rw [if_neg hlt, if_neg hlt, hzero, List.replicate_zero, List.nil_append]
        exact ⟨rfl, rfl, hstay _⟩

/-- What `packet_id_reap` does to the slots. -/
def reapSlots (time_backtrack now : Nat) : Bool → List Nat → List Nat
  | _, [] => []
  | expire, t :: slots =>
      if t = SEQ_EXPIRED then t :: slots
      else if expire || (t != 0 && decide (t + time_backtrack < now)) then
        SEQ_EXPIRED :: reapSlots time_backtrack now true slots
      else t :: reapSlots time_backtrack now false slots

theorem toList_reapFrom (time_backtrack now : Nat) (items i : Nat) (expire : Bool)
    (seq_list : CircularList Nat) (h : i + items = seq_list.size) :
    (reapFrom time_backtrack now items i expire seq_list).cap = seq_list.cap ∧
      (reapFrom time_backtrack now items i expire seq_list).toList =
        seq_list.toList.take i ++
          reapSlots time_backtrack now expire (seq_list.toList.drop i) := by
  induction items generalizing i expire seq_list with
  | zero =>
      have hlen : seq_list.toList.length ≤ i := by rw [CircularList.length_toList]; omega
      rw [reapFrom, List.drop_of_length_le hlen, List.take_of_length_le hlen, reapSlots,
        List.append_nil]
      exact ⟨rfl, rfl⟩
  | succ items ih =>
      have hi : i < seq_list.toList.length := by rw [CircularList.length_toList]; omega
      have hsize : i < seq_list.size := by omega
      have hdrop := List.drop_eq_getElem_cons hi
      have hitem : seq_list.item i = some seq_list.toList[i] := by
        rw [CircularList.item_eq, List.getElem?_eq_getElem hi]
      rw [reapFrom, hitem, hdrop, reapSlots]
      dsimp only
      split
      · rw [← hdrop, List.take_append_drop]
        exact ⟨rfl, rfl⟩
      · split
        · obtain ⟨hcap, hslots⟩ := ih (i + 1) true (seq_list.setItem i SEQ_EXPIRED)
            (by rw [CircularList.size_setItem]; omega)
          refine ⟨by rw [hcap, CircularList.cap_setItem], ?_⟩
          rw [hslots, CircularList.toList_setItem hsize, List.drop_set_of_lt (Nat.lt_succ_self i),
            List.take_add_one, List.getElem?_set_self hi, List.take_set_of_le (Nat.le_refl i)]
          simp only [Option.toList_some, List.append_assoc, List.singleton_append]
        · obtain ⟨hcap, hslots⟩ := ih (i + 1) false seq_list (by omega)
          refine ⟨hcap, ?_⟩
          rw [hslots, List.take_add_one, List.getElem?_eq_getElem hi]
          simp only [Option.toList_some, List.append_assoc, List.singleton_append]

/-- In one of the slots up to `d` is an arrival that is too long ago. -/
def Past (time_backtrack now : Nat) (slots : List Nat) (d : Nat) : Prop :=
  ∃ d' t, d' ≤ d ∧ slots[d']? = some t ∧ t ≠ SEQ_UNSEEN ∧ t ≠ SEQ_EXPIRED ∧ t + time_backtrack < now

theorem past_zero_iff {time_backtrack now t : Nat} {slots : List Nat} (ht : t ≠ SEQ_EXPIRED) :
    Past time_backtrack now (t :: slots) 0 ↔ t ≠ SEQ_UNSEEN ∧ t + time_backtrack < now := by
  constructor
  · rintro ⟨d', t', hle, ht', hne, -, hlt⟩
    obtain rfl := Nat.le_zero.mp hle
    rw [List.getElem?_cons_zero, Option.some.injEq] at ht'
    subst ht'
    exact ⟨hne, hlt⟩
  · rintro ⟨hne, hlt⟩
    exact ⟨0, t, Nat.le_refl 0, List.getElem?_cons_zero, hne, ht, hlt⟩

theorem past_succ_iff {time_backtrack now t d : Nat} {slots : List Nat} (ht : t ≠ SEQ_EXPIRED) :
    Past time_backtrack now (t :: slots) (d + 1) ↔
      (t ≠ SEQ_UNSEEN ∧ t + time_backtrack < now) ∨ Past time_backtrack now slots d := by
  constructor
  · rintro ⟨d', t', hle, ht', hne, hne', hlt⟩
    cases d' with
    | zero =>
        rw [List.getElem?_cons_zero, Option.some.injEq] at ht'
        subst ht'
        exact .inl ⟨hne, hlt⟩
    | succ d' =>
        rw [List.getElem?_cons_succ] at ht'
        exact .inr ⟨d', t', Nat.le_of_succ_le_succ hle, ht', hne, hne', hlt⟩
  · rintro (⟨hne, hlt⟩ | ⟨d', t', hle, ht', hne, hne', hlt⟩)
    · exact ⟨0, t, Nat.zero_le _, List.getElem?_cons_zero, hne, ht, hlt⟩
    · exact ⟨d' + 1, t', Nat.succ_le_succ hle, by rw [List.getElem?_cons_succ]; exact ht', hne, hne',
        hlt⟩

/-- A slot is expired behind one whose time has come. -/
theorem getElem?_reapSlots (time_backtrack now : Nat) (expire : Bool) {slots : List Nat}
    (hdown : ∀ d d', d ≤ d' → d' < slots.length → slots[d]? = some SEQ_EXPIRED →
      slots[d']? = some SEQ_EXPIRED) {d t : Nat} (ht : slots[d]? = some t) :
    (t = SEQ_EXPIRED ∨ expire = true ∨ Past time_backtrack now slots d →
        (reapSlots time_backtrack now expire slots)[d]? = some SEQ_EXPIRED) ∧
      (¬ (t = SEQ_EXPIRED ∨ expire = true ∨ Past time_backtrack now slots d) →
        (reapSlots time_backtrack now expire slots)[d]? = some t) := by
  induction slots generalizing expire d with
  | nil => cases ht
  | cons t₀ slots ih =>
      have hdown' : ∀ d d', d ≤ d' → d' < slots.length → slots[d]? = some SEQ_EXPIRED →
          slots[d']? = some SEQ_EXPIRED := by
        intro d d' hle hlt hd
        have hshift := hdown (d + 1) (d' + 1) (by omega) (by rw [List.length_cons]; omega)
        rw [List.getElem?_cons_succ, List.getElem?_cons_succ] at hshift
        exact hshift hd
      rw [reapSlots]
      split
      · -- everything behind an expired slot is expired already
        next h₀ =>
          have hlt := (List.getElem?_eq_some_iff.mp ht).1
          have hexpired := hdown 0 d (Nat.zero_le d) hlt (by rw [List.getElem?_cons_zero, h₀])
          rw [hexpired] at ht ⊢
          exact ⟨fun _ => rfl, fun _ => ht⟩
      · next h₀ =>
          have hcond : (expire || (t₀ != 0 && decide (t₀ + time_backtrack < now))) = true ↔
              expire = true ∨ t₀ ≠ SEQ_UNSEEN ∧ t₀ + time_backtrack < now := by
            rw [Bool.or_eq_true, Bool.and_eq_true, bne_iff_ne, decide_eq_true_eq, SEQ_UNSEEN]
          cases d with
          | zero =>
              rw [List.getElem?_cons_zero, Option.some.injEq] at ht
              subst ht
              rw [past_zero_iff h₀, or_iff_right h₀]
              split
              · next hexpire => exact ⟨fun _ => rfl, fun hnone => absurd (hcond.mp hexpire) hnone⟩
              · next hexpire =>
                  exact ⟨fun hsome => absurd (hcond.mpr hsome) hexpire, fun _ => rfl⟩
          | succ d =>
              rw [List.getElem?_cons_succ] at ht
              rw [past_succ_iff h₀]
              split
              · next hexpire =>
                  have hrest := (ih true hdown' ht).1 (.inr (.inl rfl))
                  refine ⟨fun _ => hrest, fun hnone => absurd (.inr ?_) hnone⟩
                  exact (hcond.mp hexpire).imp_right .inl
              · next hexpire =>
                  rw [hcond, not_or] at hexpire
                  obtain ⟨hyes, hno⟩ := ih false hdown' ht
                  rw [or_iff_right Bool.false_ne_true] at hyes hno
                  rw [or_iff_right hexpire.1, or_iff_right hexpire.2]
                  exact ⟨hyes, hno⟩

/-! ### The log -/

inductive LogEntry
  | accepted (now : Nat) (pin : PacketIdNet)
  | reaped (now : Nat)
deriving DecidableEq

/-- The packet was accepted. -/
def Accepted (log : List LogEntry) (pin : PacketIdNet) : Prop := ∃ now, .accepted now pin ∈ log

/-- When a pass of `packet_id_reap` came, this id or a later one of its sequence had been there
    for more than `time_backtrack` seconds. -/
def Expired (time_backtrack : Nat) (log : List LogEntry) (pin : PacketIdNet) : Prop :=
  0 < time_backtrack ∧ ∃ arrival later now, [.accepted arrival later, .reaped now].Sublist log ∧
    later.time = pin.time ∧ pin.id ≤ later.id ∧ arrival + time_backtrack < now

/-- A packet that is to be accepted: not too late, and not for the second time. -/
structure Fresh (seq_backtrack time_backtrack : Nat) (log : List LogEntry) (pin : PacketIdNet) :
    Prop where
  id_ne : pin.id ≠ 0
  time_le : ∀ q, Accepted log q → q.time ≤ pin.time
  window : ∀ q, Accepted log q → q.time = pin.time → q.id.toNat < pin.id.toNat + seq_backtrack
  unseen : ¬ Accepted log pin
  unexpired : ¬ Expired time_backtrack log pin

/-- No packet was accepted twice. -/
def Once (log : List LogEntry) : Prop :=
  log.Pairwise fun x y => ∀ now now' pin, x = .accepted now pin → y = .accepted now' pin → False

theorem pair_sublist_concat {α : Type*} {a b c : α} {l : List α} :
    [a, b].Sublist (l ++ [c]) ↔ [a, b].Sublist l ∨ a ∈ l ∧ b = c := by
  rw [← List.reverse_sublist, List.reverse_append, ← @List.reverse_sublist _ _ l]
  change [b, a].Sublist (c :: l.reverse) ↔ [b, a].Sublist l.reverse ∨ a ∈ l ∧ b = c
  constructor
  · intro h
    rcases List.sublist_cons_iff.mp h with h | ⟨rest, hrest, h⟩
    · exact .inl h
    · obtain ⟨rfl, rfl⟩ := List.cons.inj hrest
      exact .inr ⟨List.mem_reverse.mp (List.singleton_sublist.mp h), rfl⟩
  · rintro (h | ⟨ha, rfl⟩)
    · exact h.cons c
    · exact (List.singleton_sublist.mpr (List.mem_reverse.mpr ha)).cons_cons b

theorem accepted_append {log : List LogEntry} {e : LogEntry} {q : PacketIdNet} :
    Accepted (log ++ [e]) q ↔ Accepted log q ∨ ∃ now, e = .accepted now q := by
  constructor
  · rintro ⟨now, h⟩
    rcases List.mem_append.mp h with h | h
    · exact .inl ⟨now, h⟩
    · exact .inr ⟨now, (List.mem_singleton.mp h).symm⟩
  · rintro (⟨now, h⟩ | ⟨now, rfl⟩)
    · exact ⟨now, List.mem_append_left _ h⟩
    · exact ⟨now, List.mem_append_right _ (List.mem_singleton_self _)⟩

theorem accepted_append_reaped {log : List LogEntry} {now : Nat} {q : PacketIdNet} :
    Accepted (log ++ [.reaped now]) q ↔ Accepted log q := by
  rw [accepted_append, or_iff_left]
  rintro ⟨now', h⟩
  cases h

theorem accepted_append_accepted {log : List LogEntry} {now : Nat} {pin q : PacketIdNet} :
    Accepted (log ++ [.accepted now pin]) q ↔ Accepted log q ∨ q = pin := by
  rw [accepted_append]
  refine or_congr_right ⟨?_, ?_⟩
  · rintro ⟨now', h⟩
    cases h
    rfl
  · rintro rfl
    exact ⟨now, rfl⟩

theorem expired_append_accepted {time_backtrack now : Nat} {log : List LogEntry}
    {pin q : PacketIdNet} :
    Expired time_backtrack (log ++ [.accepted now pin]) q ↔ Expired time_backtrack log q := by
  constructor
  · rintro ⟨hpos, arrival, later, now', hpair, hrest⟩
    rcases pair_sublist_concat.mp hpair with hpair | ⟨-, heq⟩
    · exact ⟨hpos, arrival, later, now', hpair, hrest⟩
    · cases heq
  · rintro ⟨hpos, arrival, later, now', hpair, hrest⟩
    exact ⟨hpos, arrival, later, now', pair_sublist_concat.mpr (.inl hpair), hrest⟩

theorem expired_append_reaped {time_backtrack now : Nat} {log : List LogEntry} {q : PacketIdNet} :
    Expired time_backtrack (log ++ [.reaped now]) q ↔ Expired time_backtrack log q ∨
      (0 < time_backtrack ∧ ∃ arrival later, .accepted arrival later ∈ log ∧
        later.time = q.time ∧ q.id ≤ later.id ∧ arrival + time_backtrack < now) := by
  constructor
  · rintro ⟨hpos, arrival, later, now', hpair, hrest⟩
    rcases pair_sublist_concat.mp hpair with hpair | ⟨hmem, heq⟩
    · exact .inl ⟨hpos, arrival, later, now', hpair, hrest⟩
    · cases heq
      exact .inr ⟨hpos, arrival, later, hmem, hrest⟩
  · rintro (⟨hpos, arrival, later, now', hpair, hrest⟩ | ⟨hpos, arrival, later, hmem, hrest⟩)
    · exact ⟨hpos, arrival, later, now', pair_sublist_concat.mpr (.inl hpair), hrest⟩
    · exact ⟨hpos, arrival, later, now, pair_sublist_concat.mpr (.inr ⟨hmem, rfl⟩), hrest⟩

/-- What expired was, or something after it, accepted. -/
theorem Expired.accepted {time_backtrack : Nat} {log : List LogEntry} {q : PacketIdNet}
    (h : Expired time_backtrack log q) :
    ∃ later, Accepted log later ∧ later.time = q.time ∧ q.id ≤ later.id := by
  obtain ⟨-, arrival, later, now, hpair, htime, hid, -⟩ := h
  exact ⟨later, ⟨arrival, hpair.subset List.mem_cons_self⟩, htime, hid⟩

theorem Expired.of_le {time_backtrack : Nat} {log : List LogEntry} {q q' : PacketIdNet}
    (h : Expired time_backtrack log q) (htime : q.time = q'.time) (hid : q'.id ≤ q.id) :
    Expired time_backtrack log q' := by
  obtain ⟨hpos, arrival, later, now, hpair, hsame, hle, hlt⟩ := h
  exact ⟨hpos, arrival, later, now, hpair, hsame.trans htime, UInt32.le_trans hid hle, hlt⟩

theorem Once.arrival_eq {log : List LogEntry} (h : Once log) {now now' : Nat} {pin : PacketIdNet}
    (h₁ : .accepted now pin ∈ log) (h₂ : .accepted now' pin ∈ log) : now = now' := by
  by_contra hne
  have hsymm : Std.Symm (fun x y : LogEntry =>
      ∀ now now' pin, x = .accepted now pin → y = .accepted now' pin → False) :=
    ⟨fun x y hxy now now' pin hy hx => hxy now' now pin hx hy⟩
  have hentries : LogEntry.accepted now pin ≠ .accepted now' pin := by
    intro heq
    injection heq with hnow
    exact hne hnow
  exact h.forall h₁ h₂ hentries now now' pin rfl rfl

theorem Once.append_reaped {log : List LogEntry} (h : Once log) (now : Nat) :
    Once (log ++ [.reaped now]) := by
  rw [Once, List.pairwise_append]
  refine ⟨h, List.pairwise_singleton _ _, fun x _ y hy now₁ now₂ pin _ heq => ?_⟩
  rw [List.mem_singleton.mp hy] at heq
  cases heq

theorem Once.append_accepted {log : List LogEntry} (h : Once log) {pin : PacketIdNet}
    (hpin : ¬ Accepted log pin) (now : Nat) : Once (log ++ [.accepted now pin]) := by
  rw [Once, List.pairwise_append]
  refine ⟨h, List.pairwise_singleton _ _, fun x hx y hy now₁ now₂ pin' hx' hy' => ?_⟩
  rw [List.mem_singleton.mp hy] at hy'
  injection hy' with _ hsame
  subst hsame
  exact hpin ⟨now₁, hx' ▸ hx⟩

/-! ### The slots -/

/-- What the slot of a packet says about it. -/
inductive Slot (time_backtrack : Nat) (log : List LogEntry) (pin : PacketIdNet) : Nat → Prop
  | expired (h : Expired time_backtrack log pin) : Slot time_backtrack log pin SEQ_EXPIRED
  | unseen (h : ¬ Expired time_backtrack log pin) (hnot : ¬ Accepted log pin) :
      Slot time_backtrack log pin SEQ_UNSEEN
  | seen (t : Nat) (ht : SEQ_EXPIRED < t) (h : ¬ Expired time_backtrack log pin)
      (hmem : .accepted t pin ∈ log) : Slot time_backtrack log pin t

/-- The window and the log. -/
structure Inv (time_backtrack : Nat) (log : List LogEntry) (p : PacketIdRec)
    (seq_list : CircularList Nat) : Prop where
  list : p.seq_list = some seq_list
  backtrack : p.time_backtrack = time_backtrack
  cap_lt : seq_list.cap < 2 ^ 32
  size : seq_list.size = min seq_list.cap p.id.toNat
  before : ∀ q, Accepted log q →
    q.id ≠ 0 ∧ (q.time < p.time ∨ q.time = p.time ∧ q.id ≤ p.id)
  slots : ∀ (id : PacketId) d t, id.toNat + d = p.id.toNat → seq_list.toList[d]? = some t →
    Slot time_backtrack log ⟨id, p.time⟩ t
  once : Once log

/-- The highest id is that of a packet, or nothing was accepted. -/
def Top (log : List LogEntry) (p : PacketIdRec) : Prop :=
  Accepted log ⟨p.id, p.time⟩ ∨ (p.id = 0 ∧ p.time = 0 ∧ ∀ q, ¬ Accepted log q)

variable {time_backtrack : Nat} {log : List LogEntry} {p : PacketIdRec}
  {seq_list : CircularList Nat} {pin : PacketIdNet}

theorem Slot.eq_unseen {t : Nat} (h : Slot time_backtrack log pin t)
    (hexpired : ¬ Expired time_backtrack log pin) (hnot : ¬ Accepted log pin) : t = SEQ_UNSEEN := by
  cases h with
  | expired h => exact absurd h hexpired
  | unseen => rfl
  | seen t ht h hmem => exact absurd ⟨t, hmem⟩ hnot

theorem Slot.expired_iff {t : Nat} (h : Slot time_backtrack log pin t) :
    t = SEQ_EXPIRED ↔ Expired time_backtrack log pin := by
  cases h with
  | expired h => exact iff_of_true rfl h
  | unseen h hnot => exact iff_of_false (by decide) h
  | seen t ht h hmem => exact iff_of_false (Nat.ne_of_gt ht) h

/-- The id of the slot at the distance `d` from the highest one. -/
theorem toNat_sub_add {id : PacketId} {d : Nat} (h : d ≤ id.toNat) :
    (UInt32.ofNat (id.toNat - d)).toNat + d = id.toNat := by
  have hlt := id.toNat_lt
  rw [UInt32.toNat_ofNat', Nat.mod_eq_of_lt (by omega)]
  omega

theorem Inv.lt_of_slot (h : Inv time_backtrack log p seq_list) {d t : Nat}
    (ht : seq_list.toList[d]? = some t) : d < seq_list.cap ∧ d < p.id.toNat := by
  have hlt := (List.getElem?_eq_some_iff.mp ht).1
  rw [CircularList.length_toList, h.size] at hlt
  omega

theorem length_reapSlots (time_backtrack now : Nat) (expire : Bool) (slots : List Nat) :
    (reapSlots time_backtrack now expire slots).length = slots.length := by
  induction slots generalizing expire with
  | nil => rfl
  | cons t slots ih =>
      rw [reapSlots]
      split
      · rfl
      · split
        · rw [List.length_cons, ih, List.length_cons]
        · rw [List.length_cons, ih, List.length_cons]

/-- Behind an expired slot there are only expired ones. -/
theorem Inv.down (h : Inv time_backtrack log p seq_list) (d d' : Nat) (hle : d ≤ d')
    (hlt : d' < seq_list.toList.length) (hd : seq_list.toList[d]? = some SEQ_EXPIRED) :
    seq_list.toList[d']? = some SEQ_EXPIRED := by
  have hd' := List.getElem?_eq_getElem hlt
  have hid := toNat_sub_add (Nat.le_of_lt (h.lt_of_slot hd).2)
  have hid' := toNat_sub_add (Nat.le_of_lt (h.lt_of_slot hd').2)
  have hearlier : UInt32.ofNat (p.id.toNat - d') ≤ UInt32.ofNat (p.id.toNat - d) := by
    rw [UInt32.le_iff_toNat_le]
    omega
  have hexpired : Expired time_backtrack log ⟨UInt32.ofNat (p.id.toNat - d'), p.time⟩ :=
    ((h.slots _ d _ hid hd).expired_iff.mp rfl).of_le rfl hearlier
  rw [hd', (h.slots _ d' _ hid' hd').expired_iff.mpr hexpired]

/-- The arrivals in the slots are those of the log. -/
theorem Inv.past_iff (h : Inv time_backtrack log p seq_list) (hpos : 0 < time_backtrack)
    (now : Nat) {id : PacketId} {d t : Nat} (hid : id.toNat + d = p.id.toNat)
    (ht : seq_list.toList[d]? = some t) :
    t = SEQ_EXPIRED ∨ Past time_backtrack now seq_list.toList d ↔
      Expired time_backtrack (log ++ [.reaped now]) ⟨id, p.time⟩ := by
  rw [expired_append_reaped, (h.slots id d t hid ht).expired_iff]
  constructor
  · rintro (hexpired | ⟨d', t₁, hle, ht₁, hne, hne', hlt⟩)
    · exact .inl hexpired
    · have hid₁ := toNat_sub_add (Nat.le_of_lt (h.lt_of_slot ht₁).2)
      have hlater : id ≤ UInt32.ofNat (p.id.toNat - d') := by
        rw [UInt32.le_iff_toNat_le]
        omega
      cases h.slots _ d' t₁ hid₁ ht₁ with
      | expired => exact absurd rfl hne'
      | unseen => exact absurd rfl hne
      | seen t₁ ht₁ hnot hmem => exact .inr ⟨hpos, t₁, _, hmem, rfl, hlater, hlt⟩
  · rintro (hexpired | ⟨-, arrival, later, hmem, htime, hle, hlt⟩)
    · exact .inl hexpired
    · dsimp only at hle htime
      have hle' : later.id ≤ p.id := by
        rcases (h.before later ⟨arrival, hmem⟩).2 with hearly | ⟨-, hle'⟩
        · exact absurd htime (Nat.ne_of_lt hearly)
        · exact hle'
      have hnat := UInt32.le_iff_toNat_le.mp hle
      have hnat' := UInt32.le_iff_toNat_le.mp hle'
      have hd := (List.getElem?_eq_some_iff.mp ht).1
      obtain ⟨t₁, ht₁⟩ : ∃ t₁, seq_list.toList[p.id.toNat - later.id.toNat]? = some t₁ :=
        ⟨_, List.getElem?_eq_getElem (by omega)⟩
      have hslot := h.slots later.id _ t₁ (by omega) ht₁
      have hlater : (⟨later.id, p.time⟩ : PacketIdNet) = later := by rw [← htime]
      rw [hlater] at hslot
      cases hslot with
      | expired hexpired => exact .inl (hexpired.of_le htime hle)
      | unseen _ hnot => exact absurd ⟨arrival, hmem⟩ hnot
      | seen _ hseen _ hmem₁ =>
          obtain rfl := h.once.arrival_eq hmem hmem₁
          exact .inr ⟨_, arrival, by omega, ht₁, Nat.ne_of_gt (Nat.lt_trans Nat.zero_lt_one hseen),
            Nat.ne_of_gt hseen, hlt⟩

/-- A pass of `packet_id_reap` expires what the log says. -/
theorem Inv.reap (h : Inv time_backtrack log p seq_list) (now : Nat) :
    ∃ seq_list', Inv time_backtrack (log ++ [.reaped now]) (p.reap now) seq_list' ∧
      seq_list'.cap = seq_list.cap := by
  have hlist := h.list
  have hbacktrack := h.backtrack
  have hkeep : ∀ q t, Slot time_backtrack log q t →
      ¬ Expired time_backtrack (log ++ [.reaped now]) q →
      Slot time_backtrack (log ++ [.reaped now]) q t := by
    intro q t hslot hnot
    cases hslot with
    | expired hx => exact absurd (expired_append_reaped.mpr (.inl hx)) hnot
    | unseen _ hunseen => exact .unseen hnot fun hx => hunseen (accepted_append_reaped.mp hx)
    | seen t ht _ hmem => exact .seen t ht hnot (List.mem_append_left _ hmem)
  have hbefore : ∀ q, Accepted (log ++ [.reaped now]) q →
      q.id ≠ 0 ∧ (q.time < p.time ∨ q.time = p.time ∧ q.id ≤ p.id) :=
    fun q hq => h.before q (accepted_append_reaped.mp hq)
  by_cases hzero : p.time_backtrack = 0
  · have hnever : ∀ q, ¬ Expired time_backtrack (log ++ [.reaped now]) q := by
      rintro q ⟨hpos, -⟩
      omega
    refine ⟨seq_list, ?_, rfl⟩
    exact
      { h with
        list := by rw [PacketIdRec.reap, if_pos hzero]; exact hlist
        before := hbefore
        slots := fun id d t hid ht => hkeep _ t (h.slots id d t hid ht) (hnever _)
        once := h.once.append_reaped now }
  · have hpos : 0 < time_backtrack := by omega
    obtain ⟨hcap, hslots⟩ := toList_reapFrom time_backtrack now seq_list.size 0 false seq_list
      (Nat.zero_add _)
    rw [List.take_zero, List.drop_zero, List.nil_append] at hslots
    have hsize : (reapFrom time_backtrack now seq_list.size 0 false seq_list).size =
        seq_list.size := by
      rw [← CircularList.length_toList, hslots, length_reapSlots, CircularList.length_toList]
    refine ⟨reapFrom time_backtrack now seq_list.size 0 false seq_list, ?_, hcap⟩
    exact
      { list := by
          rw [PacketIdRec.reap, if_neg hzero, hlist, hbacktrack]
          rfl
        backtrack := hbacktrack
        cap_lt := by rw [hcap]; exact h.cap_lt
        size := by rw [hsize, hcap]; exact h.size
        before := hbefore
        slots := by
          intro id d t' hid ht'
          have hid' : id.toNat + d = p.id.toNat := hid
          obtain ⟨t, ht⟩ : ∃ t, seq_list.toList[d]? = some t := by
            have hlt := (List.getElem?_eq_some_iff.mp ht').1
            rw [CircularList.length_toList, hsize, ← CircularList.length_toList] at hlt
            exact ⟨_, List.getElem?_eq_getElem hlt⟩
          obtain ⟨hyes, hno⟩ := getElem?_reapSlots time_backtrack now false h.down ht
          rw [or_iff_right Bool.false_ne_true, h.past_iff hpos now hid' ht, ← hslots] at hyes hno
          change Slot time_backtrack _ ⟨id, p.time⟩ t'
          by_cases hexpired : Expired time_backtrack (log ++ [.reaped now]) ⟨id, p.time⟩
          · rw [hyes hexpired, Option.some.injEq] at ht'
            rw [← ht']
            exact .expired hexpired
          · rw [hno hexpired, Option.some.injEq] at ht'
            rw [← ht']
            exact hkeep _ t (h.slots id d t hid' ht) hexpired
        once := h.once.append_reaped now }

/-- **The test.**  In the window a packet is fine exactly when it is fresh. -/
theorem Inv.test_iff (h : Inv time_backtrack log p seq_list) (htop : Top log p) :
    p.test pin = true ↔ Fresh seq_list.cap time_backtrack log pin := by
  have hlist := h.list
  have hcap := seq_list.cap_pos
  rw [PacketIdRec.test]
  by_cases hid : pin.id = 0
  · rw [if_pos hid]
    exact iff_of_false Bool.false_ne_true fun hfresh => hfresh.id_ne hid
  rw [if_neg hid, hlist]
  dsimp only
  -- what was accepted before a packet that is later than all
  have hnew : (∀ q, Accepted log q → q.time ≤ pin.time) →
      (∀ q, Accepted log q → q.time = pin.time → q.id < pin.id) →
      Fresh seq_list.cap time_backtrack log pin := by
    intro htime hlt
    refine ⟨hid, htime, fun q hq hsame => ?_, fun hpin => ?_, fun hexpired => ?_⟩
    · have := UInt32.lt_iff_toNat_lt.mp (hlt q hq hsame)
      omega
    · exact absurd (hlt pin hpin rfl) (UInt32.lt_irrefl _)
    · obtain ⟨later, hlater, hsame, hle⟩ := hexpired.accepted
      exact absurd (hlt later hlater hsame) (UInt32.not_lt.mpr hle)
  by_cases hsame : pin.time = p.time
  · rw [if_pos hsame]
    have htime : ∀ q, Accepted log q → q.time ≤ pin.time := by
      intro q hq
      rcases (h.before q hq).2 with hlt | ⟨heq, -⟩
      · omega
      · omega
    have hle : ∀ q, Accepted log q → q.time = pin.time → q.id ≤ p.id := by
      intro q hq hqtime
      rcases (h.before q hq).2 with hlt | ⟨-, hle⟩
      · omega
      · exact hle
    by_cases hlater : p.id < pin.id
    · rw [if_pos hlater]
      exact iff_of_true rfl (hnew htime fun q hq hqtime =>
        UInt32.lt_of_le_of_lt (hle q hq hqtime) hlater)
    · rw [if_neg hlater]
      have hge : pin.id ≤ p.id := UInt32.not_lt.mp hlater
      have hdiff : (p.id - pin.id).toNat = p.id.toNat - pin.id.toNat :=
        UInt32.toNat_sub_of_le _ _ hge
      have hnat := UInt32.le_iff_toNat_le.mp hge
      have hpos : 0 < pin.id.toNat := by
        rw [Nat.pos_iff_ne_zero]
        exact fun h0 => hid (UInt32.toNat.inj h0)
      have hsize := h.size
      rw [hdiff]
      by_cases hfar : seq_list.size ≤ p.id.toNat - pin.id.toNat
      · rw [if_pos hfar]
        refine iff_of_false Bool.false_ne_true fun hfresh => ?_
        rcases htop with htop | ⟨hzero, -, -⟩
        · have hwindow := hfresh.window _ htop hsame.symm
          dsimp only at hwindow
          omega
        · rw [hzero] at hnat
          have hzeroNat : (0 : PacketId).toNat = 0 := rfl
          omega
      · rw [if_neg hfar]
        have hlt : p.id.toNat - pin.id.toNat < seq_list.toList.length := by
          rw [CircularList.length_toList]
          omega
        have hitem : seq_list.item (p.id.toNat - pin.id.toNat) =
            some seq_list.toList[p.id.toNat - pin.id.toNat] := by
          rw [CircularList.item_eq, List.getElem?_eq_getElem hlt]
        have hslot := h.slots pin.id _ _ (by omega) (List.getElem?_eq_getElem hlt)
        have hpin : (⟨pin.id, p.time⟩ : PacketIdNet) = pin := by rw [← hsame]
        rw [hpin] at hslot
        rw [hitem, beq_iff_eq, Option.some.injEq]
        constructor
        · intro hzero
          rw [hzero] at hslot
          have hstate : ¬ Expired time_backtrack log pin ∧ ¬ Accepted log pin := by
            generalize ht : (0 : Nat) = t at hslot
            cases hslot with
            | expired => cases ht
            | unseen hexpired hnot => exact ⟨hexpired, hnot⟩
            | seen t hseen => subst ht; exact absurd hseen (by decide)
          refine ⟨hid, htime, fun q hq hqtime => ?_, hstate.2, hstate.1⟩
          have hqle := UInt32.le_iff_toNat_le.mp (hle q hq hqtime)
          omega
        · exact fun hfresh => hslot.eq_unseen hfresh.unexpired hfresh.unseen
  · rw [if_neg hsame]
    by_cases hbefore : pin.time < p.time
    · rw [if_pos hbefore]
      refine iff_of_false Bool.false_ne_true fun hfresh => ?_
      rcases htop with htop | ⟨-, hzero, -⟩
      · have htime := hfresh.time_le _ htop
        dsimp only at htime
        omega
      · omega
    · rw [if_neg hbefore]
      refine iff_of_true rfl (hnew (fun q hq => ?_) (fun q hq hqtime => ?_))
      · rcases (h.before q hq).2 with hlt | ⟨heq, -⟩ <;> omega
      · rcases (h.before q hq).2 with hlt | ⟨heq, -⟩ <;> omega

/-- The highest id once a packet was accepted. -/
def highest (p : PacketIdRec) (pin : PacketIdNet) : PacketId :=
  if p.time < pin.time ∨ p.id < pin.id then pin.id else p.id

theorem Top.time_le (h : Top log p) (hfresh : Fresh seq_list.cap time_backtrack log pin) :
    p.time ≤ pin.time := by
  rcases h with htop | ⟨-, hzero, -⟩
  · exact hfresh.time_le _ htop
  · omega

/-- Where a new sequence starts nothing of the new window was there before. -/
theorem Inv.before_restart (h : Inv time_backtrack log p seq_list) (htop : Top log p)
    (hcond : seq_list.size = 0 ∨ p.time < pin.time ∨
      ((UInt32.ofNat seq_list.cap) ≤ pin.id ∧ p.id < pin.id - .ofNat seq_list.cap))
    (q : PacketIdNet) (hq : Accepted log q) (hsame : q.time = pin.time)
    (htime : p.time ≤ pin.time) : q.id.toNat + seq_list.cap < pin.id.toNat := by
  have hsize := h.size
  have hcap := seq_list.cap_pos
  have hbefore := h.before q hq
  rcases hcond with hempty | hlater | ⟨hge, hjump⟩
  · have hzero : p.id = 0 := UInt32.toNat.inj (by have h0 : (0 : PacketId).toNat = 0 := rfl; omega)
    rcases htop with htop | ⟨-, -, hnone⟩
    · exact absurd hzero (h.before _ htop).1
    · exact absurd hq (hnone q)
  · rcases hbefore.2 with hlt | ⟨heq, -⟩ <;> omega
  · have hle : q.id ≤ p.id := by
      rcases hbefore.2 with hlt | ⟨-, hle⟩
      · omega
      · exact hle
    have hcast : (UInt32.ofNat seq_list.cap).toNat = seq_list.cap := by
      rw [UInt32.toNat_ofNat', Nat.mod_eq_of_lt h.cap_lt]
    rw [UInt32.lt_iff_toNat_lt, UInt32.toNat_sub_of_le _ _ hge, hcast] at hjump
    rw [UInt32.le_iff_toNat_le] at hle
    omega

/-- The slots after the loop, before the clock value is written. -/
theorem Inv.advanced (h : Inv time_backtrack log p seq_list) (htop : Top log p)
    (hfresh : Fresh seq_list.cap time_backtrack log pin) (now : Nat) :
    ∃ seq_list', seq_list'.cap = seq_list.cap ∧
      p.add now pin = { p with
        time := pin.time
        id := highest p pin
        seq_list := some (mark now (highest p pin) pin seq_list') } ∧
      Inv time_backtrack log { p with
        time := pin.time
        id := highest p pin
        seq_list := some seq_list' } seq_list' := by
  have hlist := h.list
  have hsize := h.size
  have hcap := seq_list.cap_pos
  have htime := htop.time_le hfresh
  have hpos : 0 < pin.id.toNat := by
    rw [Nat.pos_iff_ne_zero]
    exact fun h0 => hfresh.id_ne (UInt32.toNat.inj h0)
  have hcast : (UInt32.ofNat seq_list.cap).toNat = seq_list.cap := by
    rw [UInt32.toNat_ofNat', Nat.mod_eq_of_lt h.cap_lt]
  -- a new slot, for an id that nothing of the log reaches
  have hunseen : ∀ id : PacketId,
      (∀ q, Accepted log q → q.time = pin.time → q.id.toNat < id.toNat) →
      Slot time_backtrack log ⟨id, pin.time⟩ SEQ_UNSEEN := by
    intro id hid
    refine .unseen (fun hexpired => ?_) (fun haccepted => ?_)
    · obtain ⟨later, hlater, hsame, hle⟩ := hexpired.accepted
      have hlt := hid later hlater hsame
      have hge := UInt32.le_iff_toNat_le.mp hle
      dsimp only at hge
      omega
    · exact absurd (hid _ haccepted rfl) (Nat.lt_irrefl _)
  have hbefore : ∀ q, Accepted log q →
      q.id ≠ 0 ∧ (q.time < pin.time ∨ q.time = pin.time ∧ q.id ≤ highest p pin) := by
    intro q hq
    obtain ⟨hne, hwhere⟩ := h.before q hq
    refine ⟨hne, ?_⟩
    rcases Nat.lt_or_ge q.time pin.time with hlt | hge
    · exact .inl hlt
    · have hqtime := hfresh.time_le q hq
      refine .inr ⟨by omega, ?_⟩
      have hle : q.id ≤ p.id := by
        rcases hwhere with hlt | ⟨-, hle⟩
        · omega
        · exact hle
      unfold highest
      split
      · next hnew =>
          have hlt : p.id < pin.id := by
            rcases hnew with hlater | hlt
            · omega
            · exact hlt
          exact UInt32.le_of_lt (UInt32.lt_of_le_of_lt hle hlt)
      · exact hle
  by_cases hcond : seq_list.size = 0 ∨ p.time < pin.time ∨
      ((UInt32.ofNat seq_list.cap) ≤ pin.id ∧ p.id < pin.id - .ofNat seq_list.cap)
  · -- a new sequence
    have hhighest : highest p pin = pin.id := by
      rw [highest, if_pos]
      rcases hcond with hempty | hlater | ⟨hge, hjump⟩
      · right
        rw [UInt32.lt_iff_toNat_lt]
        omega
      · exact .inl hlater
      · right
        rw [UInt32.lt_iff_toNat_lt] at hjump ⊢
        rw [UInt32.toNat_sub_of_le _ _ hge] at hjump
        omega
    obtain ⟨start, hstart, hstartNat⟩ : ∃ start : PacketId,
        p.restart pin seq_list = (pin.time, start, seq_list.reset) ∧
          start.toNat = pin.id.toNat - seq_list.cap := by
      refine ⟨if UInt32.ofNat seq_list.cap < pin.id then pin.id - .ofNat seq_list.cap else 0, ?_, ?_⟩
      · rw [restart, if_pos hcond]
      · split
        · next hlt => rw [UInt32.toNat_sub_of_le _ _ (UInt32.le_of_lt hlt), hcast]
        · next hge =>
            rw [UInt32.lt_iff_toNat_lt, hcast] at hge
            have hzero : (0 : PacketId).toNat = 0 := rfl
            omega
    obtain ⟨hid, hcap', hslots⟩ := advance_eq pin.id start seq_list.reset
      (pin.id.toNat - start.toNat) (Nat.le_refl _)
    have hlt : start < pin.id := by rw [UInt32.lt_iff_toNat_lt]; omega
    rw [if_pos hlt] at hid
    rw [CircularList.toList_reset, List.append_nil, CircularList.cap_reset] at hslots
    have hlen : (advance pin.id (pin.id.toNat - start.toNat) start seq_list.reset).2.size =
        min seq_list.cap pin.id.toNat := by
      rw [← CircularList.length_toList, hslots, List.length_take, List.length_replicate]
      omega
    refine ⟨_, hcap', ?_, ?_⟩
    · rw [add, hlist]
      dsimp only
      rw [hstart]
      dsimp only
      rw [hid, hhighest]
    · rw [hhighest] at hbefore ⊢
      exact
        { list := rfl
          backtrack := h.backtrack
          cap_lt := by rw [hcap']; exact h.cap_lt
          size := by rw [hlen, hcap']; rfl
          before := hbefore
          slots := by
            intro id d t hid ht
            have hid' : id.toNat + d = pin.id.toNat := hid
            rw [hslots] at ht
            have hlt := (List.getElem?_eq_some_iff.mp ht).1
            rw [List.length_take, List.length_replicate] at hlt
            have hzero := List.eq_of_mem_replicate (List.mem_of_mem_take (List.mem_of_getElem? ht))
            rw [hzero]
            refine hunseen id fun q hq hsame => ?_
            have hearlier := h.before_restart htop hcond q hq hsame htime
            omega
          once := h.once }
  · -- the window moves on, or stays
    rw [not_or, not_or, not_and'] at hcond
    obtain ⟨hne, hnot, hnojump⟩ := hcond
    have hsame : p.time = pin.time := by omega
    obtain ⟨hid, hcap', hslots⟩ := advance_eq pin.id p.id seq_list
      (pin.id.toNat - p.id.toNat) (Nat.le_refl _)
    have hhighest : highest p pin = if p.id < pin.id then pin.id else p.id := by
      simp only [highest, hnot, false_or]
    have hmax : (highest p pin).toNat = max p.id.toNat pin.id.toNat := by
      rw [hhighest]
      split
      · next hlt => rw [UInt32.lt_iff_toNat_lt] at hlt; omega
      · next hge => rw [UInt32.lt_iff_toNat_lt] at hge; omega
    have hlen : (advance pin.id (pin.id.toNat - p.id.toNat) p.id seq_list).2.size =
        min seq_list.cap (highest p pin).toNat := by
      rw [← CircularList.length_toList, hslots, List.length_take, List.length_append,
        List.length_replicate, CircularList.length_toList, hsize, hmax]
      omega
    refine ⟨_, hcap', ?_, ?_⟩
    · rw [add, hlist]
      dsimp only
      rw [restart, if_neg (by rw [not_or, not_or, not_and']; exact ⟨hne, hnot, hnojump⟩)]
      dsimp only
      rw [hid, ← hhighest, hsame]
    · exact
        { list := rfl
          backtrack := h.backtrack
          cap_lt := by rw [hcap']; exact h.cap_lt
          size := by rw [hlen, hcap']
          before := hbefore
          slots := by
            intro id d t hid ht
            have hid' : id.toNat + d = (highest p pin).toNat := hid
            change Slot time_backtrack log ⟨id, pin.time⟩ t
            rw [hslots] at ht
            have hlt := (List.getElem?_eq_some_iff.mp ht).1
            rw [List.length_take] at hlt
            rw [List.getElem?_take_of_lt (by omega), List.getElem?_append,
              List.length_replicate] at ht
            split at ht
            · next hnew =>
                rw [List.getElem?_replicate, if_pos hnew, Option.some.injEq] at ht
                rw [← ht]
                refine hunseen id fun q hq hqtime => ?_
                rcases (h.before q hq).2 with hlt | ⟨-, hle⟩
                · omega
                · rw [UInt32.le_iff_toNat_le] at hle
                  omega
            · rw [← hsame]
              exact h.slots id _ t (by omega) ht
          once := h.once }

/-- An accepted packet goes into its slot. -/
theorem Inv.add (h : Inv time_backtrack log p seq_list) (htop : Top log p)
    (hfresh : Fresh seq_list.cap time_backtrack log pin) {now : Nat} (hnow : SEQ_EXPIRED < now) :
    ∃ seq_list', Inv time_backtrack (log ++ [.accepted now pin]) (p.add now pin) seq_list' ∧
      Top (log ++ [.accepted now pin]) (p.add now pin) ∧ seq_list'.cap = seq_list.cap := by
  obtain ⟨seq_list₁, hcap₁, hadd, hinv⟩ := h.advanced htop hfresh now
  have htime := htop.time_le hfresh
  have hge : pin.id ≤ highest p pin := by
    unfold highest
    split
    · exact UInt32.le_refl _
    · next hnot =>
        rw [not_or] at hnot
        exact UInt32.not_lt.mp hnot.2
  have hdiff : (highest p pin - pin.id).toNat = (highest p pin).toNat - pin.id.toNat :=
    UInt32.toNat_sub_of_le _ _ hge
  have hge' := UInt32.le_iff_toNat_le.mp hge
  have hpos : 0 < pin.id.toNat := by
    rw [Nat.pos_iff_ne_zero]
    exact fun h0 => hfresh.id_ne (UInt32.toNat.inj h0)
  have hhighest : highest p pin = pin.id ∨ (p.time = pin.time ∧ highest p pin = p.id) := by
    unfold highest
    split
    · exact .inl rfl
    · next hnot =>
        rw [not_or] at hnot
        exact .inr ⟨by omega, rfl⟩
  have hsize : seq_list₁.size = min seq_list₁.cap (highest p pin).toNat := hinv.size
  have hcap := seq_list.cap_pos
  -- the slot is still in the window
  have hroom : (highest p pin).toNat - pin.id.toNat < seq_list₁.size := by
    rcases hhighest with heq | ⟨hsame, heq⟩
    · rw [heq] at hsize ⊢
      omega
    · rcases htop with htop | ⟨hzero, -, -⟩
      · have hwindow := hfresh.window _ htop hsame
        dsimp only at hwindow
        rw [heq] at hsize hge' ⊢
        omega
      · rw [heq, hzero] at hge'
        have hzeroNat : (0 : PacketId).toNat = 0 := rfl
        omega
  have hmark : mark now (highest p pin) pin seq_list₁ =
      seq_list₁.setItem ((highest p pin).toNat - pin.id.toNat) now := by
    rw [mark, hdiff, if_pos ⟨hroom, hnow⟩]
  rw [hmark] at hadd
  refine ⟨seq_list₁.setItem ((highest p pin).toNat - pin.id.toNat) now, ?_, ?_, ?_⟩
  · rw [hadd]
    exact
      { list := rfl
        backtrack := hinv.backtrack
        cap_lt := by rw [CircularList.cap_setItem]; exact hinv.cap_lt
        size := by rw [CircularList.size_setItem, CircularList.cap_setItem]; exact hinv.size
        before := by
          intro q hq
          rcases accepted_append_accepted.mp hq with hq | rfl
          · exact hinv.before q hq
          · exact ⟨hfresh.id_ne, .inr ⟨rfl, hge⟩⟩
        slots := by
          intro id d t hid ht
          have hid' : id.toNat + d = (highest p pin).toNat := hid
          change Slot time_backtrack _ ⟨id, pin.time⟩ t
          rw [CircularList.toList_setItem hroom, List.getElem?_set] at ht
          split at ht
          · next hd =>
              rw [if_pos (by rw [CircularList.length_toList]; exact hroom), Option.some.injEq] at ht
              have hpin : id = pin.id := UInt32.toNat.inj (by omega)
              rw [hpin, ← ht]
              exact .seen now hnow (fun hx => hfresh.unexpired (expired_append_accepted.mp hx))
                (List.mem_append_right _ (List.mem_singleton_self _))
          · next hd =>
              have hslot : Slot time_backtrack log ⟨id, pin.time⟩ t := hinv.slots id d t hid ht
              have hne : (⟨id, pin.time⟩ : PacketIdNet) ≠ pin := by
                intro heq
                have hpin : id = pin.id := congrArg PacketIdNet.id heq
                rw [hpin] at hid'
                omega
              cases hslot with
              | expired hx => exact .expired (expired_append_accepted.mpr hx)
              | unseen hx hnot =>
                  refine .unseen (fun h => hx (expired_append_accepted.mp h)) fun hq => ?_
                  rcases accepted_append_accepted.mp hq with hq | hq
                  · exact hnot hq
                  · exact hne hq
              | seen t ht hx hmem =>
                  exact .seen t ht (fun h => hx (expired_append_accepted.mp h))
                    (List.mem_append_left _ hmem)
        once := h.once.append_accepted hfresh.unseen now }
  · rw [hadd]
    left
    rw [accepted_append_accepted]
    rcases hhighest with heq | ⟨hsame, heq⟩
    · right
      rw [heq]
    · rcases htop with htop | ⟨hzero, -, -⟩
      · left
        rw [heq, ← hsame]
        exact htop
      · rw [heq, hzero] at hge'
        have hzeroNat : (0 : PacketId).toNat = 0 := rfl
        omega
  · rw [CircularList.cap_setItem, hcap₁]

end PacketIdRec

end OpenVpnAndroid
