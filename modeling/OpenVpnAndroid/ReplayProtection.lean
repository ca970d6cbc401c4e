/-
  OpenVpnAndroid/ReplayProtection.lean
  ====================================
  **Runs of the replay protection**, with the window (UDP) and without (TCP).

  The packets come in any order, any number of times, with any ids: the receiver takes
  none twice, and with the window it takes exactly what is fresh.  What a sender has
  written in its order is taken, packet by packet, whatever is lost on the way; without
  the window nothing may be lost.
-/
import OpenVpnAndroid.ReplayWindow

namespace OpenVpnAndroid

namespace PacketIdRec

/-! ### Runs of the receiver -/

structure Receiver where
  state : PacketIdRec
  log : List LogEntry

/-- A packet, and the clock when it arrives. -/
structure Arrival where
  now : Nat
  pin : PacketIdNet

namespace Receiver

/-- The log with the pass of `packet_id_reap` that comes before the test. -/
def reapLog (r : Receiver) (now : Nat) : List LogEntry :=
  if r.state.last_reap + SEQ_REAP_INTERVAL ≤ now then r.log ++ [.reaped now] else r.log

def step (r : Receiver) (a : Arrival) : Receiver :=
  if (r.state.checkReplay a.now a.pin).1 then
    ⟨(r.state.checkReplay a.now a.pin).2, r.reapLog a.now ++ [.accepted a.now a.pin]⟩
  else ⟨(r.state.checkReplay a.now a.pin).2, r.reapLog a.now⟩

def acceptedPin : LogEntry → Option PacketIdNet
  | .accepted _ pin => some pin
  | .reaped _ => none

/-- The packets that were accepted, in their order. -/
def accepted (r : Receiver) : List PacketIdNet := r.log.filterMap acceptedPin

end Receiver

def receiver (p : PacketIdRec) : Machine Receiver Arrival where
  initial := ⟨p, []⟩
  step := Receiver.step

theorem checkReplay_fst (p : PacketIdRec) (now : Nat) (pin : PacketIdNet) :
    (p.checkReplay now pin).1 = (p.reapTest now).test pin := by
  rw [checkReplay]
  split
  · next h => exact h.symm
  · next h => simpa using h

theorem step_of_test {r : Receiver} {a : Arrival} (h : (r.state.reapTest a.now).test a.pin = true) :
    r.step a = ⟨(r.state.reapTest a.now).add a.now a.pin,
      r.reapLog a.now ++ [.accepted a.now a.pin]⟩ := by
  rw [Receiver.step, if_pos (by rw [checkReplay_fst]; exact h), checkReplay, if_pos h]

theorem step_of_not_test {r : Receiver} {a : Arrival}
    (h : ¬ (r.state.reapTest a.now).test a.pin = true) :
    r.step a = ⟨r.state.reapTest a.now, r.reapLog a.now⟩ := by
  rw [Receiver.step, if_neg (by rw [checkReplay_fst]; exact h), checkReplay, if_neg h]

theorem accepted_reapLog (r : Receiver) (now : Nat) :
    (r.reapLog now).filterMap Receiver.acceptedPin = r.accepted := by
  rw [Receiver.reapLog]
  split
  · rw [List.filterMap_append]
    exact List.append_nil _
  · rfl

theorem accepted_step (r : Receiver) (a : Arrival) :
    (r.step a).accepted = r.accepted ++
      if (r.state.reapTest a.now).test a.pin = true then [a.pin] else [] := by
  by_cases h : (r.state.reapTest a.now).test a.pin = true
  · rw [step_of_test h, if_pos h, Receiver.accepted, List.filterMap_append, accepted_reapLog]
    rfl
  · rw [step_of_not_test h, if_neg h, List.append_nil]
    exact accepted_reapLog r a.now

theorem mem_accepted {r : Receiver} {pin : PacketIdNet} :
    pin ∈ r.accepted ↔ Accepted r.log pin := by
  rw [Receiver.accepted, List.mem_filterMap]
  constructor
  · rintro ⟨e, he, hpin⟩
    cases e with
    | accepted now q =>
        obtain rfl := Option.some.inj hpin
        exact ⟨now, he⟩
    | reaped now => cases hpin
  · rintro ⟨now, he⟩
    exact ⟨_, he, rfl⟩

theorem Once.nodup {r : Receiver} (h : Once r.log) : r.accepted.Nodup := by
  rw [Receiver.accepted, List.Nodup, List.pairwise_filterMap]
  refine h.imp fun {x y} hxy pin hpin pin' hpin' hsame => ?_
  cases x with
  | reaped now => cases hpin
  | accepted now q =>
      cases y with
      | reaped now => cases hpin'
      | accepted now' q' =>
          obtain rfl := Option.some.inj hpin
          obtain rfl := Option.some.inj hpin'
          exact hxy now now' q rfl (by rw [hsame])

/-! ### With the window -/

/-- What holds between two packets. -/
def Windowed (seq_backtrack time_backtrack : Nat) (r : Receiver) : Prop :=
  ∃ seq_list, seq_list.cap = seq_backtrack ∧ Inv time_backtrack r.log r.state seq_list ∧
    Top r.log r.state

theorem Top.append_reaped {log : List LogEntry} {p : PacketIdRec} (h : Top log p) (now : Nat) :
    Top (log ++ [.reaped now]) p := by
  rcases h with h | ⟨hid, htime, hnone⟩
  · exact .inl (accepted_append_reaped.mpr h)
  · exact .inr ⟨hid, htime, fun q hq => hnone q (accepted_append_reaped.mp hq)⟩

theorem Windowed.reapTest {seq_backtrack time_backtrack : Nat} {r : Receiver}
    (h : Windowed seq_backtrack time_backtrack r) (now : Nat) :
    Windowed seq_backtrack time_backtrack ⟨r.state.reapTest now, r.reapLog now⟩ := by
  obtain ⟨seq_list, hcap, hinv, htop⟩ := h
  rw [PacketIdRec.reapTest, Receiver.reapLog]
  by_cases hdue : r.state.last_reap + SEQ_REAP_INTERVAL ≤ now
  · obtain ⟨seq_list', hinv', hcap'⟩ := hinv.reap now
    rw [if_pos hdue, if_pos hdue]
    exact ⟨seq_list', hcap'.trans hcap, hinv', htop.append_reaped now⟩
  · rw [if_neg hdue, if_neg hdue]
    exact ⟨seq_list, hcap, hinv, htop⟩

theorem Windowed.test_iff {seq_backtrack time_backtrack : Nat} {r : Receiver}
    (h : Windowed seq_backtrack time_backtrack r) (now : Nat) (pin : PacketIdNet) :
    (r.state.reapTest now).test pin = true ↔
      Fresh seq_backtrack time_backtrack (r.reapLog now) pin := by
  obtain ⟨seq_list, rfl, hinv, htop⟩ := h.reapTest now
  exact hinv.test_iff htop

theorem Windowed.step {seq_backtrack time_backtrack : Nat} {r : Receiver}
    (h : Windowed seq_backtrack time_backtrack r) {a : Arrival} (hclock : SEQ_EXPIRED < a.now) :
    Windowed seq_backtrack time_backtrack (r.step a) := by
  by_cases htest : (r.state.reapTest a.now).test a.pin = true
  · have hfresh := (h.test_iff a.now a.pin).mp htest
    obtain ⟨seq_list, rfl, hinv, htop⟩ := h.reapTest a.now
    obtain ⟨seq_list', hinv', htop', hcap⟩ := hinv.add htop hfresh hclock
    rw [step_of_test htest]
    exact ⟨seq_list', hcap, hinv', htop'⟩
  · rw [step_of_not_test htest]
    exact h.reapTest a.now

theorem windowed_init {seq_backtrack time_backtrack : Nat} {p : PacketIdRec}
    (hpos : 0 < seq_backtrack) (hinit : init seq_backtrack time_backtrack = some p) :
    Windowed seq_backtrack time_backtrack ⟨p, []⟩ := by
  rw [init, dif_pos hpos] at hinit
  split at hinit
  · next hbounds =>
      obtain rfl := Option.some.inj hinit
      have hnone : ∀ q, ¬ Accepted [] q := fun q hq => by
        obtain ⟨now, h⟩ := hq
        exact absurd h List.not_mem_nil
      refine ⟨.alloc seq_backtrack hpos 0, CircularList.cap_alloc hpos 0, ?_,
        .inr ⟨rfl, rfl, hnone⟩⟩
      exact
        { list := rfl
          backtrack := rfl
          cap_lt := by
            have hmax : MAX_SEQ_BACKTRACK < 2 ^ 32 := by decide
            rw [CircularList.cap_alloc hpos]
            omega
          size := (Nat.min_eq_right (Nat.zero_le _)).symm
          before := fun q hq => absurd hq (hnone q)
          slots := by
            intro id d t _ ht
            rw [CircularList.toList_alloc hpos] at ht
            cases ht
          once := List.Pairwise.nil }
  · cases hinit

/-! ### Without the window -/

theorem reapTest_id (p : PacketIdRec) (now : Nat) :
    (p.reapTest now).id = p.id ∧ (p.reapTest now).time = p.time := by
  rw [PacketIdRec.reapTest]
  split
  · exact ⟨rfl, rfl⟩
  · exact ⟨rfl, rfl⟩

theorem reapTest_of_none {p : PacketIdRec} (h : p.seq_list = none) (now : Nat) :
    (p.reapTest now).seq_list = none := by
  rw [PacketIdRec.reapTest]
  split
  · change (if p.time_backtrack = 0 then p.seq_list else _) = none
    rw [h]
    split
    · rfl
    · rfl
  · exact h

theorem add_of_none {p : PacketIdRec} (h : p.seq_list = none) (now : Nat) (pin : PacketIdNet) :
    p.add now pin = { p with time := pin.time, id := pin.id } := by
  rw [PacketIdRec.add, h]

/-- The ids come without gaps, so the last one says what was there. -/
structure Linear (r : Receiver) : Prop where
  list : r.state.seq_list = none
  before : ∀ q, Accepted r.log q → q.time < r.state.time ∨
    q.time = r.state.time ∧ q.id ≤ r.state.id ∧ r.state.id ≠ 0
  once : Once r.log

theorem Linear.reapTest {r : Receiver} (h : Linear r) (now : Nat) :
    Linear ⟨r.state.reapTest now, r.reapLog now⟩ := by
  obtain ⟨hid, htime⟩ := reapTest_id r.state now
  refine ⟨reapTest_of_none h.list now, fun q hq => ?_, ?_⟩
  · rw [hid, htime]
    refine h.before q ?_
    rw [Receiver.reapLog] at hq
    split at hq
    · exact accepted_append_reaped.mp hq
    · exact hq
  · change Once (r.reapLog now)
    rw [Receiver.reapLog]
    split
    · exact h.once.append_reaped now
    · exact h.once

theorem Linear.unseen {r : Receiver} (h : Linear r) {pin : PacketIdNet}
    (htest : r.state.test pin = true) : pin.id ≠ 0 ∧ r.state.time ≤ pin.time ∧
      ¬ Accepted r.log pin := by
  rw [PacketIdRec.test, h.list] at htest
  split at htest
  · exact absurd htest Bool.false_ne_true
  · next hid =>
      dsimp only at htest
      split at htest
      · next hsame =>
          refine ⟨hid, Nat.le_of_eq hsame.symm, fun hpin => ?_⟩
          rcases h.before pin hpin with hlt | ⟨-, hle, hne⟩
          · omega
          · rw [Bool.or_eq_true, beq_iff_eq, beq_iff_eq, or_iff_right hne] at htest
            -- the next id is no turn of the counter, as it is not 0
            have hnat := congrArg UInt32.toNat htest
            have hmax := r.state.id.toNat_lt
            have hone : (1 : PacketId).toNat = 1 := rfl
            rw [UInt32.toNat_add, hone] at hnat
            rw [UInt32.le_iff_toNat_le] at hle
            have hpos : pin.id.toNat ≠ 0 := fun h0 => hid (UInt32.toNat.inj h0)
            omega
      · next hother =>
          split at htest
          · exact absurd htest Bool.false_ne_true
          · refine ⟨hid, by omega, fun hpin => ?_⟩
            rcases h.before pin hpin with hlt | ⟨hsame, -⟩
            · omega
            · exact hother hsame

theorem Linear.step {r : Receiver} (h : Linear r) (a : Arrival) : Linear (r.step a) := by
  have hreap := h.reapTest a.now
  by_cases htest : (r.state.reapTest a.now).test a.pin = true
  · have hunseen := hreap.unseen htest
    have hlist : (r.state.reapTest a.now).seq_list = none := hreap.list
    rw [step_of_test htest, add_of_none hlist]
    refine ⟨hlist, fun q hq => ?_, hreap.once.append_accepted hunseen.2.2 a.now⟩
    rcases accepted_append_accepted.mp hq with hq | rfl
    · rcases Nat.lt_or_ge q.time a.pin.time with hlt | hge
      · exact .inl hlt
      · -- an id of the same time: it was the last one or one before
        have htime := hunseen.2.1
        rcases hreap.before q hq with hlt | ⟨hsame, hle, hne⟩
        · omega
        · dsimp only at hsame hle hne htime
          have heq : a.pin.time = (r.state.reapTest a.now).time := by omega
          have hnext : a.pin.id = (r.state.reapTest a.now).id + 1 := by
            rw [PacketIdRec.test, if_neg hunseen.1, hlist] at htest
            dsimp only at htest
            rw [if_pos heq, Bool.or_eq_true, beq_iff_eq, beq_iff_eq, or_iff_right hne] at htest
            exact htest
          refine .inr ⟨by dsimp only; omega, ?_, hunseen.1⟩
          have hnat := congrArg UInt32.toNat hnext
          have hmax := (r.state.reapTest a.now).id.toNat_lt
          have hone : (1 : PacketId).toNat = 1 := rfl
          rw [UInt32.toNat_add, hone] at hnat
          have hpos : a.pin.id.toNat ≠ 0 := fun h0 => hunseen.1 (UInt32.toNat.inj h0)
          rw [UInt32.le_iff_toNat_le] at hle ⊢
          dsimp only
          omega
    · exact .inr ⟨rfl, UInt32.le_refl _, hunseen.1⟩
  · rw [step_of_not_test htest]
    exact hreap

/-- Whatever arrives, the log has no packet twice. -/
theorem once_run {seq_backtrack time_backtrack : Nat} {p : PacketIdRec}
    (hinit : init seq_backtrack time_backtrack = some p) (as : List Arrival)
    (hclock : ∀ a ∈ as, SEQ_EXPIRED < a.now) :
    (0 < seq_backtrack → Windowed seq_backtrack time_backtrack ((receiver p).run as)) ∧
      (seq_backtrack = 0 → Linear ((receiver p).run as)) := by
  induction as using List.reverseRecOn with
  | nil =>
      refine ⟨fun hpos => windowed_init hpos hinit, fun hzero => ?_⟩
      rw [init, dif_neg (by omega)] at hinit
      obtain rfl := Option.some.inj hinit
      refine ⟨rfl, fun q hq => ?_, List.Pairwise.nil⟩
      obtain ⟨now, h⟩ := hq
      exact absurd h List.not_mem_nil
  | append_singleton as a ih =>
      have hbefore := ih fun a' ha' => hclock a' (List.mem_append_left _ ha')
      rw [Machine.run_append_singleton]
      exact ⟨fun hpos => (hbefore.1 hpos).step (hclock a (by simp)),
        fun hzero => (hbefore.2 hzero).step a⟩

/-! ### The sender -/

/-- The ids that a sender puts into its packets, as bytes, with the clock at each packet. -/
def packets (long_form : Bool) : PacketIdSend → List Nat → List (List UInt8)
  | _, [] => []
  | p, now :: clock =>
      (p.write now long_form).1.toList ++ packets long_form (p.write now long_form).2 clock

/-- The ids that a receiver reads. -/
def readAll (long_form : Bool) (packets : List (List UInt8)) : List PacketIdNet :=
  packets.filterMap fun buf => (packetIdRead buf long_form).map Prod.fst

/-- What the state of a sender looks like on the wire. -/
def netId (long_form : Bool) (p : PacketIdSend) : PacketIdNet :=
  ⟨p.id, if long_form then p.time else 0⟩

theorem packetIdRead_append (long_form : Bool) {p : PacketIdSend} (htime : p.time < 2 ^ 32)
    (payload : List UInt8) :
    packetIdRead ((packetIdBytes p.id ++ if long_form then timeBytes p.time else []) ++ payload)
      long_form = some (netId long_form p, payload) := by
  rw [packetIdRead, List.append_assoc, bufRead_append (length_packetIdBytes _)]
  cases long_form with
  | false =>
      change some ((⟨UInt32.ofNat (BigEndian.value (packetIdBytes p.id)), 0⟩ : PacketIdNet), payload) = _
      rw [ofNat_value_packetIdBytes]
      rfl
  | true =>
      have hlen : (timeBytes p.time).length = 4 := BigEndian.length_bigEndian 4 _
      have hvalue : BigEndian.value (timeBytes p.time) = p.time :=
        BigEndian.value_bigEndian_of_lt (by exact htime)
      simp only [Option.bind_eq_bind, Option.bind_some, if_true, bufRead_append hlen]
      rw [ofNat_value_packetIdBytes, hvalue]
      rfl

/-- The id behind another one: the next of the sequence, or the first of a later one. -/
def Next (a b : PacketIdNet) : Prop :=
  b.id ≠ 0 ∧ (b.time = a.time ∧ b.id = a.id + 1 ∨ a.time < b.time ∧ b.id = 1)

def Later (a b : PacketIdNet) : Prop := b.id ≠ 0 ∧ (a.time < b.time ∨ a.time = b.time ∧ a.id < b.id)

theorem Next.later {a b : PacketIdNet} (h : Next a b) : Later a b := by
  obtain ⟨hne, ⟨htime, hid⟩ | ⟨hlt, -⟩⟩ := h
  · refine ⟨hne, .inr ⟨htime.symm, ?_⟩⟩
    have hnat := congrArg UInt32.toNat hid
    have hone : (1 : PacketId).toNat = 1 := rfl
    have hmax := a.id.toNat_lt
    rw [UInt32.toNat_add, hone] at hnat
    have hpos : b.id.toNat ≠ 0 := fun h0 => hne (UInt32.toNat.inj h0)
    rw [UInt32.lt_iff_toNat_lt]
    omega
  · exact ⟨hne, .inl hlt⟩

theorem Later.trans {a b c : PacketIdNet} (h : Later a b) (h' : Later b c) : Later a c := by
  obtain ⟨-, h⟩ := h
  obtain ⟨hne, h'⟩ := h'
  refine ⟨hne, ?_⟩
  rcases h with h | ⟨hab, h⟩
  · rcases h' with h' | ⟨hbc, -⟩
    · exact .inl (Nat.lt_trans h h')
    · exact .inl (hbc ▸ h)
  · rcases h' with h' | ⟨hbc, h'⟩
    · exact .inl (hab ▸ h')
    · exact .inr ⟨hab.trans hbc, UInt32.lt_trans h h'⟩

/-- A sender that starts, or has a time. -/
def Sending (p : PacketIdSend) : Prop := (p.id = 0 ∧ p.time = 0) ∨ (0 < p.time ∧ p.time < 2 ^ 32)

theorem next_update {long_form : Bool} {p : PacketIdSend} (h : Sending p) {now : Nat}
    (hpos : 0 < now) (hnow : now < 2 ^ 32) :
    Sending (p.update now long_form).2 ∧
      ((p.update now long_form).1 = true →
        Next (netId long_form p) (netId long_form (p.update now long_form).2)) ∧
      ((p.update now long_form).1 = false →
        netId long_form (p.update now long_form).2 = netId long_form p) := by
  have hmax : PACKET_ID_MAX ≠ 0 := by decide
  have hnext : p.id ≠ PACKET_ID_MAX → p.id + 1 ≠ 0 := by
    intro hne hzero
    have hnat := congrArg UInt32.toNat hzero
    have hone : (1 : PacketId).toNat = 1 := rfl
    have hzeroNat : (0 : PacketId).toNat = 0 := rfl
    have hlt := p.id.toNat_lt
    have hlast : PACKET_ID_MAX.toNat = 2 ^ 32 - 1 := rfl
    rw [UInt32.toNat_add, hone, hzeroNat] at hnat
    exact hne (UInt32.toNat.inj (by omega))
  rw [PacketIdSend.update]
  rcases h with ⟨hid, htime⟩ | ⟨htime, hlt⟩
  · -- the first packet
    have hne : p.id ≠ PACKET_ID_MAX := by rw [hid]; exact hmax.symm
    rw [if_pos htime, if_neg hne]
    refine ⟨.inr ⟨hpos, hnow⟩, fun _ => ⟨hnext hne, ?_⟩, fun hf => absurd hf Bool.noConfusion⟩
    cases long_form with
    | false => exact .inl ⟨rfl, rfl⟩
    | true =>
        refine .inr ⟨?_, ?_⟩
        · change p.time < now
          omega
        · change p.id + 1 = 1
          rw [hid]
          rfl
  · rw [if_neg (Nat.ne_of_gt htime)]
    by_cases hid : p.id = PACKET_ID_MAX
    · rw [if_pos hid]
      by_cases hstop : long_form = false ∨ now ≤ p.time
      · rw [if_pos hstop]
        exact ⟨.inr ⟨htime, hlt⟩, fun hf => absurd hf Bool.false_ne_true, fun _ => rfl⟩
      · rw [if_neg hstop]
        rw [not_or, Bool.not_eq_false] at hstop
        obtain ⟨rfl, hlater⟩ := hstop
        have hone : (0 + 1 : PacketId) ≠ 0 ∧ (0 + 1 : PacketId) = 1 := by decide
        refine ⟨.inr ⟨hpos, hnow⟩, fun _ => ⟨hone.1, .inr ⟨?_, hone.2⟩⟩,
          fun hf => absurd hf Bool.noConfusion⟩
        change p.time < now
        omega
    · rw [if_neg hid]
      refine ⟨.inr ⟨htime, hlt⟩, fun _ => ⟨hnext hid, .inl ⟨?_, rfl⟩⟩,
        fun hf => absurd hf Bool.noConfusion⟩
      cases long_form <;> rfl

/-- What a sender writes and a receiver reads is one sequence without gaps. -/
theorem chain_readAll {long_form : Bool} {p : PacketIdSend} (h : Sending p) {clock : List Nat}
    (hclock : ∀ now ∈ clock, 0 < now ∧ now < 2 ^ 32) :
    List.IsChain Next (netId long_form p :: readAll long_form (packets long_form p clock)) := by
  induction clock generalizing p with
  | nil => exact List.isChain_singleton _
  | cons now clock ih =>
      obtain ⟨hpos, hlt⟩ := hclock now List.mem_cons_self
      obtain ⟨hsending, hnext, hstay⟩ := @next_update long_form p h now hpos hlt
      have hrest := ih hsending fun now' hnow' => hclock now' (List.mem_cons_of_mem now hnow')
      have htime : (p.update now long_form).2.time < 2 ^ 32 := by
        rcases hsending with ⟨-, hzero⟩ | ⟨-, hlt⟩
        · omega
        · exact hlt
      have hread := packetIdRead_append long_form htime []
      rw [List.append_nil] at hread
      have hwrite : (p.write now long_form).2 = (p.update now long_form).2 := rfl
      rw [packets, hwrite]
      by_cases hok : (p.update now long_form).1 = true
      · have hbytes : (p.write now long_form).1 =
            some (packetIdBytes (p.update now long_form).2.id ++
              if long_form then timeBytes (p.update now long_form).2.time else []) := if_pos hok
        rw [hbytes, Option.toList_some, List.singleton_append, readAll, List.filterMap_cons, hread]
        exact List.IsChain.cons_cons (hnext hok) hrest
      · have hbytes : (p.write now long_form).1 = none := if_neg hok
        rw [hbytes, Option.toList_none, List.nil_append, ← hstay (by simpa using hok)]
        exact hrest

/-! ### What is taken -/

theorem accepted_reapLog_iff {r : Receiver} {now : Nat} {q : PacketIdNet} :
    Accepted (r.reapLog now) q ↔ q ∈ r.accepted := by
  rw [mem_accepted, Receiver.reapLog]
  split
  · exact accepted_append_reaped
  · exact Iff.rfl

/-- With the window everything is taken that is later than all before. -/
theorem accepted_of_later {seq_backtrack time_backtrack : Nat} {p : PacketIdRec}
    (hpos : 0 < seq_backtrack) (hinit : init seq_backtrack time_backtrack = some p)
    (as : List Arrival) (hclock : ∀ a ∈ as, SEQ_EXPIRED < a.now)
    (hlater : (⟨0, 0⟩ :: as.map Arrival.pin).Pairwise Later) :
    ((receiver p).run as).accepted = as.map Arrival.pin := by
  induction as using List.reverseRecOn with
  | nil => rfl
  | append_singleton as a ih =>
      have hclock' : ∀ a' ∈ as, SEQ_EXPIRED < a'.now :=
        fun a' ha' => hclock a' (List.mem_append_left _ ha')
      have hlast : ∀ q ∈ as.map Arrival.pin, Later q a.pin := by
        intro q hq
        rw [List.map_append, List.pairwise_cons, List.pairwise_append] at hlater
        exact hlater.2.2.2 q hq a.pin (List.mem_singleton_self _)
      have hid : a.pin.id ≠ 0 := ((List.pairwise_cons.mp hlater).1 a.pin (by simp)).1
      have hbefore := ih hclock' (hlater.sublist (by simp))
      have hfresh : Fresh seq_backtrack time_backtrack
          (((receiver p).run as).reapLog a.now) a.pin := by
        have hall : ∀ q, Accepted (((receiver p).run as).reapLog a.now) q → Later q a.pin := by
          intro q hq
          rw [accepted_reapLog_iff, hbefore] at hq
          exact hlast q hq
        refine ⟨hid, fun q hq => ?_, fun q hq hsame => ?_, fun hpin => ?_, fun hexpired => ?_⟩
        · rcases (hall q hq).2 with hlt | ⟨hsame, -⟩ <;> omega
        · rcases (hall q hq).2 with hlt | ⟨-, hlt⟩
          · omega
          · rw [UInt32.lt_iff_toNat_lt] at hlt
            omega
        · rcases (hall _ hpin).2 with hlt | ⟨-, hlt⟩
          · exact absurd hlt (Nat.lt_irrefl _)
          · exact absurd hlt (UInt32.lt_irrefl _)
        · obtain ⟨q, hq, hsame, hle⟩ := hexpired.accepted
          rcases (hall q hq).2 with hlt | ⟨-, hlt⟩
          · omega
          · exact absurd hle (UInt32.not_le.mpr hlt)
      have htest := (((once_run hinit as hclock').1 hpos).test_iff a.now a.pin).mpr hfresh
      rw [Machine.run_append_singleton]
      change (Receiver.step ((receiver p).run as) a).accepted = _
      rw [accepted_step, if_pos htest, hbefore, List.map_append]
      rfl

/-- Without it everything is taken that comes in one sequence. -/
theorem accepted_of_chain {time_backtrack : Nat} {p : PacketIdRec}
    (hinit : init 0 time_backtrack = some p) (as : List Arrival)
    (hchain : List.IsChain Next (⟨0, 0⟩ :: as.map Arrival.pin)) :
    ((receiver p).run as).accepted = as.map Arrival.pin ∧
      ((receiver p).run as).state.seq_list = none ∧
      (⟨((receiver p).run as).state.id, ((receiver p).run as).state.time⟩ : PacketIdNet) ∈
        (⟨0, 0⟩ :: as.map Arrival.pin).getLast? := by
  induction as using List.reverseRecOn with
  | nil =>
      obtain rfl := Option.some.inj hinit
      exact ⟨rfl, rfl, rfl⟩
  | append_singleton as a ih =>
      rw [List.map_append, ← List.cons_append, List.isChain_append] at hchain
      obtain ⟨hbefore, -, hnext⟩ := hchain
      obtain ⟨haccepted, hlist, hlast⟩ := ih hbefore
      obtain ⟨hne, hnext⟩ := hnext _ hlast a.pin rfl
      have hnone := reapTest_of_none hlist a.now
      obtain ⟨hid, htime⟩ := reapTest_id ((receiver p).run as).state a.now
      have htest : (((receiver p).run as).state.reapTest a.now).test a.pin = true := by
        rw [PacketIdRec.test, if_neg hne, hnone]
        dsimp only
        rw [hid, htime]
        rcases hnext with ⟨hsame, hnext⟩ | ⟨hlt, hfirst⟩
        · rw [if_pos hsame, Bool.or_eq_true, beq_iff_eq, beq_iff_eq]
          exact .inr hnext
        · dsimp only at hlt
          rw [if_neg (by omega), if_neg (by omega), hfirst]
          rfl
      have hstep : (receiver p).run (as ++ [a]) = Receiver.step ((receiver p).run as) a :=
        Machine.run_append_singleton _ as a
      rw [hstep, accepted_step, if_pos htest, haccepted, step_of_test htest, add_of_none hnone,
        List.map_append, ← List.cons_append, List.getLast?_append]
      exact ⟨rfl, hnone, rfl⟩

/-! ### What holds of every run -/

/-- **The window.**  Whatever came before, a packet is taken exactly when it is fresh: with the
    passes of `packet_id_reap`, but without a word about slots. -/
theorem checkReplay_iff_fresh {seq_backtrack time_backtrack : Nat} {p : PacketIdRec}
    (hpos : 0 < seq_backtrack) (hinit : init seq_backtrack time_backtrack = some p)
    (as : List Arrival) (hclock : ∀ a ∈ as, SEQ_EXPIRED < a.now) (now : Nat) (pin : PacketIdNet) :
    (((receiver p).run as).state.checkReplay now pin).1 = true ↔
      Fresh seq_backtrack time_backtrack (((receiver p).run as).reapLog now) pin := by
  rw [checkReplay_fst]
  exact ((once_run hinit as hclock).1 hpos).test_iff now pin

/-- **No replay.**  No packet is taken twice, with the window and without. -/
theorem nodup_accepted {seq_backtrack time_backtrack : Nat} {p : PacketIdRec}
    (hinit : init seq_backtrack time_backtrack = some p) (as : List Arrival)
    (hclock : ∀ a ∈ as, SEQ_EXPIRED < a.now) : ((receiver p).run as).accepted.Nodup := by
  obtain ⟨hwindow, hlinear⟩ := once_run hinit as hclock
  rcases Nat.eq_zero_or_pos seq_backtrack with hzero | hpos
  · exact (hlinear hzero).once.nodup
  · obtain ⟨seq_list, -, hinv, -⟩ := hwindow hpos
    exact hinv.once.nodup

/-- **What was sent is taken.**  Of the packets that a sender wrote, in its order: with the window
    all that arrive, without it the ones up to the first that does not. -/
theorem accepted_sent {seq_backtrack time_backtrack : Nat} {p : PacketIdRec}
    (hinit : init seq_backtrack time_backtrack = some p) (long_form : Bool) (clock : List Nat)
    (hsent : ∀ now ∈ clock, 0 < now ∧ now < 2 ^ 32) (as : List Arrival)
    (hclock : ∀ a ∈ as, SEQ_EXPIRED < a.now)
    (hsub : (as.map Arrival.pin).Sublist (readAll long_form (packets long_form ⟨0, 0⟩ clock)))
    (hgap : seq_backtrack = 0 →
      as.map Arrival.pin <+: readAll long_form (packets long_form ⟨0, 0⟩ clock)) :
    ((receiver p).run as).accepted = as.map Arrival.pin := by
  have hchain := @chain_readAll long_form ⟨0, 0⟩ (.inl ⟨rfl, rfl⟩) clock hsent
  have hzero : netId long_form ⟨0, 0⟩ = ⟨0, 0⟩ := by cases long_form <;> rfl
  rw [hzero] at hchain
  rcases Nat.eq_zero_or_pos seq_backtrack with rfl | hpos
  · obtain ⟨rest, hrest⟩ := hgap rfl
    rw [← hrest, ← List.cons_append] at hchain
    exact (accepted_of_chain hinit as hchain.left_of_append).1
  · have htrans : Trans Later Later Later := ⟨Later.trans⟩
    have hall := List.isChain_iff_pairwise.mp (hchain.imp fun _ _ => Next.later)
    exact accepted_of_later hpos hinit as hclock (hall.sublist (hsub.cons_cons _))

/-- **No id twice.**  A sender never writes the same id again, over a turn of the counter and in
    either form. -/
theorem nodup_readAll_packets (long_form : Bool) (clock : List Nat)
    (hsent : ∀ now ∈ clock, 0 < now ∧ now < 2 ^ 32) :
    (readAll long_form (packets long_form ⟨0, 0⟩ clock)).Nodup := by
  have hchain := @chain_readAll long_form ⟨0, 0⟩ (.inl ⟨rfl, rfl⟩) clock hsent
  have htrans : Trans Later Later Later := ⟨Later.trans⟩
  have hall := List.isChain_iff_pairwise.mp (hchain.imp fun _ _ => Next.later)
  refine (List.pairwise_cons.mp hall).2.imp fun {a b} hlater heq => ?_
  subst heq
  rcases hlater.2 with hlt | ⟨-, hlt⟩
  · exact absurd hlt (Nat.lt_irrefl _)
  · exact absurd hlt (UInt32.lt_irrefl _)

/-! ### A run -/

/-- Ids out of order and twice, and one that came too late. -/
def shuffled : List Arrival :=
  [⟨100, ⟨3, 0⟩⟩, ⟨100, ⟨1, 0⟩⟩, ⟨101, ⟨3, 0⟩⟩, ⟨101, ⟨6, 0⟩⟩, ⟨102, ⟨2, 0⟩⟩, ⟨130, ⟨5, 0⟩⟩,
    ⟨130, ⟨7, 0⟩⟩]

theorem nodup_accepted_shuffled : ∃ p, init 4 15 = some p ∧
    ((receiver p).run shuffled).accepted = [⟨3, 0⟩, ⟨1, 0⟩, ⟨6, 0⟩, ⟨7, 0⟩] ∧
    ((receiver p).run shuffled).accepted.Nodup :=
  ⟨_, rfl, by decide +kernel, @nodup_accepted 4 15 _ rfl shuffled (by decide)⟩

/-- The id 5 was in the window, but a later one had been there for more than 15 seconds. -/
theorem checkReplay_iff_fresh_shuffled : ∃ p, init 4 15 = some p ∧
    (((receiver p).run shuffled).state.checkReplay 130 ⟨5, 0⟩).1 = false ∧
    ((((receiver p).run shuffled).state.checkReplay 130 ⟨5, 0⟩).1 = true ↔
      Fresh 4 15 (((receiver p).run shuffled).reapLog 130) ⟨5, 0⟩) :=
  ⟨_, rfl, by decide +kernel,
    @checkReplay_iff_fresh 4 15 _ (by decide) rfl shuffled (by decide) 130 ⟨5, 0⟩⟩

/-- Three packets of a sender in the long form, the second of which is lost. -/
theorem accepted_sent_lost : ∃ p, init 4 15 = some p ∧
    readAll true (packets true ⟨0, 0⟩ [50, 51, 52]) = [⟨1, 50⟩, ⟨2, 50⟩, ⟨3, 50⟩] ∧
    ((receiver p).run [⟨60, ⟨1, 50⟩⟩, ⟨61, ⟨3, 50⟩⟩]).accepted = [⟨1, 50⟩, ⟨3, 50⟩] :=
  ⟨_, rfl, by decide +kernel, @accepted_sent 4 15 _ rfl true [50, 51, 52] (by decide)
    [⟨60, ⟨1, 50⟩⟩, ⟨61, ⟨3, 50⟩⟩] (by decide) (by decide +kernel)
    (fun h => absurd h (by decide))⟩

theorem nodup_readAll_packets_three :
    readAll false (packets false ⟨0, 0⟩ [50, 51, 52]) = [⟨1, 0⟩, ⟨2, 0⟩, ⟨3, 0⟩] ∧
      (readAll false (packets false ⟨0, 0⟩ [50, 51, 52])).Nodup :=
  ⟨by decide +kernel, nodup_readAll_packets false [50, 51, 52] (by decide)⟩

end PacketIdRec

end OpenVpnAndroid
