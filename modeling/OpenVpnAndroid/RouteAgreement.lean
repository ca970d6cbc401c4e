/-
  OpenVpnAndroid/RouteAgreement.lean
  ==================================
  **Does the list without overlaps route like the longest prefix?**

  A round of `generateIPList` should leave the decisions of the longest prefix
  as they are.  Two branches can fail to:

    * a network inside a bigger one of the same kind is ignored, although a
      network of the other kind that starts at the same address is next in the
      queue (`Ignores`);
    * the second half of a network that is split is added next to an equal
      network of the other kind (`Doubles`).

  Without the second the loop ends.  Without both its list agrees with the
  longest prefix; and the first one always breaks the agreement, at the address
  where the ignored network starts.
-/
import OpenVpnAndroid.NetworkRound

namespace OpenVpnAndroid

open LongestMatch

namespace NetworkSpace

variable {isV4 : Bool} {Q : PriorityQueue IpAddress IpAddress.le}
  {c next : IpAddress} {networks done : List IpAddress} {s : LoopState}

/-! ### The two defects -/

/-- The last branch of the loop: the next network lies inside the current one. -/
def Inside (c next : IpAddress) : Prop :=
  ¬ c.getLastAddress < next.getFirstAddress ∧
    ¬ (c.getFirstAddress = next.getFirstAddress ∧ c.networkMask ≥ next.networkMask)

/-- `next` is ignored, and the network that follows it starts at the same
    address and is of the other kind. -/
def IgnoresNext (c next : IpAddress) (networks : List IpAddress) : Prop :=
  Inside c next ∧ c.included = next.included ∧
    ∃ m ∈ networks, m.getFirstAddress = next.getFirstAddress ∧
      m.included ≠ next.included ∧ ∀ x ∈ networks, m.le x

/-- The second half of `c` is added, and an equal network of the other kind is in
    the queue. -/
def DoublesHalf (c next : IpAddress) (networks : List IpAddress) : Prop :=
  Inside c next ∧ c.included ≠ next.included ∧ c.split.2.networkMask ≠ next.networkMask ∧
    ∃ m ∈ networks, c.split.2.equals m = true ∧ m.included ≠ c.included

/-- The round that starts in `s` polls `next` and finds `P`. -/
def RoundMeets (Q : PriorityQueue IpAddress IpAddress.le)
    (P : IpAddress → IpAddress → List IpAddress → Prop) (s : LoopState) : Prop :=
  ∃ c next networks, s.currentNet = some c ∧ Q.poll s.networks = some (next, networks) ∧
    P c next networks

/-! ### A round and the decisions -/

/-- The networks of a state. -/
def nets (s : LoopState) : List IpAddress := s.ipsDone ++ (s.currentNet.toList ++ s.networks)

/-- The invariant of the loop, and what it leaves behind. -/
def Sound (isV4 : Bool) (s : LoopState) : Prop :=
  match s.currentNet with
  | none => s.networks = [] ∧ ∀ d ∈ s.ipsDone, ∀ e ∈ s.ipsDone, ∀ a,
      d.Contains a → e.Contains a → d = e
  | some c => Ordered isV4 c s.networks s.ipsDone

/-- The weight that is left to work on. -/
def remaining (s : LoopState) : Nat := weight (s.currentNet.toList ++ s.networks)

theorem weight_pos {n : IpAddress} : 0 < 3 ^ n.numBits := Nat.pow_pos (by decide)

/-- Two halves weigh less than the whole. -/
theorem weight_halves {n : IpAddress} {ps : List IpAddress} {k : Nat}
    (hps : ∀ p ∈ ps, p.numBits + 1 = n.numBits) (hlength : ps.length ≤ k) :
    3 * weight ps ≤ k * 3 ^ n.numBits := by
  induction ps generalizing k with
  | nil => simp [weight]
  | cons p ps ih =>
    have hp := hps p List.mem_cons_self
    have ih := ih (fun q hq => hps q (List.mem_cons_of_mem _ hq)) (k := k - 1) (by
      rw [List.length_cons] at hlength
      omega)
    have hpow : 3 ^ n.numBits = 3 ^ p.numBits * 3 := by rw [← hp, pow_succ]
    have hk : k = k - 1 + 1 := by
      rw [List.length_cons] at hlength
      omega
    rw [weight_cons, hk, Nat.add_mul]
    omega

/-- A round that doubles no half keeps the invariant and makes the rest lighter.
    If it ignores no network either, every decision stays. -/
theorem Outcome.sound {s' : LoopState} (ho : Outcome c next networks done s')
    (h : Ordered isV4 c (next :: networks) done) (hle : ∀ m ∈ networks, next.le m)
    (hdoubles : ¬ DoublesHalf c next networks) :
    Sound isV4 s' ∧ remaining s' < weight (c :: next :: networks) ∧
      (¬ IgnoresNext c next networks →
        ∀ a b, Decides (done ++ c :: next :: networks) a b ↔ Decides (nets s') a b) := by
  have hc := h.valid c List.mem_cons_self
  have hn := h.valid next (List.mem_cons_of_mem _ List.mem_cons_self)
  have hle' := IpAddress.le_iff.mp (h.le next List.mem_cons_self)
  have hcpos := @weight_pos c
  have hnpos := @weight_pos next
  cases ho with
  | apart hapart =>
    refine ⟨h.apart hapart hle, ?_, ?_⟩
    · simp only [remaining, Option.toList_some, List.singleton_append, weight_cons]
      omega
    · intro _ a b
      apply longest_congr
      intro n
      simp only [nets, Option.toList_some, List.singleton_append, List.mem_append, List.mem_cons,
        h.mem_treeAdd n]
      tauto
  | underSame hfirst hsame =>
    refine ⟨h.under_same hfirst hle, ?_, fun _ => h.decides_under_same hfirst hsame hle⟩
    simp only [remaining, Option.toList_some, List.singleton_append, weight_cons]
    omega
  | @underSplit ps networks' hfirst hdiffer hps hnew hcover hlength hperm =>
    have hmask := h.networkMask_lt hfirst hdiffer
    have hbits := IpAddress.numBits_split hn (hmask.trans_le hc.networkMask_le)
    refine ⟨(h.under_split hfirst hdiffer hps hnew).congr fun n => hperm.mem_iff, ?_, ?_⟩
    · have hhalves : 3 * weight ps ≤ 2 * 3 ^ next.numBits := by
        apply weight_halves _ hlength
        intro p hp
        rcases hps p hp with rfl | rfl
        · exact hbits.1
        · exact hbits.2
      simp only [remaining, Option.toList_some, List.singleton_append, weight_cons,
        weight_perm hperm, weight_append]
      omega
    · intro _ a b
      refine (h.decides_under_split hfirst hdiffer hps hnew hcover a b).trans ?_
      apply longest_congr
      intro n
      simp only [nets, Option.toList_some, List.singleton_append, List.mem_append, List.mem_cons,
        hperm.mem_iff]
  | insideSame hmeet hfirst hsame =>
    refine ⟨h.inside_same, ?_, ?_⟩
    · simp only [remaining, Option.toList_some, List.singleton_append, weight_cons]
      omega
    · intro hignores
      apply h.decides_inside_same hle hmeet hfirst hsame
      intro hlast
      exact hignores ⟨⟨hmeet, fun hunder => hfirst hunder.1⟩, hsame, hlast⟩
  | @insideSplit ps networks' hmeet hfirst hdiffer hps hcover hlength hperm =>
    have halike : ∀ p ∈ ps, ∀ m ∈ networks, p.equals m = true → p.included = m.included := by
      intro p hp m hm heq
      obtain ⟨rfl, hmask⟩ := hps p hp
      by_contra hne
      exact hdoubles ⟨⟨hmeet, fun hunder => hfirst hunder.1⟩, hdiffer, hmask, m, hm, heq,
        fun h => hne h.symm⟩
    have hmask := (h.inside hmeet hfirst).1
    have hbits := IpAddress.numBits_split hc (hmask.trans_le hn.networkMask_le)
    refine ⟨(h.inside_split hmeet hfirst hps halike).congr fun n => hperm.mem_iff, ?_, ?_⟩
    · have hhalves : 3 * weight (c.split.1 :: ps) ≤ 2 * 3 ^ c.numBits := by
        apply weight_halves _ (Nat.succ_le_succ hlength)
        intro p hp
        rcases List.mem_cons.mp hp with rfl | hp
        · exact hbits.1
        · rw [(hps p hp).1]
          exact hbits.2
      rw [weight_cons] at hhalves
      simp only [remaining, Option.toList_some, List.singleton_append, weight_cons,
        weight_perm hperm, weight_append]
      omega
    · intro _ a b
      refine (h.decides_inside_split hmeet hfirst hps halike hcover a b).trans ?_
      apply longest_congr
      intro n
      simp only [nets, Option.toList_some, List.singleton_append, List.mem_append, List.mem_cons,
        hperm.mem_iff]

/-- A round from a sound state that doubles no half. -/
theorem iteration_sound (hs : Sound isV4 s) (hdoubles : ¬ RoundMeets Q DoublesHalf s) :
    Sound isV4 (iteration Q s) ∧
      (s.currentNet ≠ none → remaining (iteration Q s) < remaining s) ∧
      (¬ RoundMeets Q IgnoresNext s →
        ∀ a b, Decides (nets s) a b ↔ Decides (nets (iteration Q s)) a b) := by
  rcases s with ⟨_ | c, q, done⟩
  · exact ⟨hs, fun h => absurd rfl h, fun _ _ _ => Iff.rfl⟩
  have hs : Ordered isV4 c q done := hs
  rw [iteration]
  dsimp only
  split
  · next hpoll =>
    -- the queue is empty: the current network is the last one
    obtain rfl := Q.poll_eq_none hpoll
    have hcpos := @weight_pos c
    refine ⟨⟨rfl, ?_⟩, ?_, ?_⟩
    · intro d hd e he a hda hea
      rcases (hs.mem_treeAdd d).mp hd with rfl | hd'
      · rcases (hs.mem_treeAdd e).mp he with rfl | he'
        · rfl
        · exact absurd hda (hs.not_contains_done he' List.mem_cons_self hea)
      · rcases (hs.mem_treeAdd e).mp he with rfl | he'
        · exact absurd hea (hs.not_contains_done hd' List.mem_cons_self hda)
        · exact hs.done_apart d hd' e he' a hda hea
    · intro _
      change weight [] < weight [c]
      rw [weight_cons]
      omega
    · intro _ a b
      apply longest_congr
      intro n
      simp only [nets, Option.toList_some, Option.toList_none, List.append_nil, List.mem_append,
        List.mem_singleton, hs.mem_treeAdd n]
      tauto
  · next next networks hpoll =>
    have hperm := Q.poll_perm hpoll
    have h : Ordered isV4 c (next :: networks) done := hs.congr fun n => hperm.mem_iff.symm
    obtain ⟨hsound, hless, hdecides⟩ := (h.outcome Q).sound h (Q.poll_le hpoll)
      fun hd => hdoubles ⟨c, next, networks, rfl, hpoll, hd⟩
    refine ⟨hsound, ?_, ?_⟩
    · intro _
      have hw : weight q = weight (next :: networks) := weight_perm hperm
      rw [weight_cons] at hless
      simp only [remaining, Option.toList_some, List.singleton_append, weight_cons, hw]
      simpa only [weight_cons, remaining] using hless
    · intro hignores a b
      refine Iff.trans ?_ (hdecides (fun hi => hignores ⟨c, next, networks, rfl, hpoll, hi⟩) a b)
      apply longest_congr
      intro n
      simp only [nets, Option.toList_some, List.singleton_append, List.mem_append, List.mem_cons,
        hperm.mem_iff]

/-! ### Runs of the loop -/

variable {additions : List (Addition isV4)}

theorem loopState_succ (S : List IpAddress) (n : Nat) :
    loopState Q S (n + 1) = iteration Q (loopState Q S n) :=
  Function.iterate_succ_apply' _ _ _

/-- Once the loop has ended nothing changes. -/
theorem loopState_stable {S : List IpAddress} {n m : Nat}
    (hend : (loopState Q S n).currentNet = none) (hnm : n ≤ m) :
    loopState Q S m = loopState Q S n := by
  induction hnm with
  | refl => rfl
  | step _ ih =>
    rw [loopState_succ, ih, iteration, hend]

/-- The networks as they were put in. -/
theorem start_sound (additions : List (Addition isV4)) :
    Sound isV4 (start Q (mIpAddresses additions)) ∧
      ∀ n, n ∈ nets (start Q (mIpAddresses additions)) ↔ n ∈ mIpAddresses additions := by
  obtain ⟨hvalid, hsorted⟩ := mIpAddresses_sound additions
  rw [start]
  split
  · next hpoll =>
    rw [Q.poll_eq_none hpoll]
    exact ⟨⟨rfl, by simp⟩, fun n => Iff.rfl⟩
  · next c networks hpoll =>
    have hperm := Q.poll_perm hpoll
    have hsub : ∀ n ∈ c :: networks, n ∈ mIpAddresses additions := fun n hn => hperm.mem_iff.mpr hn
    refine ⟨⟨fun n hn => hvalid n (hsub n hn), Q.poll_le hpoll,
      (alike_of_pairwise hsorted).mono hsub, by simp, by simp⟩, ?_⟩
    intro n
    rw [hperm.mem_iff]
    rfl

theorem loopState_sound
    (hdoubles : ∀ n, ¬ RoundMeets Q DoublesHalf (loopState Q (mIpAddresses additions) n)) (n : Nat) :
    Sound isV4 (loopState Q (mIpAddresses additions) n) := by
  induction n with
  | zero => exact (start_sound additions).1
  | succ n ih =>
    rw [loopState_succ]
    exact (iteration_sound ih (hdoubles n)).1

/-- As long as no network is ignored the decisions are those of the networks as
    they were put in. -/
theorem decides_loopState
    (hdoubles : ∀ n, ¬ RoundMeets Q DoublesHalf (loopState Q (mIpAddresses additions) n)) (n : Nat)
    (hignores : ∀ k < n, ¬ RoundMeets Q IgnoresNext (loopState Q (mIpAddresses additions) k))
    (a : Nat) (b : Bool) :
    Decides (mIpAddresses additions) a b ↔
      Decides (nets (loopState Q (mIpAddresses additions) n)) a b := by
  induction n with
  | zero => exact longest_congr fun n => ((start_sound additions).2 n).symm
  | succ n ih =>
    rw [loopState_succ, ih fun k hk => hignores k (by omega)]
    exact (iteration_sound (loopState_sound hdoubles n) (hdoubles n)).2.2
      (hignores n (by omega)) a b

/-- The loop ends: each round makes the rest lighter. -/
theorem loop_ends
    (hdoubles : ∀ n, ¬ RoundMeets Q DoublesHalf (loopState Q (mIpAddresses additions) n)) :
    ∃ n, (loopState Q (mIpAddresses additions) n).currentNet = none := by
  by_contra hrun
  push Not at hrun
  have hless : ∀ n, remaining (loopState Q (mIpAddresses additions) n) + n ≤
      remaining (loopState Q (mIpAddresses additions) 0) := by
    intro n
    induction n with
    | zero => exact Nat.le_refl _
    | succ n ih =>
      have hround := (iteration_sound (loopState_sound hdoubles n) (hdoubles n)).2.1 (hrun n)
      rw [← loopState_succ] at hround
      omega
  have := hless (remaining (loopState Q (mIpAddresses additions) 0) + 1)
  omega

/-- An address of the final list is decided by the only network it is in. -/
theorem decides_done (hs : Sound isV4 s) (hend : s.currentNet = none) {a : Nat} {b : Bool} :
    Decides (nets s) a b ↔ ∃ d ∈ s.ipsDone, d.Contains a ∧ d.included = b := by
  rcases s with ⟨_ | c, q, done⟩
  · obtain ⟨hq, hapart⟩ := hs
    obtain rfl : q = [] := hq
    simp only [nets, Option.toList_none, List.append_nil]
    constructor
    · rintro ⟨d, hd, hda, hb, -⟩
      exact ⟨d, hd, hda, hb⟩
    · rintro ⟨d, hd, hda, hb⟩
      refine ⟨d, hd, hda, hb, ?_⟩
      intro e he hea
      rw [hapart d hd e he a hda hea]
  · cases hend

/-! ### An ignored network decides its first address wrongly -/

/-- The address `a` will be decided as `b`: by a network in the queue that starts
    there and that only networks of the other kind precede, by the current
    network, or by one that is done. -/
def Settles (a : Nat) (b : Bool) (s : LoopState) : Prop :=
  match s.currentNet with
  | none => ∃ d ∈ s.ipsDone, d.Contains a ∧ d.included = b
  | some c =>
      (c.getFirstAddress < a ∧ c.included ≠ b ∧
        (∀ x ∈ s.networks, x.getFirstAddress < a → x.included ≠ b) ∧
        ∃ m ∈ s.networks, m.getFirstAddress = a ∧ m.included = b ∧
          ∀ x ∈ s.networks, x.getFirstAddress = a → m.le x) ∨
      (c.getFirstAddress = a ∧ c.included = b) ∨
      (a < c.getFirstAddress ∧ ∃ d ∈ s.ipsDone, d.Contains a ∧ d.included = b)

theorem Outcome.settles {s' : LoopState} {a : Nat} {b : Bool}
    (ho : Outcome c next networks done s') (h : Ordered isV4 c (next :: networks) done)
    (hle : ∀ m ∈ networks, next.le m) (hs : Settles a b ⟨some c, next :: networks, done⟩) :
    Settles a b s' := by
  have hcn := h.getFirstAddress_le
  have hcc := c.contains_getFirstAddress
  rcases hs with ⟨hca, hcb, hbefore, m, hm, hma, hmb, hleast⟩ | ⟨hca, hcb⟩ | ⟨hca, d, hd, hda, hdb⟩
  · -- the network that decides is still in the queue
    have hnm : next.getFirstAddress ≤ a := by
      rcases List.mem_cons.mp hm with rfl | hm
      · exact hma.le
      · have := IpAddress.le_iff.mp (hle m hm)
        omega
    have hbefore' : ∀ x ∈ networks, x.getFirstAddress < a → x.included ≠ b :=
      fun x hx => hbefore x (List.mem_cons_of_mem _ hx)
    rcases hnm.lt_or_eq with hna | hna
    · -- `next` precedes it and is of the kind of `c`
      have hnb : next.included ≠ b := hbefore next List.mem_cons_self hna
      have hm' : m ∈ networks := by
        rcases List.mem_cons.mp hm with rfl | hm
        · omega
        · exact hm
      have hleast' : ∀ x ∈ networks, x.getFirstAddress = a → m.le x :=
        fun x hx => hleast x (List.mem_cons_of_mem _ hx)
      have hsame : c.included = next.included := by
        rw [Bool.eq_not.mpr hcb, Bool.eq_not.mpr hnb]
      cases ho with
      | apart hapart => exact .inl ⟨hna, hnb, hbefore', m, hm', hma, hmb, hleast'⟩
      | underSame hfirst _ => exact .inl ⟨hna, hnb, hbefore', m, hm', hma, hmb, hleast'⟩
      | underSplit _ _ hdiffer => exact absurd hsame hdiffer
      | insideSame hmeet hfirst _ => exact .inl ⟨hca, hcb, hbefore', m, hm', hma, hmb, hleast'⟩
      | insideSplit _ _ _ hdiffer => exact absurd hsame hdiffer
    · -- `next` is the network that decides, or an equal one
      have hnb : next.included = b := by
        rcases List.mem_cons.mp hm with rfl | hm'
        · exact hmb
        · have h1 := IpAddress.le_iff.mp (hleast next List.mem_cons_self hna)
          have h2 := IpAddress.le_iff.mp (hle m hm')
          rw [← hmb]
          exact h.alike next (by simp) m (by simp [hm'])
            (IpAddress.equals_iff.mpr ⟨by omega, by omega⟩)
      have hdiffer : c.included ≠ next.included := by
        rw [hnb]
        exact hcb
      cases ho with
      | apart hapart => exact .inr (.inl ⟨hna, hnb⟩)
      | underSame hfirst hsame => exact absurd hsame hdiffer
      | underSplit _ hfirst => omega
      | insideSame hmeet hfirst hsame => exact absurd hsame hdiffer
      | @insideSplit ps networks' hmeet hfirst _ hps hcover hlength hperm =>
        have hmask := (h.inside hmeet hfirst).1
        have hn := h.valid next (by simp)
        have hf := IpAddress.split_first (h.valid c List.mem_cons_self)
          (hmask.trans_le hn.networkMask_le)
        have hc1 : c.split.1.getFirstAddress < a := by
          rw [hf.1]
          exact hca
        have hmem : ∀ x ∈ networks', x = c.split.2 ∧ x.networkMask ≠ next.networkMask ∨
            x = next ∨ x ∈ networks := by
          intro x hx
          rw [hperm.mem_iff, List.mem_append, List.mem_cons] at hx
          exact hx.imp_left (hps x)
        refine .inl ⟨hc1, hcb, ?_, next, hperm.mem_iff.mpr (by simp), hna, hnb, ?_⟩
        · intro x hx hxa
          rcases hmem x hx with ⟨rfl, -⟩ | rfl | hx
          · exact hcb
          · omega
          · exact hbefore' x hx hxa
        · intro x hx hxa
          rcases hmem x hx with ⟨rfl, hne⟩ | rfl | hx
          · have h2 : c.split.2.networkMask = c.networkMask + 1 := rfl
            exact IpAddress.le_iff.mpr (.inr ⟨by omega, by omega⟩)
          · exact IpAddress.le_iff.mpr (.inr ⟨rfl, Nat.le_refl _⟩)
          · exact hle x hx
  · -- the current network decides, and each of its first halves after it
    cases ho with
    | apart hapart =>
      refine .inr (.inr ⟨?_, c, (h.mem_treeAdd c).mpr (.inl rfl), hca ▸ hcc, hcb⟩)
      have := hcc.2
      omega
    | underSame hfirst hsame => exact .inr (.inl ⟨hfirst ▸ hca, hsame ▸ hcb⟩)
    | underSplit => exact .inr (.inl ⟨hca, hcb⟩)
    | insideSame => exact .inr (.inl ⟨hca, hcb⟩)
    | insideSplit _ hmeet hfirst =>
      have hmask := (h.inside hmeet hfirst).1
      have hn := h.valid next (by simp)
      have hf := IpAddress.split_first (h.valid c List.mem_cons_self)
        (hmask.trans_le hn.networkMask_le)
      exact .inr (.inl ⟨hf.1.trans hca, hcb⟩)
  · -- what is done stays done
    cases ho with
    | apart hapart =>
      refine .inr (.inr ⟨by omega, d, (h.mem_treeAdd d).mpr (.inr hd), hda, hdb⟩)
    | underSame hfirst => exact .inr (.inr ⟨hfirst ▸ hca, d, hd, hda, hdb⟩)
    | underSplit => exact .inr (.inr ⟨hca, d, hd, hda, hdb⟩)
    | insideSame => exact .inr (.inr ⟨hca, d, hd, hda, hdb⟩)
    | insideSplit _ hmeet hfirst =>
      have hmask := (h.inside hmeet hfirst).1
      have hn := h.valid next (by simp)
      have hf := IpAddress.split_first (h.valid c List.mem_cons_self)
        (hmask.trans_le hn.networkMask_le)
      exact .inr (.inr ⟨hf.1 ▸ hca, d, hd, hda, hdb⟩)

theorem iteration_settles {a : Nat} {b : Bool} (hs : Sound isV4 s) (h : Settles a b s) :
    Settles a b (iteration Q s) := by
  rcases s with ⟨_ | c, q, done⟩
  · exact h
  have hs : Ordered isV4 c q done := hs
  rw [iteration]
  dsimp only
  split
  · next hpoll =>
    obtain rfl := Q.poll_eq_none hpoll
    rcases h with ⟨-, -, -, m, hm, -⟩ | ⟨hca, hcb⟩ | ⟨-, d, hd, hda, hdb⟩
    · cases hm
    · exact ⟨c, (hs.mem_treeAdd c).mpr (.inl rfl), hca ▸ c.contains_getFirstAddress, hcb⟩
    · exact ⟨d, (hs.mem_treeAdd d).mpr (.inr hd), hda, hdb⟩
  · next next networks hpoll =>
    have hperm := Q.poll_perm hpoll
    have hs' : Ordered isV4 c (next :: networks) done := hs.congr fun n => hperm.mem_iff.symm
    apply (hs'.outcome Q).settles hs' (Q.poll_le hpoll)
    simpa only [Settles, hperm.mem_iff] using h

/-- The round that ignores a network: the longest prefix at its first address is
    that network, and the loop will decide the address the other way. -/
theorem settles_of_ignores (hs : Sound isV4 s) (h : RoundMeets Q IgnoresNext s) :
    ∃ a b, Decides (nets s) a b ∧ Settles a (!b) (iteration Q s) := by
  obtain ⟨c, next, networks, hcur, hpoll, ⟨hmeet, hunder⟩, hsame, m, hm, hmfirst, hmb, hleast⟩ := h
  rcases s with ⟨_ | c', q, done⟩
  · cases hcur
  obtain rfl : c' = c := Option.some.inj hcur
  have hperm := Q.poll_perm hpoll
  have hle := Q.poll_le hpoll
  have hs : Ordered isV4 c' (next :: networks) done :=
    Ordered.congr hs fun n => hperm.mem_iff.symm
  have hcn := IpAddress.le_iff.mp (hs.le next List.mem_cons_self)
  have hfirst : c'.getFirstAddress ≠ next.getFirstAddress := fun heq => hunder ⟨heq, by omega⟩
  obtain ⟨hmask, hlt, hcontains⟩ := hs.inside hmeet hfirst
  refine ⟨next.getFirstAddress, next.included, ?_, ?_⟩
  · refine ⟨next, ?_, next.contains_getFirstAddress, rfl, ?_⟩
    · simp only [nets, List.mem_append, hperm.mem_iff]
      simp
    · intro t ht hta
      simp only [nets, Option.toList_some, List.singleton_append, List.mem_append, List.mem_cons,
        hperm.mem_iff] at ht
      rcases ht with ht | rfl | rfl | ht
      · exact absurd hcontains (hs.not_contains_done ht List.mem_cons_self hta)
      · exact hmask.le
      · exact Nat.le_refl _
      · have := IpAddress.le_iff.mp (hle t ht)
        have := hta.1
        omega
  · have hround : iteration Q ⟨some c', q, done⟩ = ⟨some c', networks, done⟩ := by
      simp only [iteration, hpoll, meet, if_neg hmeet, if_neg hunder, if_pos hsame]
    rw [hround]
    refine .inl ⟨hlt, ?_, ?_, m, hm, hmfirst, Bool.eq_not.mpr hmb, fun x hx _ => hleast x hx⟩
    · rw [hsame]
      exact Bool.not_eq_not.mpr rfl
    · intro x hx hxa
      have := IpAddress.le_iff.mp (hle x hx)
      omega

/-! ### The claim -/

/-- `getPositiveIPList` returns, and an address lies in one of its networks
    exactly when the longest prefix that contains it is an included one. -/
def Agrees (Q : PriorityQueue IpAddress IpAddress.le) (mIpAddresses : List IpAddress) : Prop :=
  ∃ ipsDone, GeneratesIPList Q mIpAddresses ipsDone ∧
    ∀ a, (∃ n ∈ getPositiveIPList ipsDone, n.Contains a) ↔ Decides mIpAddresses a true

theorem consistent_mIpAddresses (additions : List (Addition isV4)) :
    Consistent IpAddress.Contains IpAddress.networkMask IpAddress.included
      (mIpAddresses additions) := by
  obtain ⟨hvalid, hsorted⟩ := mIpAddresses_sound additions
  intro n hn m hm a hna hma hmask
  exact alike_of_pairwise hsorted n hn m hm (hna.equals (hvalid n hn) (hvalid m hm) hmask hma)

theorem mem_getPositiveIPList {n : IpAddress} {ipsDone : List IpAddress} :
    n ∈ getPositiveIPList ipsDone ↔ n ∈ ipsDone ∧ n.included = true :=
  List.mem_filter

/-- For every set of networks and every priority queue: when no round ignores a
    network or doubles a half, the list agrees with the longest prefix; and when
    no round doubles a half, a round that ignores a network breaks the
    agreement. -/
theorem getPositiveIPList_agrees (Q : PriorityQueue IpAddress IpAddress.le)
    (additions : List (Addition isV4)) :
    let S := mIpAddresses additions
    ((∀ n, ¬ RoundMeets Q DoublesHalf (loopState Q S n) ∧
        ¬ RoundMeets Q IgnoresNext (loopState Q S n)) → Agrees Q S) ∧
      ((∀ n, ¬ RoundMeets Q DoublesHalf (loopState Q S n)) →
        (∃ n, RoundMeets Q IgnoresNext (loopState Q S n)) → ¬ Agrees Q S) := by
  intro S
  constructor
  · intro hclean
    have hdoubles := fun n => (hclean n).1
    obtain ⟨n, hend⟩ := loop_ends hdoubles
    refine ⟨_, ⟨n, hend, rfl⟩, ?_⟩
    intro a
    rw [decides_loopState hdoubles n (fun k _ => (hclean k).2),
      decides_done (loopState_sound hdoubles n) hend]
    simp only [mem_getPositiveIPList]
    constructor
    · rintro ⟨d, ⟨hd, hb⟩, hda⟩
      exact ⟨d, hd, hda, hb⟩
    · rintro ⟨d, hd, hda, hb⟩
      exact ⟨d, ⟨hd, hb⟩, hda⟩
  · rintro hdoubles hignores ⟨ipsDone, ⟨n, hend, rfl⟩, hagrees⟩
    -- the first round that ignores a network
    classical
    have hfirst := Nat.find_spec hignores
    have hmin : ∀ k < Nat.find hignores, ¬ RoundMeets Q IgnoresNext (loopState Q S k) :=
      fun k hk => Nat.find_min hignores hk
    obtain ⟨a, b, hdecides, hsettles⟩ :=
      settles_of_ignores (loopState_sound hdoubles _) hfirst
    rw [← decides_loopState hdoubles _ hmin] at hdecides
    have hlater : ∀ k, Settles a (!b) (loopState Q S (Nat.find hignores + 1 + k)) := by
      intro k
      induction k with
      | zero =>
        rw [Nat.add_zero, loopState_succ]
        exact hsettles
      | succ k ih =>
        rw [← Nat.add_assoc, loopState_succ]
        exact iteration_settles (loopState_sound hdoubles _) ih
    have hlt : Nat.find hignores < n := by
      by_contra hge
      obtain ⟨c, -, -, hcur, -⟩ := hfirst
      rw [loopState_stable hend (by omega), hend] at hcur
      cases hcur
    have hsettled := hlater (n - (Nat.find hignores + 1))
    rw [Nat.add_sub_of_le hlt, Settles, hend] at hsettled
    obtain ⟨d, hd, hda, hdb⟩ := hsettled
    have hsound := loopState_sound hdoubles n
    rw [Sound, hend] at hsound
    rcases b with _ | _
    · have htrue := (hagrees a).mp ⟨d, mem_getPositiveIPList.mpr ⟨hd, hdb⟩, hda⟩
      exact absurd (hdecides.unique (consistent_mIpAddresses additions) htrue) (by decide)
    · obtain ⟨e, he, hea⟩ := (hagrees a).mpr hdecides
      obtain ⟨he, heb⟩ := mem_getPositiveIPList.mp he
      rw [hsound.2 d hd e he a hda hea, heb] at hdb
      cases hdb

/-! ### A network that is lost -/

/-- A plain priority queue, which looks for the least element. -/
def pollLeast : List IpAddress → Option (IpAddress × List IpAddress)
  | [] => none
  | x :: xs =>
      match pollLeast xs with
      | none => some (x, [])
      | some (y, rest) => if x.le y then some (x, y :: rest) else some (y, x :: rest)

theorem pollLeast_eq_none {q : List IpAddress} (h : pollLeast q = none) : q = [] := by
  rcases q with _ | ⟨x, xs⟩
  · rfl
  · rw [pollLeast] at h
    split at h
    · cases h
    · split_ifs at h

theorem pollLeast_perm {q rest : List IpAddress} {x : IpAddress}
    (h : pollLeast q = some (x, rest)) : q.Perm (x :: rest) := by
  induction q generalizing x rest with
  | nil => cases h
  | cons y ys ih =>
    rw [pollLeast] at h
    split at h
    · next hnone =>
      obtain ⟨rfl, rfl⟩ := Prod.mk.inj (Option.some.inj h)
      rw [pollLeast_eq_none hnone]
    · next z rest' hsome =>
      have hperm := ih hsome
      split_ifs at h
      · obtain ⟨rfl, rfl⟩ := Prod.mk.inj (Option.some.inj h)
        exact hperm.cons _
      · obtain ⟨rfl, rfl⟩ := Prod.mk.inj (Option.some.inj h)
        exact (hperm.cons _).trans (List.Perm.swap _ _ _)

theorem pollLeast_le {q rest : List IpAddress} {x : IpAddress}
    (h : pollLeast q = some (x, rest)) : ∀ y ∈ rest, x.le y := by
  induction q generalizing x rest with
  | nil => cases h
  | cons y ys ih =>
    rw [pollLeast] at h
    split at h
    · obtain ⟨rfl, rfl⟩ := Prod.mk.inj (Option.some.inj h)
      simp
    · next z rest' hsome =>
      have hz := ih hsome
      split_ifs at h with hyz
      · obtain ⟨rfl, rfl⟩ := Prod.mk.inj (Option.some.inj h)
        intro w hw
        rcases List.mem_cons.mp hw with rfl | hw
        · exact hyz
        · have := hz w hw
          rw [IpAddress.le_iff] at this hyz ⊢
          omega
      · obtain ⟨rfl, rfl⟩ := Prod.mk.inj (Option.some.inj h)
        intro w hw
        rcases List.mem_cons.mp hw with rfl | hw
        · rw [IpAddress.le_iff] at hyz ⊢
          omega
        · exact hz w hw

def leastFirst : PriorityQueue IpAddress IpAddress.le where
  add := List.cons
  poll := pollLeast
  add_perm _ _ := List.Perm.refl _
  poll_perm := pollLeast_perm
  poll_le := pollLeast_le
  poll_eq_none := pollLeast_eq_none

/-- 0.0.0.0/0 -/
def everywhere : CidrPrefix true := ⟨0, 0, by decide⟩

/-- Everything through the VPN, but not 10.0.0.0/8, and 10.0.0.0/24 again. -/
def officeNetwork : List (Addition true) :=
  [.addIP everywhere true, .addIP ⟨0x0a000000, 8, by decide⟩ false,
    .addIP ⟨0x0a000000, 24, by decide⟩ true]

theorem not_getPositiveIPList_agrees :
    ¬ ∀ (isV4 : Bool) (Q : PriorityQueue IpAddress IpAddress.le) (additions : List (Addition isV4)),
        Agrees Q (mIpAddresses additions) := by
  intro h
  obtain ⟨ipsDone, ⟨n, hend, rfl⟩, hagrees⟩ := h true leastFirst officeNetwork
  have hend' : (loopState leastFirst (mIpAddresses officeNetwork) 30).currentNet = none := by
    decide +kernel
  have hn : loopState leastFirst (mIpAddresses officeNetwork) n =
      loopState leastFirst (mIpAddresses officeNetwork) 30 := by
    rcases Nat.le_total n 30 with hle | hle
    · exact (loopState_stable hend hle).symm
    · exact loopState_stable hend' hle
  have hincluded : Decides (mIpAddresses officeNetwork) 0x0a000000 true :=
    ⟨⟨0x0a000000, 24, true, true⟩, by decide +kernel, by decide +kernel, rfl, by decide +kernel⟩
  have hlost : ∀ m ∈ getPositiveIPList
      (loopState leastFirst (mIpAddresses officeNetwork) 30).ipsDone,
      ¬ m.Contains 0x0a000000 := by
    decide +kernel
  obtain ⟨m, hm, hcontains⟩ := (hagrees 0x0a000000).mpr hincluded
  rw [hn] at hm
  exact hlost m hm hcontains

end NetworkSpace

end OpenVpnAndroid
