/-
  OpenVpnAndroid/RouteAssertions.lean
  ===================================
  **The assertions of `generateIPList`.**

  A debug build checks in every round what the author of the loop expected, and throws
  if it is not so.  The checks hold as long as the next network never equals the
  current one with the other kind (`Twins`).  The author saw to that where the next
  network is split, whose halves are not added if the queue contains them; the second
  half of the current network is added without a look.  Once twins meet, the round
  fails, or the round after it does (`asserts_iff`).

  Without twins no network has more prefix bits than an address, and the list is a
  partition (`not_stranded_of_no_twins`).
-/
import OpenVpnAndroid.RoutePartition

namespace OpenVpnAndroid

/-- `assertTrue`; `none` is the `IllegalStateException`. -/
def assertTrue (f : Prop) [Decidable f] : Option Unit := if f then some () else none

theorem assertTrue_bind {f : Prop} [Decidable f] (h : f) {α : Type} (k : Unit → Option α) :
    (assertTrue f >>= k) = k () := by
  rw [assertTrue, if_pos h]
  rfl

theorem assertTrue_bind_not {f : Prop} [Decidable f] (h : ¬ f) {α : Type}
    (k : Unit → Option α) : (assertTrue f >>= k) = none := by
  rw [assertTrue, if_neg h]
  rfl

/-- `split` in a debug build. -/
def IpAddress.splitDebug (n : IpAddress) : Option (IpAddress × IpAddress) := do
  let (firstHalf, secondHalf) := n.split
  assertTrue (secondHalf.getLastAddress = n.getLastAddress)
  return (firstHalf, secondHalf)

namespace NetworkSpace

/-! ### The loop in a debug build -/

/-- `meet` with the assertions. -/
def meetDebug (Q : PriorityQueue IpAddress IpAddress.le) (currentNet nextNet : IpAddress)
    (networks ipsDone : List IpAddress) : Option LoopState :=
  if currentNet.getLastAddress < nextNet.getFirstAddress then
    return ⟨some nextNet, networks, treeAdd currentNet ipsDone⟩
  else if currentNet.getFirstAddress = nextNet.getFirstAddress ∧
      currentNet.networkMask ≥ nextNet.networkMask then
    if currentNet.included = nextNet.included then return ⟨some nextNet, networks, ipsDone⟩
    else do
      let newNets ← nextNet.splitDebug
      let networks := addAbsent Q newNets.2 networks
      if newNets.1.getLastAddress = currentNet.getLastAddress then
        assertTrue (newNets.1.networkMask = currentNet.networkMask)
        return ⟨some currentNet, networks, ipsDone⟩
      else return ⟨some currentNet, addAbsent Q newNets.1 networks, ipsDone⟩
  else do
    assertTrue (currentNet.networkMask < nextNet.networkMask)
    assertTrue (nextNet.getFirstAddress > currentNet.getFirstAddress)
    assertTrue (currentNet.getLastAddress ≥ nextNet.getLastAddress)
    if currentNet.included = nextNet.included then return ⟨some currentNet, networks, ipsDone⟩
    else
      let newNets ← currentNet.splitDebug
      if newNets.2.networkMask = nextNet.networkMask then
        assertTrue (newNets.2.getFirstAddress = nextNet.getFirstAddress)
        assertTrue (newNets.2.getLastAddress = currentNet.getLastAddress)
        return ⟨some newNets.1, Q.add nextNet networks, ipsDone⟩
      else return ⟨some newNets.1, Q.add nextNet (Q.add newNets.2 networks), ipsDone⟩

def iterationDebug (Q : PriorityQueue IpAddress IpAddress.le) (s : LoopState) :
    Option LoopState :=
  match s.currentNet with
  | none => some s
  | some currentNet =>
      match Q.poll s.networks with
      | none => some ⟨none, [], treeAdd currentNet s.ipsDone⟩
      | some (nextNet, networks) => meetDebug Q currentNet nextNet networks s.ipsDone

/-- The states of a debug build, up to the exception. -/
def loopStatesDebug (Q : Nat → PriorityQueue IpAddress IpAddress.le)
    (mIpAddresses : List IpAddress) : Nat → Option LoopState
  | 0 => some (start (Q 0) mIpAddresses)
  | n + 1 => loopStatesDebug Q mIpAddresses n >>= iterationDebug (Q (n + 1))

/-- The next network equals the current one, with the other kind. -/
def Twins (c next : IpAddress) (_networks : List IpAddress) : Prop :=
  c.equals next = true ∧ c.included ≠ next.included

/-! ### Rounds without twins -/

variable {isV4 : Bool} {c next : IpAddress} {networks networks' done : List IpAddress}

/-- The queue is behind the current network, and all prefix lengths are valid. -/
structure Aligned (isV4 : Bool) (c : IpAddress) (networks : List IpAddress) : Prop where
  valid : ∀ n ∈ c :: networks, n.Valid isV4
  le : ∀ n ∈ networks, c.le n

theorem Aligned.congr (h : Aligned isV4 c networks) (hmem : ∀ n, n ∈ networks' ↔ n ∈ networks) :
    Aligned isV4 c networks' where
  valid n hn := h.valid n (by simpa [hmem] using hn)
  le n hn := h.le n ((hmem n).mp hn)

theorem split_last {n : IpAddress} (hn : n.Valid isV4) (hlt : n.networkMask < addressBits isV4) :
    n.split.2.getLastAddress = n.getLastAddress := by
  obtain ⟨hb1, hb2⟩ := n.numBits_split hn hlt
  obtain ⟨hf1, hf2⟩ := n.split_first hn hlt
  have h2 := n.split.2.getLastAddress_succ
  have hl := n.getLastAddress_succ
  rw [show n.split.2.numBits = n.split.1.numBits by omega] at h2
  rw [← hb1, pow_succ] at hl
  omega

theorem splitDebug_eq {n : IpAddress} (hn : n.Valid isV4)
    (hlt : n.networkMask < addressBits isV4) : n.splitDebug = some n.split := by
  have hlast := split_last hn hlt
  exact assertTrue_bind hlast _

/-- A single address has no halves. -/
theorem splitDebug_eq_none {n : IpAddress} (h : n.numBits = 0) : n.splitDebug = none := by
  have hne : n.split.2.getLastAddress ≠ n.getLastAddress := by
    obtain ⟨-, hf2⟩ := n.getFirstAddress_halves
    obtain ⟨-, hb2⟩ := n.numBits_halves
    have h2 := n.split.2.getLastAddress_succ
    have hl := n.getLastAddress_succ
    rw [hb2, h] at h2
    rw [h] at hl hf2
    omega
  exact assertTrue_bind_not hne _

theorem under_mask_lt (hunder : Under c next) (hdiffer : c.included ≠ next.included)
    (htwins : ¬ Twins c next networks) :
    next.networkMask < c.networkMask := by
  refine Nat.lt_of_le_of_ne hunder.2 fun heq => htwins ⟨?_, hdiffer⟩
  exact IpAddress.equals_iff.mpr ⟨heq.symm, hunder.1⟩

/-- What the checks of the last branch say. -/
theorem Aligned.inside (h : Aligned isV4 c (next :: networks)) (hinside : Inside c next) :
    c.networkMask < next.networkMask ∧ c.getFirstAddress < next.getFirstAddress ∧
      next.getLastAddress ≤ c.getLastAddress := by
  obtain ⟨hmeet, hunder⟩ := hinside
  have hc := h.valid c List.mem_cons_self
  have hn := h.valid next (by simp)
  have hle := IpAddress.le_iff.mp (h.le next List.mem_cons_self)
  have hfirst : c.getFirstAddress < next.getFirstAddress := by
    rcases hle with hlt | ⟨heq, hmask⟩
    · exact hlt
    · exact absurd ⟨heq, hmask⟩ hunder
  have hcontains : c.Contains next.getFirstAddress := ⟨hfirst.le, Nat.le_of_not_lt hmeet⟩
  have hmask : c.networkMask < next.networkMask := by
    by_contra hge
    have := (hcontains.nested_ends hc hn (Nat.le_of_not_lt hge) next.contains_getFirstAddress).1
    omega
  exact ⟨hmask, hfirst,
    (next.contains_getFirstAddress.nested_ends hn hc hmask.le hcontains).2⟩

/-- The second half of the current network is the next one if it is as big. -/
theorem Aligned.second_half (h : Aligned isV4 c (next :: networks)) (hinside : Inside c next)
    (hmask : c.split.2.networkMask = next.networkMask) :
    c.split.2.getFirstAddress = next.getFirstAddress := by
  obtain ⟨hlt, hfirst, hlast⟩ := h.inside hinside
  have hc := h.valid c List.mem_cons_self
  have hn := h.valid next (by simp)
  have hbits := hlt.trans_le hn.networkMask_le
  obtain ⟨hv1, hv2⟩ := IpAddress.valid_split hc hbits
  have hf1 := c.getFirstAddress_halves.1
  have hcontains : c.Contains next.getFirstAddress := ⟨hfirst.le, by
    have := next.contains_getFirstAddress.2
    omega⟩
  rcases (IpAddress.contains_split hc hbits).mp hcontains with h1 | h2
  · have heq := h1.equals hv1 hn hmask next.contains_getFirstAddress
    have := (IpAddress.equals_iff.mp heq).2
    omega
  · have heq := h2.equals hv2 hn hmask next.contains_getFirstAddress
    exact (IpAddress.equals_iff.mp heq).2

theorem Aligned.meetDebug_eq (Q : PriorityQueue IpAddress IpAddress.le)
    (h : Aligned isV4 c (next :: networks)) (htwins : ¬ Twins c next networks) :
    meetDebug Q c next networks done = some (meet Q c next networks done) := by
  have hc := h.valid c List.mem_cons_self
  have hn := h.valid next (by simp)
  rw [meetDebug, meet]
  split
  · rfl
  next hmeet =>
  split
  · next hunder =>
    split
    · rfl
    next hdiffer =>
    have hlt := under_mask_lt hunder hdiffer htwins
    have hbits := hlt.trans_le hc.networkMask_le
    rw [splitDebug_eq hn hbits, Option.bind_eq_bind, Option.bind_some]
    dsimp only
    split
    · next hlast =>
      have hmask : next.split.1.networkMask = c.networkMask := by
        have h1 := next.split.1.getLastAddress_succ
        have h2 := c.getLastAddress_succ
        have hf1 := next.getFirstAddress_halves.1
        have hk : next.split.1.numBits = c.numBits := by
          apply Nat.pow_right_injective (Nat.le_refl 2)
          change 2 ^ next.split.1.numBits = 2 ^ c.numBits
          omega
        have := (IpAddress.valid_split hn hbits).1.numBits_add
        have := hc.numBits_add
        omega
      rw [assertTrue_bind hmask]
      rfl
    · rfl
  · next hunder =>
    have hinside : Inside c next := ⟨hmeet, hunder⟩
    obtain ⟨hmask, hfirst, hlast⟩ := h.inside hinside
    rw [assertTrue_bind hmask, assertTrue_bind hfirst, assertTrue_bind hlast]
    split
    · rfl
    next hdiffer =>
    have hbits := hmask.trans_le hn.networkMask_le
    rw [splitDebug_eq hc hbits, Option.bind_eq_bind, Option.bind_some]
    dsimp only
    split
    · next heq =>
      rw [assertTrue_bind (h.second_half hinside heq), assertTrue_bind (split_last hc hbits)]
      rfl
    · rfl

/-- What a state keeps as long as no twins meet. -/
def Aligns (isV4 : Bool) (s : LoopState) : Prop :=
  ∀ c, s.currentNet = some c → Aligned isV4 c s.networks

theorem Round.aligns {s' : LoopState} (hr : Round c next networks done s')
    (h : Aligned isV4 c (next :: networks)) (hle : ∀ m ∈ networks, next.le m)
    (htwins : ¬ Twins c next networks) : Aligns isV4 s' := by
  have hc := h.valid c List.mem_cons_self
  have hn := h.valid next (by simp)
  have hnext : Aligned isV4 next networks :=
    ⟨fun n hn => h.valid n (List.mem_cons_of_mem _ hn), hle⟩
  have hkept : Aligned isV4 c networks := by
    refine ⟨fun n hn => h.valid n ?_, fun n hn => h.le n (List.mem_cons_of_mem _ hn)⟩
    rcases List.mem_cons.mp hn with rfl | hn <;> simp [*]
  cases hr with
  | apart | underSame =>
    rintro c' hc'
    obtain rfl := Option.some.inj hc'
    exact hnext
  | insideSame =>
    rintro c' hc'
    obtain rfl := Option.some.inj hc'
    exact hkept
  | @underSplit firsts seconds networks' hunder hdiffer hfirsts hseconds hperm =>
    rintro c' hc'
    obtain rfl := Option.some.inj hc'
    have hlt := under_mask_lt hunder hdiffer htwins
    obtain ⟨hv1, hv2⟩ := IpAddress.valid_split hn (hlt.trans_le hc.networkMask_le)
    obtain ⟨hf1, hf2, hm1, hm2, -⟩ := halves_facts next
    have hfirst := hunder.1
    have hmem := mem_underSplit hfirsts hseconds hperm
    refine ⟨fun n hn => ?_, fun n hn => ?_⟩
    · rcases List.mem_cons.mp hn with rfl | hn
      · exact hc
      · rcases hmem n hn with (rfl | rfl) | hn
        · exact hv1
        · exact hv2
        · exact hkept.valid n (List.mem_cons_of_mem _ hn)
    · rcases hmem n hn with (rfl | rfl) | hn
      · exact IpAddress.le_iff.mpr (.inr ⟨by omega, by omega⟩)
      · exact IpAddress.le_iff.mpr (.inl (by omega))
      · exact hkept.le n hn
  | @insideSplit seconds networks' hinside hdiffer hseconds hperm =>
    rintro c' hc'
    obtain rfl := Option.some.inj hc'
    obtain ⟨hlt, -, -⟩ := h.inside hinside
    obtain ⟨hv1, hv2⟩ := IpAddress.valid_split hc (hlt.trans_le hn.networkMask_le)
    obtain ⟨hf1, hf2, hm1, hm2, -⟩ := halves_facts c
    have hmem := mem_insideSplit hseconds hperm
    refine ⟨fun n hn => ?_, fun n hn => ?_⟩
    · rcases List.mem_cons.mp hn with rfl | hn
      · exact hv1
      · rcases hmem n hn with rfl | hn
        · exact hv2
        · exact h.valid n (List.mem_cons_of_mem _ hn)
    · rcases hmem n hn with rfl | hn
      · exact IpAddress.le_iff.mpr (.inl (by omega))
      · have := IpAddress.le_iff.mp (h.le n hn)
        exact IpAddress.le_iff.mpr (by omega)

/-! ### Rounds with twins -/

/-- The next network starts where the current one does, and is smaller. -/
theorem meetDebug_eq_none (Q : PriorityQueue IpAddress IpAddress.le)
    (hfirst : next.getFirstAddress = c.getFirstAddress) (hmask : c.networkMask < next.networkMask) :
    meetDebug Q c next networks done = none := by
  have hlast := c.contains_getFirstAddress.2
  rw [meetDebug, if_neg (by omega), if_neg (by omega), assertTrue_bind hmask]
  exact assertTrue_bind_not (by omega) _

theorem mem_addAbsent (Q : PriorityQueue IpAddress IpAddress.le) (net n : IpAddress)
    (networks : List IpAddress) :
    n ∈ addAbsent Q net networks → n = net ∨ n ∈ networks := by
  intro hn
  rw [(addAbsent_perm Q net networks).mem_iff, List.mem_append, mem_absent] at hn
  exact hn.imp_left And.left

/-- Afterwards the queue has the network, or an equal one. -/
theorem exists_equals_addAbsent (Q : PriorityQueue IpAddress IpAddress.le) (net : IpAddress)
    (networks : List IpAddress) : ∃ n ∈ addAbsent Q net networks, net.equals n = true := by
  rw [addAbsent]
  split
  · next hany =>
    obtain ⟨n, hn, heq⟩ := List.any_eq_true.mp hany
    exact ⟨n, hn, heq⟩
  · exact ⟨net, (Q.add_perm _ _).mem_iff.mpr List.mem_cons_self,
      IpAddress.equals_iff.mpr ⟨rfl, rfl⟩⟩

/-- A queue that is behind the current network but for a smaller one that starts with it. -/
theorem iterationDebug_eq_none (Q : PriorityQueue IpAddress IpAddress.le) {x : IpAddress}
    (hbehind : ∀ n ∈ networks, c.getFirstAddress ≤ n.getFirstAddress) (hx : x ∈ networks)
    (hfirst : x.getFirstAddress = c.getFirstAddress) (hmask : c.networkMask < x.networkMask) :
    iterationDebug Q ⟨some c, networks, done⟩ = none := by
  rw [iterationDebug]
  dsimp only
  split
  · next hpoll =>
    rw [Q.poll_eq_none hpoll] at hx
    cases hx
  · next next rest hpoll =>
    have hperm := Q.poll_perm hpoll
    have hnext := hbehind next (hperm.mem_iff.mpr List.mem_cons_self)
    have hle : next.getFirstAddress < x.getFirstAddress ∨
        next.getFirstAddress = x.getFirstAddress ∧ x.networkMask ≤ next.networkMask := by
      rcases List.mem_cons.mp (hperm.mem_iff.mp hx) with rfl | hx
      · exact .inr ⟨rfl, Nat.le_refl _⟩
      · exact IpAddress.le_iff.mp (Q.poll_le hpoll x hx)
    exact meetDebug_eq_none Q (by omega) (by omega)

/-- Twins that are single addresses fail at once, others in the next round, at the first
    half of the next network. -/
theorem twins_fail (Q Q' : PriorityQueue IpAddress IpAddress.le)
    (h : Aligned isV4 c (next :: networks)) (htwins : Twins c next networks) :
    meetDebug Q c next networks done >>= iterationDebug Q' = none := by
  obtain ⟨heq, hdiffer⟩ := htwins
  obtain ⟨hmask, hfirst⟩ := IpAddress.equals_iff.mp heq
  have hc := h.valid c List.mem_cons_self
  have hn := h.valid next (by simp)
  have hlast := c.contains_getFirstAddress.2
  rw [meetDebug, if_neg (by omega), if_pos ⟨hfirst, hmask.ge⟩, if_neg hdiffer]
  by_cases hbits : next.networkMask < addressBits isV4
  · obtain ⟨hf1, hf2, hm1, hm2, -⟩ := halves_facts next
    have hne : next.split.1.getLastAddress ≠ c.getLastAddress := by
      obtain ⟨hb1, -⟩ := IpAddress.numBits_split hn hbits
      have h1 := next.split.1.getLastAddress_succ
      have h2 := c.getLastAddress_succ
      have hk : c.numBits = next.split.1.numBits + 1 := by
        have := hc.numBits_add
        have := hn.numBits_add
        omega
      have hpos := Nat.two_pow_pos next.split.1.numBits
      rw [hk, pow_succ] at h2
      omega
    rw [splitDebug_eq hn hbits]
    simp only [Option.bind_eq_bind, Option.bind_some, if_neg hne]
    obtain ⟨x, hx, hxeq⟩ :=
      exists_equals_addAbsent Q next.split.1 (addAbsent Q next.split.2 networks)
    obtain ⟨hxmask, hxfirst⟩ := IpAddress.equals_iff.mp hxeq
    refine iterationDebug_eq_none Q' (fun n hn => ?_) hx (by omega) (by omega)
    rcases mem_addAbsent Q _ n _ hn with rfl | hn
    · omega
    · rcases mem_addAbsent Q _ n _ hn with rfl | hn
      · omega
      · have := IpAddress.le_iff.mp (h.le n (List.mem_cons_of_mem _ hn))
        omega
  · have hsingle : next.numBits = 0 := by
      have := hn.numBits_add
      omega
    rw [splitDebug_eq_none hsingle]
    rfl

/-! ### Runs -/

variable {Q : Nat → PriorityQueue IpAddress IpAddress.le} {additions : List (Addition isV4)}

theorem iterationDebug_aligned (Q : PriorityQueue IpAddress IpAddress.le) {s : LoopState}
    (h : Aligns isV4 s) (htwins : ¬ RoundMeets Q Twins s) :
    iterationDebug Q s = some (iteration Q s) ∧ Aligns isV4 (iteration Q s) := by
  rcases s with ⟨_ | c, q, done⟩
  · exact ⟨rfl, h⟩
  rw [iterationDebug, iteration]
  dsimp only
  cases hpoll : Q.poll q with
  | none =>
    refine ⟨rfl, fun c' hc => ?_⟩
    cases hc
  | some r =>
    obtain ⟨next, networks⟩ := r
    have hperm := Q.poll_perm hpoll
    have haligned : Aligned isV4 c (next :: networks) :=
      (h c rfl).congr fun n => hperm.mem_iff.symm
    have hnot : ¬ Twins c next networks :=
      fun hmeet => htwins ⟨c, next, networks, rfl, hpoll, hmeet⟩
    exact ⟨haligned.meetDebug_eq Q hnot,
      (meet_round Q c next networks done).aligns haligned (Q.poll_le hpoll) hnot⟩

theorem iterationDebug_twins (Q Q' : PriorityQueue IpAddress IpAddress.le) {s : LoopState}
    (h : Aligns isV4 s) (htwins : RoundMeets Q Twins s) :
    iterationDebug Q s >>= iterationDebug Q' = none := by
  obtain ⟨c, next, networks, hc, hpoll, hmeet⟩ := htwins
  rcases s with ⟨_ | c', q, done⟩
  · cases hc
  obtain rfl := Option.some.inj hc
  have hperm := Q.poll_perm hpoll
  have haligned : Aligned isV4 c' (next :: networks) :=
    (h c' rfl).congr fun n => hperm.mem_iff.symm
  rw [iterationDebug]
  dsimp only at hpoll ⊢
  rw [hpoll]
  exact twins_fail Q Q' haligned hmeet

theorem start_aligns (Q : PriorityQueue IpAddress IpAddress.le)
    (additions : List (Addition isV4)) : Aligns isV4 (start Q (mIpAddresses additions)) := by
  obtain ⟨hvalid, -⟩ := mIpAddresses_sound additions
  rw [start]
  split
  · intro c hc
    cases hc
  · next c networks hpoll =>
    rintro c' hc'
    obtain rfl := Option.some.inj hc'
    have hperm := Q.poll_perm hpoll
    exact ⟨fun n hn => hvalid n (hperm.mem_iff.mpr hn), Q.poll_le hpoll⟩

/-- Up to the first twins the debug build does what the release build does. -/
theorem loopStatesDebug_eq {n : Nat}
    (h : ∀ k < n, ¬ RoundMeets (Q (k + 1)) Twins (loopStates Q (mIpAddresses additions) k)) :
    loopStatesDebug Q (mIpAddresses additions) n =
        some (loopStates Q (mIpAddresses additions) n) ∧
      Aligns isV4 (loopStates Q (mIpAddresses additions) n) := by
  induction n with
  | zero => exact ⟨rfl, start_aligns (Q 0) additions⟩
  | succ n ih =>
    obtain ⟨hsame, haligns⟩ := ih fun k hk => h k (Nat.lt_succ_of_lt hk)
    rw [loopStatesDebug, hsame, loopStates, Option.bind_eq_bind, Option.bind_some]
    exact iterationDebug_aligned (Q (n + 1)) haligns (h n (Nat.lt_succ_self n))

/-- No assertion fails if and only if no round polls a network that equals the current
    one and has the other kind. -/
theorem asserts_iff (Q : Nat → PriorityQueue IpAddress IpAddress.le)
    (additions : List (Addition isV4)) :
    (∀ n, loopStatesDebug Q (mIpAddresses additions) n ≠ none) ↔
      ∀ n, ¬ RoundMeets (Q (n + 1)) Twins (loopStates Q (mIpAddresses additions) n) := by
  constructor
  · intro hruns n htwins
    -- the first twins
    classical
    have hex : ∃ n, RoundMeets (Q (n + 1)) Twins (loopStates Q (mIpAddresses additions) n) :=
      ⟨n, htwins⟩
    obtain ⟨hsame, haligns⟩ :=
      loopStatesDebug_eq (n := Nat.find hex) fun k hk => Nat.find_min hex hk
    have hfail := iterationDebug_twins (Q (Nat.find hex + 1)) (Q (Nat.find hex + 1 + 1)) haligns
      (Nat.find_spec hex)
    refine hruns (Nat.find hex + 1 + 1) ?_
    rw [loopStatesDebug, loopStatesDebug, hsame]
    exact hfail
  · intro h n hnone
    rw [(loopStatesDebug_eq fun k _ => h k).1] at hnone
    cases hnone

/-- Without twins the list is a partition. -/
theorem not_stranded_of_no_twins
    (h : ∀ n, ¬ RoundMeets (Q (n + 1)) Twins (loopStates Q (mIpAddresses additions) n)) (n : Nat) :
    ¬ Stranded (loopStates Q (mIpAddresses additions) n) := by
  rintro ⟨c, hc, hlong, -⟩
  have haligned := (loopStatesDebug_eq fun k _ => h k).2 c hc
  have hvalid := haligned.valid c List.mem_cons_self
  rw [hvalid.family] at hlong
  exact absurd hvalid.networkMask_le (Nat.not_le.mpr hlong)

/-- Everything, but not 64.0.0.0/2 and 128.0.0.0/1. -/
def halfExcluded : List (Addition true) :=
  [.addIP everywhere true, .addIP ⟨0x40000000, 2, by decide⟩ false,
    .addIP ⟨0x80000000, 1, by decide⟩ false]

/-- The second half of 0.0.0.0/0 is added next to 128.0.0.0/1. -/
theorem not_asserts :
    ¬ ∀ (isV4 : Bool) (Q : Nat → PriorityQueue IpAddress IpAddress.le)
        (additions : List (Addition isV4)) (n : Nat),
        loopStatesDebug Q (mIpAddresses additions) n ≠ none := by
  intro h
  have hnone : loopStatesDebug (fun _ => leastFirst) (mIpAddresses halfExcluded) 6 = none := by
    decide +kernel
  exact h true (fun _ => leastFirst) halfExcluded 6 hnone

end NetworkSpace

end OpenVpnAndroid
