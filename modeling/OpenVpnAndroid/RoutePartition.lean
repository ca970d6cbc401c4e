/-
  OpenVpnAndroid/RoutePartition.lean
  ==================================
  **Is the list of `generateIPList` a partition into networks?**

  Its elements never overlap and come in order.  Their prefix lengths may be too
  long: when the next network is a single address that the current one has too, and of
  the other kind, it is split like any other network.  A "half" with 33 bits may still
  be replaced by a network of its kind that starts with it, unless none is left in
  the queue: then the current network is `Stranded`.
-/
import OpenVpnAndroid.RouteTermination

namespace OpenVpnAndroid

namespace NetworkSpace

variable {isV4 : Bool} {c next : IpAddress} {networks networks' done : List IpAddress}
  {s : LoopState}

/-- What the list of `generateIPList` should be. -/
structure IsPartition (isV4 : Bool) (ipsDone : List IpAddress) : Prop where
  disjoint : ipsDone.Pairwise fun d e => ∀ a, ¬ (d.Contains a ∧ e.Contains a)
  increasing : ipsDone.Pairwise fun d e => d.getFirstAddress < e.getFirstAddress
  valid : ∀ d ∈ ipsDone, d.Valid isV4

/-- The current network has more prefix bits than an address, and no network of its
    kind that starts with it is in the queue. -/
def Stranded (s : LoopState) : Prop :=
  ∃ c, s.currentNet = some c ∧ addressBits c.isV4 < c.networkMask ∧
    ∀ n ∈ s.networks, n.getFirstAddress = c.getFirstAddress → n.included ≠ c.included

/-- A network that is done has too many prefix bits. -/
def Overlong (ipsDone : List IpAddress) : Prop :=
  ∃ d ∈ ipsDone, addressBits d.isV4 < d.networkMask

theorem overlong_append {ds es : List IpAddress} :
    Overlong (ds ++ es) ↔ Overlong ds ∨ Overlong es := by
  simp [Overlong, or_and_right, exists_or]

/-! ### A stranded network stays -/

theorem Round.stranded {s' : LoopState} (hr : Round c next networks done s')
    (h : Following isV4 c (next :: networks) done)
    (hs : Stranded ⟨some c, next :: networks, done⟩) : Stranded s' ∨ Overlong s'.ipsDone := by
  obtain ⟨c', hc', hlong, hother⟩ := hs
  obtain rfl : c = c' := Option.some.inj hc'
  have hrest : ∀ n ∈ networks, n.getFirstAddress = c.getFirstAddress → n.included ≠ c.included :=
    fun n hn => hother n (List.mem_cons_of_mem _ hn)
  cases hr with
  | apart hapart =>
    rw [h.done_add.1, overlong_append]
    exact .inr (.inr ⟨c, List.mem_singleton_self c, hlong⟩)
  | underSame hunder hsame =>
    exact absurd hsame.symm (hother next List.mem_cons_self hunder.1.symm)
  | @underSplit firsts seconds networks' hunder hdiffer hfirsts hseconds hperm =>
    refine .inl ⟨c, rfl, hlong, fun n hn hfirst => ?_⟩
    rcases mem_underSplit hfirsts hseconds hperm n hn with (rfl | rfl) | hn
    · exact fun heq => hdiffer heq.symm
    · exact fun heq => hdiffer heq.symm
    · exact hrest n hn hfirst
  | insideSame hinside hsame => exact .inl ⟨c, rfl, hlong, hrest⟩
  | @insideSplit seconds networks' hinside hdiffer hseconds hperm =>
    obtain ⟨hf1, hf2, hm1, -⟩ := halves_facts c
    refine .inl ⟨c.split.1, rfl, ?_, fun n hn hfirst => ?_⟩
    · exact Nat.lt_succ_of_lt hlong
    · rcases mem_insideSplit hseconds hperm n hn with rfl | hn
      · omega
      · exact hother n hn (hfirst.trans hf1)

theorem Stranded.congr {q q' : List IpAddress} (h : Stranded ⟨some c, q, done⟩)
    (hmem : ∀ n, n ∈ q' ↔ n ∈ q) : Stranded ⟨some c, q', done⟩ := by
  obtain ⟨c', hc', hlong, hother⟩ := h
  exact ⟨c', hc', hlong, fun n hn => hother n ((hmem n).mp hn)⟩

/-- The list only grows. -/
theorem Round.overlong {s' : LoopState} (hr : Round c next networks done s')
    (h : Following isV4 c (next :: networks) done) (hlong : Overlong done) :
    Overlong s'.ipsDone := by
  cases hr with
  | apart =>
    rw [h.done_add.1, overlong_append]
    exact .inl hlong
  | underSame => exact hlong
  | underSplit => exact hlong
  | insideSame => exact hlong
  | insideSplit => exact hlong

theorem iteration_stranded (Q : PriorityQueue IpAddress IpAddress.le) (hs : Follows isV4 s)
    (h : Stranded s ∨ Overlong s.ipsDone) :
    Stranded (iteration Q s) ∨ Overlong (iteration Q s).ipsDone := by
  rcases iteration_cases Q s with
    ⟨-, hs'⟩ | ⟨c, done, rfl, hs'⟩ | ⟨c, q, next, networks, done, rfl, hperm, hle, hround⟩
  · rwa [hs']
  · have hs : Following isV4 c [] done := hs
    rw [hs', hs.done_add.1, overlong_append]
    rcases h with ⟨c', hc', hlong, -⟩ | h
    · obtain rfl : c = c' := Option.some.inj hc'
      exact .inr (.inr ⟨c, List.mem_singleton_self c, hlong⟩)
    · exact .inr (.inl h)
  · have hs : Following isV4 c (next :: networks) done :=
      Following.congr hs fun n => hperm.mem_iff.symm
    rcases h with h | h
    · exact hround.stranded hs (h.congr fun n => hperm.mem_iff.symm)
    · exact .inr (hround.overlong hs h)

/-! ### Nothing else is too long -/

theorem Round.overlong_of {s' : LoopState} (hr : Round c next networks done s')
    (h : Following isV4 c (next :: networks) done) (hle : ∀ m ∈ networks, next.le m)
    (hlong : Overlong s'.ipsDone) : Overlong done ∨ Stranded ⟨some c, next :: networks, done⟩ := by
  cases hr with
  | apart hapart =>
    rw [h.done_add.1, overlong_append] at hlong
    refine hlong.imp_right fun ⟨d, hd, hbits⟩ => ?_
    obtain rfl := List.mem_singleton.mp hd
    refine ⟨d, rfl, hbits, fun n hn hfirst => ?_⟩
    -- the queue is behind the current network
    have hlast := d.contains_getFirstAddress.2
    have hnext : next.getFirstAddress ≤ n.getFirstAddress := by
      rcases List.mem_cons.mp hn with rfl | hn
      · exact Nat.le_refl _
      · have := IpAddress.le_iff.mp (hle n hn)
        omega
    omega
  | underSame => exact .inl hlong
  | underSplit => exact .inl hlong
  | insideSame => exact .inl hlong
  | insideSplit => exact .inl hlong

theorem iteration_overlong (Q : PriorityQueue IpAddress IpAddress.le) (hs : Follows isV4 s)
    (hnot : ¬ Stranded s) (h : Overlong (iteration Q s).ipsDone) : Overlong s.ipsDone := by
  rcases iteration_cases Q s with
    ⟨-, hs'⟩ | ⟨c, done, rfl, hs'⟩ | ⟨c, q, next, networks, done, rfl, hperm, hle, hround⟩
  · rwa [hs'] at h
  · have hs : Following isV4 c [] done := hs
    rw [hs', hs.done_add.1, overlong_append] at h
    rcases h with h | ⟨d, hd, hlong⟩
    · exact h
    · obtain rfl := List.mem_singleton.mp hd
      exact absurd ⟨d, rfl, hlong, fun _ hn => nomatch hn⟩ hnot
  · have hs : Following isV4 c (next :: networks) done :=
      Following.congr hs fun n => hperm.mem_iff.symm
    refine (hround.overlong_of hs hle h).resolve_right fun hstranded => hnot ?_
    exact hstranded.congr fun n => hperm.mem_iff

/-! ### Runs -/

variable {Q : Nat → PriorityQueue IpAddress IpAddress.le} {additions : List (Addition isV4)}

theorem loopStates_stable {S : List IpAddress} {n m : Nat}
    (hend : (loopStates Q S n).currentNet = none) (hnm : n ≤ m) :
    loopStates Q S m = loopStates Q S n := by
  induction hnm with
  | refl => rfl
  | step _ ih => rw [loopStates, ih, iteration, hend]

theorem start_ipsDone (Q : PriorityQueue IpAddress IpAddress.le) (S : List IpAddress) :
    (start Q S).ipsDone = [] := by
  rw [start]
  split <;> rfl

theorem stranded_later {n m : Nat} (h : Stranded (loopStates Q (mIpAddresses additions) n))
    (hnm : n ≤ m) :
    Stranded (loopStates Q (mIpAddresses additions) m) ∨
      Overlong (loopStates Q (mIpAddresses additions) m).ipsDone := by
  induction hnm with
  | refl => exact .inl h
  | step _ ih => exact iteration_stranded _ (loopStates_follows Q additions _) ih

theorem not_overlong (h : ∀ n, ¬ Stranded (loopStates Q (mIpAddresses additions) n)) (n : Nat) :
    ¬ Overlong (loopStates Q (mIpAddresses additions) n).ipsDone := by
  induction n with
  | zero =>
    rw [loopStates, start_ipsDone]
    rintro ⟨d, hd, -⟩
    cases hd
  | succ n ih =>
    exact fun hlong => ih (iteration_overlong _ (loopStates_follows Q additions n) (h n) hlong)

/-- The list never overlaps and is in order, so only a prefix length can be wrong. -/
theorem isPartition_of_not_overlong {ipsDone : List IpAddress}
    (hapart : ipsDone.Pairwise fun d e => d.getLastAddress < e.getFirstAddress)
    (hfamily : ∀ d ∈ ipsDone, d.isV4 = isV4) (hlong : ¬ Overlong ipsDone) :
    IsPartition isV4 ipsDone := by
  refine ⟨hapart.imp ?_, hapart.imp ?_, fun d hd => ⟨hfamily d hd, ?_⟩⟩
  · intro d e hlt a ⟨hd, he⟩
    have := hd.2
    have := he.1
    omega
  · intro d e hlt
    have := d.contains_getFirstAddress.2
    omega
  · rw [← hfamily d hd]
    exact Nat.le_of_not_lt fun hlt => hlong ⟨d, hd, hlt⟩

/-- The list is a partition into networks if and only if the current network is never
    stranded. -/
theorem isPartition_iff (Q : Nat → PriorityQueue IpAddress IpAddress.le)
    (additions : List (Addition isV4)) :
    (∃ ipsDone, GeneratesList Q (mIpAddresses additions) ipsDone ∧ IsPartition isV4 ipsDone) ↔
      ∀ n, ¬ Stranded (loopStates Q (mIpAddresses additions) n) := by
  obtain ⟨m, hend⟩ := loopStates_end Q additions
  constructor
  · rintro ⟨_, ⟨k, hend', rfl⟩, hpartition⟩ n hstranded
    rcases stranded_later hstranded (Nat.le_max_left n k) with ⟨c, hc, -⟩ | ⟨d, hd, hlong⟩
    · rw [loopStates_stable hend' (Nat.le_max_right n k), hend'] at hc
      cases hc
    · rw [loopStates_stable hend' (Nat.le_max_right n k)] at hd
      have hvalid := hpartition.valid d hd
      rw [hvalid.family] at hlong
      exact absurd hvalid.networkMask_le (Nat.not_le.mpr hlong)
  · intro h
    have hfollows := loopStates_follows Q additions m
    rw [Follows, hend] at hfollows
    exact ⟨_, ⟨m, hend, rfl⟩,
      isPartition_of_not_overlong hfollows.1 hfollows.2 (not_overlong h m)⟩

/-- A queue that returns the element first that came first, of elements that are equal. -/
def firstInFirstOut : PriorityQueue IpAddress IpAddress.le where
  add x q := q ++ [x]
  poll := pollLeast
  add_perm _ _ := List.perm_append_comm
  poll_perm := pollLeast_perm
  poll_le := pollLeast_le
  poll_eq_none := pollLeast_eq_none

/-- 10.0.0.0/29, but not 10.0.0.4/30, 10.0.0.2/31 and 10.0.0.5. -/
def nestedNetworks : List (Addition true) :=
  [.addIP ⟨0x0a000000, 29, by decide⟩ true, .addIP ⟨0x0a000004, 30, by decide⟩ false,
    .addIP ⟨0x0a000002, 31, by decide⟩ false, .addIP ⟨0x0a000005, 32, by decide⟩ false]

/-- 10.0.0.5 comes out as a network with 33 bits. -/
theorem not_isPartition :
    ¬ ∀ (isV4 : Bool) (Q : Nat → PriorityQueue IpAddress IpAddress.le)
        (additions : List (Addition isV4)),
        ∃ ipsDone, GeneratesList Q (mIpAddresses additions) ipsDone ∧
          IsPartition isV4 ipsDone := by
  intro h
  obtain ⟨_, ⟨n, hend, rfl⟩, hpartition⟩ := h true (fun _ => firstInFirstOut) nestedNetworks
  have hend' : (loopStates (fun _ => firstInFirstOut) (mIpAddresses nestedNetworks) 15).currentNet =
      none := by
    decide +kernel
  have hn : loopStates (fun _ => firstInFirstOut) (mIpAddresses nestedNetworks) n =
      loopStates (fun _ => firstInFirstOut) (mIpAddresses nestedNetworks) 15 := by
    rcases Nat.le_total n 15 with hle | hle
    · exact (loopStates_stable hend hle).symm
    · exact loopStates_stable hend' hle
  have hlong : ∃ d ∈ (loopStates (fun _ => firstInFirstOut)
      (mIpAddresses nestedNetworks) 15).ipsDone, addressBits true < d.networkMask := by
    decide +kernel
  obtain ⟨d, hd, hlong⟩ := hlong
  rw [hn] at hpartition
  exact absurd (hpartition.valid d hd).networkMask_le (Nat.not_le.mpr hlong)

end NetworkSpace

end OpenVpnAndroid
