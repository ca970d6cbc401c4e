/-
  OpenVpnAndroid/RouteTermination.lean
  ====================================
  **The loop of `generateIPList` ends.**

  A round takes one network out of the queue and may put one or two back, or keep all
  and split the current network.  Each half is lighter than the whole by a factor of
  three (`weight`), unless the whole is a single address: its "halves" are that address
  and the next one, with a prefix length beyond the width of an address.  Then the
  weight may stay as it is, but the round leaves fewer networks at the current address,
  or none there that is smaller than the current one (`rank`).

  The queue may break ties another way in every call.
-/
import OpenVpnAndroid.RouteAgreement

namespace OpenVpnAndroid

namespace NetworkSpace

variable {isV4 : Bool} {c next : IpAddress} {networks networks' done : List IpAddress}

/-- The loop with an implementation of the queue for every round. -/
def loopStates (Q : Nat → PriorityQueue IpAddress IpAddress.le) (mIpAddresses : List IpAddress) :
    Nat → LoopState
  | 0 => start (Q 0) mIpAddresses
  | n + 1 => iteration (Q (n + 1)) (loopStates Q mIpAddresses n)

/-! ### What a round does -/

/-- The current network lies at the start of the next one. -/
def Under (c next : IpAddress) : Prop :=
  c.getFirstAddress = next.getFirstAddress ∧ next.networkMask ≤ c.networkMask

/-- A round, branch by branch, whatever the networks are. -/
inductive Round (c next : IpAddress) (networks done : List IpAddress) : LoopState → Prop where
  | apart (hapart : c.getLastAddress < next.getFirstAddress) :
      Round c next networks done ⟨some next, networks, treeAdd c done⟩
  | underSame (hunder : Under c next) (hsame : c.included = next.included) :
      Round c next networks done ⟨some next, networks, done⟩
  | underSplit (firsts seconds : List IpAddress) {networks' : List IpAddress}
      (hunder : Under c next) (hdiffer : c.included ≠ next.included)
      (hfirsts : firsts = [] ∨
        firsts = [next.split.1] ∧ next.split.1.getLastAddress ≠ c.getLastAddress)
      (hseconds : seconds = [] ∨ seconds = [next.split.2])
      (hperm : networks'.Perm (firsts ++ (seconds ++ networks))) :
      Round c next networks done ⟨some c, networks', done⟩
  | insideSame (hinside : Inside c next) (hsame : c.included = next.included) :
      Round c next networks done ⟨some c, networks, done⟩
  | insideSplit (seconds : List IpAddress) {networks' : List IpAddress}
      (hinside : Inside c next) (hdiffer : c.included ≠ next.included)
      (hseconds : seconds = [] ∨
        seconds = [c.split.2] ∧ c.split.2.networkMask ≠ next.networkMask)
      (hperm : networks'.Perm (seconds ++ next :: networks)) :
      Round c next networks done ⟨some c.split.1, networks', done⟩

theorem absent_eq (net : IpAddress) (networks : List IpAddress) :
    absent net networks = [] ∨ absent net networks = [net] := by
  rw [absent]
  split
  · exact Or.inl rfl
  · exact Or.inr rfl

theorem meet_round (Q : PriorityQueue IpAddress IpAddress.le) (c next : IpAddress)
    (networks done : List IpAddress) :
    Round c next networks done (meet Q c next networks done) := by
  rw [meet]
  split
  · next hapart => exact .apart hapart
  next hmeet =>
  split
  · next hunder =>
    split
    · next hsame => exact .underSame hunder hsame
    next hdiffer =>
    have hseconds := addAbsent_perm Q next.split.2 networks
    dsimp only
    split
    · exact .underSplit [] _ hunder hdiffer (.inl rfl) (absent_eq _ _) hseconds
    · next hlast =>
      refine .underSplit _ _ hunder hdiffer ?_ (absent_eq _ _)
        ((addAbsent_perm Q _ _).trans (hseconds.append_left _))
      exact (absent_eq next.split.1 _).imp_right fun h => ⟨h, hlast⟩
  · next hunder =>
    have hinside : Inside c next := ⟨hmeet, hunder⟩
    split
    · next hsame => exact .insideSame hinside hsame
    next hdiffer =>
    dsimp only
    split
    · exact .insideSplit [] hinside hdiffer (.inl rfl) (Q.add_perm _ _)
    · next hmask =>
      refine .insideSplit [c.split.2] hinside hdiffer (.inr ⟨rfl, hmask⟩) ?_
      exact (Q.add_perm _ _).trans (((Q.add_perm _ _).cons _).trans (List.Perm.swap _ _ _))

/-! ### What the loop keeps -/

/-- The queue comes behind the current network, and the list in front of it.  A network
    at the current address may be smaller than the current one, by one bit. -/
structure Following (isV4 : Bool) (c : IpAddress) (networks done : List IpAddress) : Prop where
  family : ∀ n ∈ c :: networks, n.isV4 = isV4
  first_le : ∀ n ∈ networks, c.getFirstAddress ≤ n.getFirstAddress
  mask_le : ∀ n ∈ networks, n.getFirstAddress = c.getFirstAddress →
    n.networkMask ≤ c.networkMask + 1
  done_lt : ∀ d ∈ done, d.getLastAddress < c.getFirstAddress
  done_apart : done.Pairwise fun d e => d.getLastAddress < e.getFirstAddress
  done_family : ∀ d ∈ done, d.isV4 = isV4

theorem Following.congr (h : Following isV4 c networks done)
    (hmem : ∀ n, n ∈ networks' ↔ n ∈ networks) : Following isV4 c networks' done where
  family n hn := h.family n (by simpa [hmem] using hn)
  first_le n hn := h.first_le n ((hmem n).mp hn)
  mask_le n hn := h.mask_le n ((hmem n).mp hn)
  done_lt := h.done_lt
  done_apart := h.done_apart
  done_family := h.done_family

/-- A network that comes behind all others is added at the end. -/
theorem treeAdd_of_lt (h : ∀ d ∈ done, d.getLastAddress < c.getFirstAddress) :
    treeAdd c done = done ++ [c] := by
  induction done with
  | nil => rfl
  | cons d done ih =>
    have hd := h d List.mem_cons_self
    have hfirst := d.contains_getFirstAddress.2
    have hgt : c.compareTo d = .gt := by
      rw [IpAddress.compareTo, if_neg (by omega), if_pos (by omega)]
    rw [treeAdd, hgt, List.cons_append]
    exact congrArg _ (ih fun e he => h e (List.mem_cons_of_mem d he))

/-- What the list becomes when the current network is done. -/
theorem Following.done_add (h : Following isV4 c networks done) :
    treeAdd c done = done ++ [c] ∧
      ((done ++ [c]).Pairwise fun d e => d.getLastAddress < e.getFirstAddress) ∧
      ∀ d ∈ done ++ [c], d.isV4 = isV4 := by
  refine ⟨treeAdd_of_lt h.done_lt, ?_, ?_⟩
  · rw [List.pairwise_append]
    exact ⟨h.done_apart, List.pairwise_singleton _ _, fun d hd e he =>
      List.mem_singleton.mp he ▸ h.done_lt d hd⟩
  · intro d hd
    rcases List.mem_append.mp hd with hd | hd
    · exact h.done_family d hd
    · exact List.mem_singleton.mp hd ▸ h.family c List.mem_cons_self

theorem Following.of_le (h : Following isV4 c (next :: networks) done)
    (hle : ∀ m ∈ networks, next.le m)
    {done' : List IpAddress} (hlt : ∀ d ∈ done', d.getLastAddress < next.getFirstAddress)
    (hapart : done'.Pairwise fun d e => d.getLastAddress < e.getFirstAddress)
    (hfamily : ∀ d ∈ done', d.isV4 = isV4) : Following isV4 next networks done' where
  family n hn := h.family n (List.mem_cons_of_mem _ hn)
  first_le n hn := by
    have := IpAddress.le_iff.mp (hle n hn)
    omega
  mask_le n hn hfirst := by
    have := IpAddress.le_iff.mp (hle n hn)
    omega
  done_lt := hlt
  done_apart := hapart
  done_family := hfamily

/-- The halves of a network, as far as the order goes. -/
theorem halves_facts (n : IpAddress) :
    n.split.1.getFirstAddress = n.getFirstAddress ∧
      n.getFirstAddress < n.split.2.getFirstAddress ∧
      n.split.1.networkMask = n.networkMask + 1 ∧ n.split.2.networkMask = n.networkMask + 1 ∧
      n.split.1.isV4 = n.isV4 ∧ n.split.2.isV4 = n.isV4 := by
  obtain ⟨h1, h2⟩ := n.getFirstAddress_halves
  have hpos := Nat.two_pow_pos (n.numBits - 1)
  exact ⟨h1, by omega, rfl, rfl, rfl, rfl⟩

/-- Those that a round puts into the queue are halves. -/
theorem mem_halves {n x : IpAddress} {firsts seconds : List IpAddress}
    (hfirsts : firsts = [] ∨ firsts = [n.split.1]) (hseconds : seconds = [] ∨ seconds = [n.split.2])
    (hx : x ∈ firsts ++ seconds) : x = n.split.1 ∨ x = n.split.2 := by
  rcases List.mem_append.mp hx with hx | hx
  · rcases hfirsts with rfl | rfl
    · cases hx
    · exact .inl (List.mem_singleton.mp hx)
  · rcases hseconds with rfl | rfl
    · cases hx
    · exact .inr (List.mem_singleton.mp hx)

/-- The queue behind a round that splits the next network. -/
theorem mem_underSplit {firsts seconds networks' : List IpAddress}
    (hfirsts : firsts = [] ∨
      firsts = [next.split.1] ∧ next.split.1.getLastAddress ≠ c.getLastAddress)
    (hseconds : seconds = [] ∨ seconds = [next.split.2])
    (hperm : networks'.Perm (firsts ++ (seconds ++ networks))) :
    ∀ n ∈ networks', (n = next.split.1 ∨ n = next.split.2) ∨ n ∈ networks := by
  intro n hn
  rw [hperm.mem_iff, ← List.append_assoc] at hn
  exact (List.mem_append.mp hn).imp_left (mem_halves (hfirsts.imp_right And.left) hseconds)

/-- The queue behind a round that splits the current network. -/
theorem mem_insideSplit {seconds networks' : List IpAddress}
    (hseconds : seconds = [] ∨
      seconds = [c.split.2] ∧ c.split.2.networkMask ≠ next.networkMask)
    (hperm : networks'.Perm (seconds ++ next :: networks)) :
    ∀ n ∈ networks', n = c.split.2 ∨ n ∈ next :: networks := by
  intro n hn
  rw [hperm.mem_iff] at hn
  refine (List.mem_append.mp hn).imp_left fun hn => ?_
  rcases hseconds with rfl | ⟨rfl, -⟩
  · cases hn
  · exact List.mem_singleton.mp hn

/-- What a state keeps until the loop ends. -/
def Follows (isV4 : Bool) (s : LoopState) : Prop :=
  match s.currentNet with
  | none => (s.ipsDone.Pairwise fun d e => d.getLastAddress < e.getFirstAddress) ∧
      ∀ d ∈ s.ipsDone, d.isV4 = isV4
  | some c => Following isV4 c s.networks s.ipsDone

theorem Round.follows {s' : LoopState} (hr : Round c next networks done s')
    (h : Following isV4 c (next :: networks) done) (hle : ∀ m ∈ networks, next.le m) :
    Follows isV4 s' := by
  have hkept : Following isV4 c networks done :=
    { h with
      family := fun n hn => h.family n (by
        rcases List.mem_cons.mp hn with rfl | hn <;> simp [*])
      first_le := fun n hn => h.first_le n (List.mem_cons_of_mem _ hn)
      mask_le := fun n hn => h.mask_le n (List.mem_cons_of_mem _ hn) }
  cases hr with
  | apart hapart =>
    obtain ⟨hadd, hpair, hfamily⟩ := h.done_add
    rw [hadd]
    refine h.of_le hle ?_ hpair hfamily
    intro d hd
    rcases List.mem_append.mp hd with hd | hd
    · have := h.done_lt d hd
      have := c.contains_getFirstAddress.2
      omega
    · exact List.mem_singleton.mp hd ▸ hapart
  | underSame hunder hsame =>
    exact h.of_le hle (fun d hd => hunder.1 ▸ h.done_lt d hd) h.done_apart h.done_family
  | @underSplit firsts seconds networks' hunder hdiffer hfirsts hseconds hperm =>
    obtain ⟨hf1, hf2, hm1, hm2, hv1, hv2⟩ := halves_facts next
    have hnext := h.family next (by simp)
    have hmem := mem_underSplit hfirsts hseconds hperm
    have hunder := hunder
    rw [Under] at hunder
    refine ⟨?_, ?_, ?_, h.done_lt, h.done_apart, h.done_family⟩
    · intro n hn
      rcases List.mem_cons.mp hn with rfl | hn
      · exact h.family n List.mem_cons_self
      · rcases hmem n hn with (rfl | rfl) | hn
        · exact hv1.trans hnext
        · exact hv2.trans hnext
        · exact hkept.family n (List.mem_cons_of_mem _ hn)
    · intro n hn
      rcases hmem n hn with (rfl | rfl) | hn
      · omega
      · omega
      · exact hkept.first_le n hn
    · intro n hn hfirst
      rcases hmem n hn with (rfl | rfl) | hn
      · omega
      · omega
      · exact hkept.mask_le n hn hfirst
  | insideSame hinside hsame => exact hkept
  | @insideSplit seconds networks' hinside hdiffer hseconds hperm =>
    obtain ⟨hf1, hf2, hm1, hm2, hv1, hv2⟩ := halves_facts c
    have hc := h.family c List.mem_cons_self
    have hmem := mem_insideSplit hseconds hperm
    refine ⟨?_, ?_, ?_, fun d hd => hf1 ▸ h.done_lt d hd, h.done_apart, h.done_family⟩
    · intro n hn
      rcases List.mem_cons.mp hn with rfl | hn
      · exact hv1.trans hc
      · rcases hmem n hn with rfl | hn
        · exact hv2.trans hc
        · exact h.family n (List.mem_cons_of_mem _ hn)
    · intro n hn
      rcases hmem n hn with rfl | hn
      · omega
      · have := h.first_le n hn
        omega
    · intro n hn hfirst
      rcases hmem n hn with rfl | hn
      · omega
      · have := h.mask_le n hn (by omega)
        omega

/-! ### What gets less -/

/-- How many networks start at the current address. -/
def pending (c : IpAddress) (networks : List IpAddress) : Nat :=
  networks.countP fun n => n.getFirstAddress = c.getFirstAddress

/-- Whether one of them is smaller than the current network. -/
def raised (c : IpAddress) (networks : List IpAddress) : Nat :=
  if ∃ n ∈ networks, n.getFirstAddress = c.getFirstAddress ∧ c.networkMask < n.networkMask then 1
  else 0

def rank (s : LoopState) : Nat ×ₗ Nat :=
  match s.currentNet with
  | none => toLex (0, 0)
  | some c => toLex (weight (c :: s.networks), 2 * pending c s.networks + raised c s.networks)

theorem raised_le (c : IpAddress) (networks : List IpAddress) : raised c networks ≤ 1 := by
  rw [raised]
  split <;> decide

/-- The next network is a single address that goes to the one behind it. -/
theorem rank_under_single {firsts seconds : List IpAddress}
    (h : Following isV4 c (next :: networks) done) (hunder : Under c next)
    (hbits : next.numBits = 0)
    (hfirsts : firsts = [] ∨
      firsts = [next.split.1] ∧ next.split.1.getLastAddress ≠ c.getLastAddress)
    (hseconds : seconds = [] ∨ seconds = [next.split.2])
    (hperm : networks'.Perm (firsts ++ (seconds ++ networks))) :
    weight networks' ≤ weight (next :: networks) ∧
      pending c networks' < pending c (next :: networks) := by
  obtain ⟨hf1, hf2, -⟩ := halves_facts next
  obtain ⟨hb1, hb2⟩ := next.numBits_halves
  have hcbits : c.numBits = 0 := by
    have hc := h.family c List.mem_cons_self
    have hn := h.family next (by simp)
    have hmask := hunder.2
    simp only [IpAddress.numBits, hc, hn] at hbits ⊢
    omega
  have hlast : next.split.1.getLastAddress = c.getLastAddress := by
    have h1 := next.split.1.getLastAddress_succ
    have h2 := c.getLastAddress_succ
    rw [hb1, hbits] at h1
    rw [hcbits] at h2
    have := hunder.1
    omega
  obtain rfl : firsts = [] := hfirsts.resolve_right fun h => h.2 hlast
  have hweight := weight_perm hperm
  have hcount : pending c networks' = pending c (seconds ++ networks) := hperm.countP_eq _
  have hnext : pending c (next :: networks) = pending c networks + 1 := by
    simp [pending, hunder.1]
  have hone : 3 ^ next.numBits = 1 := by rw [hbits, pow_zero]
  rw [hweight, hcount, hnext, weight_cons]
  rcases hseconds with rfl | rfl
  · simp only [List.nil_append]
    omega
  · have hsecond : 3 ^ next.split.2.numBits = 1 := by rw [hb2, hbits, pow_zero]
    have hnot : pending c (next.split.2 :: networks) = pending c networks := by
      have hne : next.split.2.getFirstAddress ≠ c.getFirstAddress := by
        have := hunder.1
        omega
      simp [pending, hne]
    simp only [List.nil_append, List.singleton_append, weight_cons, hnot]
    omega

/-- The current network is a single address, and a smaller "network" is there: then
    the current one gets as small, and none is smaller any more. -/
theorem rank_inside_single {seconds : List IpAddress}
    (h : Following isV4 c (next :: networks) done) (hinside : Inside c next)
    (hbits : c.numBits = 0)
    (hseconds : seconds = [] ∨ seconds = [c.split.2] ∧ c.split.2.networkMask ≠ next.networkMask)
    (hperm : networks'.Perm (seconds ++ next :: networks)) :
    weight (c.split.1 :: networks') = weight (c :: next :: networks) ∧
      pending c.split.1 networks' = pending c (next :: networks) ∧
      raised c.split.1 networks' = 0 ∧ raised c (next :: networks) = 1 := by
  obtain ⟨hf1, -, hm1, hm2, -⟩ := halves_facts c
  have hlast := c.getLastAddress_succ
  rw [hbits] at hlast
  have hle := h.first_le next List.mem_cons_self
  have hmeet := hinside.1
  have hfirst : next.getFirstAddress = c.getFirstAddress := by omega
  have hlt : c.networkMask < next.networkMask := by
    by_contra hge
    exact hinside.2 ⟨hfirst.symm, by omega⟩
  have hmask := h.mask_le next List.mem_cons_self hfirst
  obtain rfl : seconds = [] := hseconds.resolve_right fun h => h.2 (by omega)
  rw [List.nil_append] at hperm
  refine ⟨?_, ?_, if_neg ?_, if_pos ⟨next, List.mem_cons_self, hfirst, hlt⟩⟩
  · simp only [weight_cons, weight_perm hperm, c.numBits_halves.1, hbits]
  · rw [pending, hf1]
    exact hperm.countP_eq _
  · rintro ⟨n, hn, hfirst, hlt⟩
    have := h.mask_le n (hperm.mem_iff.mp hn) (by omega)
    omega

/-- Every round is progress. -/
theorem Round.rank_lt {s' : LoopState} (hr : Round c next networks done s')
    (h : Following isV4 c (next :: networks) done) :
    rank s' < rank ⟨some c, next :: networks, done⟩ := by
  have hcpos := @weight_pos c
  have hnpos := @weight_pos next
  cases hr with
  | apart => exact Prod.Lex.toLex_lt_toLex.mpr (.inl (by simp only [weight_cons]; omega))
  | underSame => exact Prod.Lex.toLex_lt_toLex.mpr (.inl (by simp only [weight_cons]; omega))
  | insideSame => exact Prod.Lex.toLex_lt_toLex.mpr (.inl (by simp only [weight_cons]; omega))
  | @underSplit firsts seconds networks' hunder hdiffer hfirsts hseconds hperm =>
    refine Prod.Lex.toLex_lt_toLex.mpr ?_
    by_cases hbits : next.numBits = 0
    · obtain ⟨hweight, hpending⟩ := rank_under_single h hunder hbits hfirsts hseconds hperm
      have hraised := raised_le c networks'
      simp only [weight_cons] at hweight ⊢
      omega
    · obtain ⟨hb1, hb2⟩ := next.numBits_halves
      have hhalves : 3 * weight (firsts ++ seconds) ≤ 2 * 3 ^ next.numBits := by
        apply weight_halves
        · intro p hp
          rcases mem_halves (hfirsts.imp_right And.left) hseconds hp with rfl | rfl <;> omega
        · rcases hfirsts with rfl | ⟨rfl, -⟩ <;> rcases hseconds with rfl | rfl <;> simp
      have hweight := weight_perm hperm
      rw [← List.append_assoc, weight_append] at hweight
      simp only [weight_cons, hweight]
      omega
  | @insideSplit seconds networks' hinside hdiffer hseconds hperm =>
    refine Prod.Lex.toLex_lt_toLex.mpr ?_
    by_cases hbits : c.numBits = 0
    · obtain ⟨hweight, hpending, hraised, hraised'⟩ :=
        rank_inside_single h hinside hbits hseconds hperm
      refine .inr ⟨hweight, ?_⟩
      simp only [hpending, hraised, hraised']
      omega
    · obtain ⟨hb1, hb2⟩ := c.numBits_halves
      have hhalves : 3 * weight (c.split.1 :: seconds) ≤ 2 * 3 ^ c.numBits := by
        apply weight_halves
        · intro p hp
          rcases mem_halves (.inr rfl) (hseconds.imp_right And.left) hp with rfl | rfl <;> omega
        · rcases hseconds with rfl | ⟨rfl, -⟩ <;> simp
      have hweight := weight_perm hperm
      rw [weight_append] at hweight
      rw [weight_cons] at hhalves
      simp only [weight_cons, hweight]
      omega

/-! ### Runs -/

theorem rank_perm {networks'' : List IpAddress} (hperm : networks''.Perm networks) :
    rank ⟨some c, networks'', done⟩ = rank ⟨some c, networks, done⟩ := by
  have hmem : (∃ n ∈ networks'', n.getFirstAddress = c.getFirstAddress ∧
      c.networkMask < n.networkMask) ↔ ∃ n ∈ networks, n.getFirstAddress = c.getFirstAddress ∧
      c.networkMask < n.networkMask := by
    simp only [hperm.mem_iff]
  simp only [rank, weight_cons, weight_perm hperm, pending, hperm.countP_eq, raised, hmem]

/-- The loop has ended, or ends, or goes on with a round. -/
theorem iteration_cases (Q : PriorityQueue IpAddress IpAddress.le) (s : LoopState) :
    (s.currentNet = none ∧ iteration Q s = s) ∨
      (∃ c done, s = ⟨some c, [], done⟩ ∧ iteration Q s = ⟨none, [], treeAdd c done⟩) ∨
      ∃ c q next networks done, s = ⟨some c, q, done⟩ ∧ q.Perm (next :: networks) ∧
        (∀ m ∈ networks, next.le m) ∧ Round c next networks done (iteration Q s) := by
  rcases s with ⟨_ | c, q, done⟩
  · exact .inl ⟨rfl, rfl⟩
  right
  rw [iteration]
  dsimp only
  split
  · next hpoll =>
    obtain rfl := Q.poll_eq_none hpoll
    exact .inl ⟨c, done, rfl, rfl⟩
  · next next networks hpoll =>
    exact .inr ⟨c, q, next, networks, done, rfl, Q.poll_perm hpoll, Q.poll_le hpoll,
      meet_round Q c next networks done⟩

theorem iteration_follows (Q : PriorityQueue IpAddress IpAddress.le) {s : LoopState}
    (hs : Follows isV4 s) :
    Follows isV4 (iteration Q s) ∧ (s.currentNet ≠ none → rank (iteration Q s) < rank s) := by
  rcases iteration_cases Q s with
    ⟨hend, hs'⟩ | ⟨c, done, rfl, hs'⟩ | ⟨c, q, next, networks, done, rfl, hperm, hle, hround⟩
  · rw [hs']
    exact ⟨hs, fun h => absurd hend h⟩
  · have hs : Following isV4 c [] done := hs
    obtain ⟨hadd, hpair, hfamily⟩ := hs.done_add
    rw [hs', hadd]
    refine ⟨⟨hpair, hfamily⟩, fun _ => Prod.Lex.toLex_lt_toLex.mpr (.inl ?_)⟩
    have := @weight_pos c
    simp only [weight_cons]
    omega
  · have h : Following isV4 c (next :: networks) done :=
      Following.congr hs fun n => hperm.mem_iff.symm
    refine ⟨hround.follows h hle, fun _ => ?_⟩
    rw [rank_perm hperm]
    exact hround.rank_lt h

theorem start_follows (Q : PriorityQueue IpAddress IpAddress.le)
    (additions : List (Addition isV4)) : Follows isV4 (start Q (mIpAddresses additions)) := by
  obtain ⟨hvalid, -⟩ := mIpAddresses_sound additions
  rw [start]
  split
  · exact ⟨List.Pairwise.nil, fun _ hd => absurd hd List.not_mem_nil⟩
  · next c networks hpoll =>
    have hperm := Q.poll_perm hpoll
    have hle := Q.poll_le hpoll
    refine ⟨fun n hn => (hvalid n (hperm.mem_iff.mpr hn)).family, ?_, ?_, ?_, List.Pairwise.nil, ?_⟩
    · intro n hn
      have := IpAddress.le_iff.mp (hle n hn)
      omega
    · intro n hn hfirst
      have := IpAddress.le_iff.mp (hle n hn)
      omega
    · exact fun _ hd => absurd hd List.not_mem_nil
    · exact fun _ hd => absurd hd List.not_mem_nil

theorem loopStates_follows (Q : Nat → PriorityQueue IpAddress IpAddress.le)
    (additions : List (Addition isV4)) (n : Nat) :
    Follows isV4 (loopStates Q (mIpAddresses additions) n) := by
  induction n with
  | zero => exact start_follows (Q 0) additions
  | succ n ih => exact (iteration_follows (Q (n + 1)) ih).1

theorem loopStates_end (Q : Nat → PriorityQueue IpAddress IpAddress.le)
    (additions : List (Addition isV4)) :
    ∃ n, (loopStates Q (mIpAddresses additions) n).currentNet = none := by
  obtain ⟨n, hn⟩ := WellFounded.not_rel_apply_succ (r := (· < ·)) fun n =>
    rank (loopStates Q (mIpAddresses additions) n)
  refine ⟨n, by_contra fun hrun => hn ?_⟩
  exact (iteration_follows (Q (n + 1)) (loopStates_follows Q additions n)).2 hrun

/-- `generateIPList` returns a list. -/
def GeneratesList (Q : Nat → PriorityQueue IpAddress IpAddress.le)
    (mIpAddresses ipsDone : List IpAddress) : Prop :=
  ∃ n, (loopStates Q mIpAddresses n).currentNet = none ∧
    (loopStates Q mIpAddresses n).ipsDone = ipsDone

/-- For all networks, and whatever the queue returns among equal elements, the loop ends
    after some rounds. -/
theorem generateIPList_terminates (Q : Nat → PriorityQueue IpAddress IpAddress.le)
    (additions : List (Addition isV4)) :
    ∃ ipsDone, GeneratesList Q (mIpAddresses additions) ipsDone := by
  obtain ⟨n, hn⟩ := loopStates_end Q additions
  exact ⟨_, n, hn, rfl⟩

end NetworkSpace

end OpenVpnAndroid
