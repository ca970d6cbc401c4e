/-
  OpenVpnAndroid/NetworkRound.lean
  ================================
  **One round of `generateIPList`.**

  The networks that are done, the current one and those in the queue decide
  every address by its longest prefix.  `Ordered` is what the loop keeps,
  `Outcome` lists what a round can do, and for each of its branches one lemma
  says that the invariant holds again and one that the decisions stay.
-/
import OpenVpnAndroid.NetworkBlock
import OpenVpnAndroid.LongestMatch

namespace OpenVpnAndroid

open LongestMatch

namespace NetworkSpace

/-- The longest prefix that contains `a` is included, or excluded. -/
def Decides (nets : List IpAddress) (a : Nat) (included : Bool) : Prop :=
  Longest IpAddress.Contains IpAddress.networkMask IpAddress.included nets a included

/-! ### The set of networks -/

theorem mem_treeAdd {x z : IpAddress} {s : List IpAddress}
    (h : ∀ y ∈ s, x.compareTo y ≠ .eq) : z ∈ treeAdd x s ↔ z = x ∨ z ∈ s := by
  induction s with
  | nil => simp [treeAdd]
  | cons y ys ih =>
    have ih := ih fun w hw => h w (List.mem_cons_of_mem _ hw)
    rw [treeAdd]
    split
    · exact List.mem_cons
    · next heq => exact absurd heq (h y List.mem_cons_self)
    · rw [List.mem_cons, ih, List.mem_cons]
      exact or_left_comm

/-- Whatever is there stays, and at most `x` is new. -/
theorem mem_of_mem_treeAdd {x z : IpAddress} {s : List IpAddress} (h : z ∈ treeAdd x s) :
    z = x ∨ z ∈ s := by
  induction s with
  | nil => simpa [treeAdd] using h
  | cons y ys ih =>
    rw [treeAdd] at h
    split at h
    · exact List.mem_cons.mp h
    · exact .inr h
    · rcases List.mem_cons.mp h with rfl | h
      · exact .inr List.mem_cons_self
      · exact (ih h).imp_right (List.mem_cons_of_mem _)

theorem pairwise_treeAdd {x : IpAddress} {s : List IpAddress}
    (hs : s.Pairwise fun n m => n.compareTo m = .lt) :
    (treeAdd x s).Pairwise fun n m => n.compareTo m = .lt := by
  induction s with
  | nil => exact List.pairwise_singleton _ _
  | cons y ys ih =>
    obtain ⟨hy, hys⟩ := List.pairwise_cons.mp hs
    rw [treeAdd]
    split
    · next hlt =>
        refine List.pairwise_cons.mpr ⟨?_, hs⟩
        intro z hz
        rcases List.mem_cons.mp hz with rfl | hz
        · exact hlt
        · have hyz := hy z hz
          rw [IpAddress.compareTo_lt_iff] at hlt hyz ⊢
          omega
    · exact hs
    · next hgt =>
        refine List.pairwise_cons.mpr ⟨?_, ih hys⟩
        intro z hz
        rcases mem_of_mem_treeAdd hz with rfl | hz
        · have hne : ¬ z.le y := fun h => h hgt
          rw [IpAddress.le_iff] at hne
          rw [IpAddress.compareTo_lt_iff]
          omega
        · exact hy z hz

/-- Equal networks of a list are of one kind. -/
def Alike (nets : List IpAddress) : Prop :=
  ∀ n ∈ nets, ∀ m ∈ nets, n.equals m = true → n.included = m.included

theorem alike_cons {n : IpAddress} {nets : List IpAddress} (hnets : Alike nets)
    (hn : ∀ m ∈ nets, n.equals m = true → n.included = m.included) : Alike (n :: nets) := by
  intro x hx y hy hxy
  rcases List.mem_cons.mp hx with rfl | hx'
  · rcases List.mem_cons.mp hy with rfl | hy'
    · rfl
    · exact hn y hy' hxy
  · rcases List.mem_cons.mp hy with rfl | hy'
    · obtain ⟨hmask, hfirst⟩ := IpAddress.equals_iff.mp hxy
      exact (hn x hx' (IpAddress.equals_iff.mpr ⟨hmask.symm, hfirst.symm⟩)).symm
    · exact hnets x hx' y hy' hxy

theorem Alike.mono {nets nets' : List IpAddress} (h : Alike nets) (hsub : ∀ n ∈ nets', n ∈ nets) :
    Alike nets' := by
  intro n hn m hm
  exact h n (hsub n hn) m (hsub m hm)

theorem alike_of_pairwise {nets : List IpAddress}
    (h : nets.Pairwise fun n m => n.compareTo m = .lt) : Alike nets := by
  induction nets with
  | nil => intro n hn; cases hn
  | cons n nets ih =>
    obtain ⟨hn, hnets⟩ := List.pairwise_cons.mp h
    apply alike_cons (ih hnets)
    intro m hm heq
    have hlt := hn m hm
    rw [IpAddress.compareTo_lt_iff] at hlt
    obtain ⟨hmask, hfirst⟩ := IpAddress.equals_iff.mp heq
    omega

variable {isV4 : Bool}

/-- What the additions have put together: networks of the family, no two of them
    equal. -/
theorem mIpAddresses_sound (additions : List (Addition isV4)) :
    (∀ n ∈ mIpAddresses additions, n.Valid isV4) ∧
      (mIpAddresses additions).Pairwise fun n m => n.compareTo m = .lt := by
  have hfold : ∀ (additions : List (Addition isV4)) (s : List IpAddress),
      ((∀ n ∈ s, n.Valid isV4) ∧ s.Pairwise fun n m => n.compareTo m = .lt) →
      (∀ n ∈ additions.foldl add s, n.Valid isV4) ∧
        (additions.foldl add s).Pairwise fun n m => n.compareTo m = .lt := by
    intro additions
    induction additions with
    | nil => intro s hs; exact hs
    | cons addition additions ih =>
      rintro s ⟨hvalid, hsorted⟩
      apply ih
      rcases addition with ⟨ip, included⟩ | ⟨ip, shorter, included⟩
      · refine ⟨?_, pairwise_treeAdd hsorted⟩
        intro n hn
        rcases mem_of_mem_treeAdd hn with rfl | hn
        · exact ⟨rfl, ip.length_le⟩
        · exact hvalid n hn
      · refine ⟨?_, pairwise_treeAdd (pairwise_treeAdd hsorted)⟩
        intro n hn
        rcases mem_of_mem_treeAdd hn with rfl | hn
        · exact ⟨rfl, shorter⟩
        · rcases mem_of_mem_treeAdd hn with rfl | hn
          · exact ⟨rfl, shorter⟩
          · exact hvalid n hn
  exact hfold additions [] ⟨by simp, List.Pairwise.nil⟩

/-! ### The invariant of the loop -/

/-- The current network, the queue and the networks that are done. -/
structure Ordered (isV4 : Bool) (c : IpAddress) (networks done : List IpAddress) : Prop where
  valid : ∀ n ∈ c :: networks, n.Valid isV4
  le : ∀ n ∈ networks, c.le n
  alike : Alike (c :: networks)
  done_lt : ∀ d ∈ done, d.getLastAddress < c.getFirstAddress
  done_apart : ∀ d ∈ done, ∀ e ∈ done, ∀ a, d.Contains a → e.Contains a → d = e

variable {c next : IpAddress} {networks networks' done : List IpAddress}

theorem Ordered.congr (h : Ordered isV4 c networks done)
    (hmem : ∀ n, n ∈ networks' ↔ n ∈ networks) : Ordered isV4 c networks' done := by
  have hsub : ∀ n ∈ c :: networks', n ∈ c :: networks := by
    intro n hn
    rwa [List.mem_cons, ← hmem, ← List.mem_cons]
  exact ⟨fun n hn => h.valid n (hsub n hn), fun n hn => h.le n ((hmem n).mp hn),
    h.alike.mono hsub, h.done_lt, h.done_apart⟩

/-- No network that is done shares an address with one that is not. -/
theorem Ordered.not_contains_done (h : Ordered isV4 c networks done) {d n : IpAddress}
    (hd : d ∈ done) (hn : n ∈ c :: networks) {a : Nat} (hda : d.Contains a) : ¬ n.Contains a := by
  intro hna
  have hlt := h.done_lt d hd
  have hcn : c.getFirstAddress ≤ n.getFirstAddress := by
    rcases List.mem_cons.mp hn with rfl | hn
    · exact Nat.le_refl _
    · have := IpAddress.le_iff.mp (h.le n hn)
      omega
  have := hda.2
  have := hna.1
  omega

/-- The longest prefix among all the networks is unique in its kind. -/
theorem Ordered.consistent (h : Ordered isV4 c networks done) :
    Consistent IpAddress.Contains IpAddress.networkMask IpAddress.included
      (done ++ c :: networks) := by
  intro n hn m hm a hna hma hmask
  rcases List.mem_append.mp hn with hn | hn <;> rcases List.mem_append.mp hm with hm | hm
  · rw [h.done_apart n hn m hm a hna hma]
  · exact absurd hma (h.not_contains_done hn hm hna)
  · exact absurd hna (h.not_contains_done hm hn hma)
  · exact h.alike n hn m hm (hna.equals (h.valid n hn) (h.valid m hm) hmask hma)

/-- The sum that every round makes smaller. -/
def weight (nets : List IpAddress) : Nat := (nets.map fun n => 3 ^ n.numBits).sum

theorem weight_cons {n : IpAddress} {nets : List IpAddress} :
    weight (n :: nets) = 3 ^ n.numBits + weight nets := by
  simp [weight]

theorem weight_append {nets nets' : List IpAddress} :
    weight (nets ++ nets') = weight nets + weight nets' := by
  simp [weight]

theorem weight_perm {nets nets' : List IpAddress} (h : nets.Perm nets') :
    weight nets = weight nets' :=
  (h.map _).sum_eq

theorem Ordered.mem_treeAdd (h : Ordered isV4 c networks done)
    (n : IpAddress) : n ∈ treeAdd c done ↔ n = c ∨ n ∈ done := by
  apply NetworkSpace.mem_treeAdd
  intro d hd heq
  have hlt := h.done_lt d hd
  have hd' := d.contains_getFirstAddress.2
  have := (IpAddress.compareTo_eq_iff.mp heq).1
  omega

theorem exists_least {nets : List IpAddress} (hne : nets ≠ []) :
    ∃ m ∈ nets, ∀ x ∈ nets, m.le x := by
  induction nets with
  | nil => exact absurd rfl hne
  | cons n nets ih =>
    rcases nets with _ | ⟨n', nets⟩
    · refine ⟨n, List.mem_cons_self, ?_⟩
      intro x hx
      rw [List.mem_singleton.mp hx, IpAddress.le_iff]
      exact .inr ⟨rfl, Nat.le_refl _⟩
    · obtain ⟨m, hm, hleast⟩ := ih (by simp)
      by_cases hnm : n.le m
      · refine ⟨n, List.mem_cons_self, ?_⟩
        intro x hx
        rcases List.mem_cons.mp hx with rfl | hx
        · exact IpAddress.le_iff.mpr (.inr ⟨rfl, Nat.le_refl _⟩)
        · have := IpAddress.le_iff.mp hnm
          have := IpAddress.le_iff.mp (hleast x hx)
          rw [IpAddress.le_iff]
          omega
      · refine ⟨m, List.mem_cons_of_mem _ hm, ?_⟩
        intro x hx
        rcases List.mem_cons.mp hx with rfl | hx
        · rw [IpAddress.le_iff] at hnm ⊢
          omega
        · exact hleast x hx

/-! ### One round -/

section Round

variable (h : Ordered isV4 c (next :: networks) done)
include h

theorem Ordered.getFirstAddress_le : c.getFirstAddress ≤ next.getFirstAddress := by
  have := IpAddress.le_iff.mp (h.le next List.mem_cons_self)
  omega

/-- A next network that overlaps and starts later lies inside the current one. -/
theorem Ordered.inside (hmeet : ¬ c.getLastAddress < next.getFirstAddress)
    (hfirst : c.getFirstAddress ≠ next.getFirstAddress) :
    c.networkMask < next.networkMask ∧ c.getFirstAddress < next.getFirstAddress ∧
      c.Contains next.getFirstAddress := by
  have hc := h.valid c List.mem_cons_self
  have hn := h.valid next (List.mem_cons_of_mem _ List.mem_cons_self)
  have hlt : c.getFirstAddress < next.getFirstAddress :=
    Nat.lt_of_le_of_ne h.getFirstAddress_le hfirst
  have hcontains : c.Contains next.getFirstAddress := ⟨hlt.le, Nat.le_of_not_lt hmeet⟩
  refine ⟨?_, hlt, hcontains⟩
  by_contra hmask
  have := (hcontains.nested_ends hc hn (Nat.le_of_not_lt hmask) next.contains_getFirstAddress).1
  omega

/-- The current network ends before the next one. -/
theorem Ordered.apart (hapart : c.getLastAddress < next.getFirstAddress)
    (hle : ∀ m ∈ networks, next.le m) : Ordered isV4 next networks (treeAdd c done) := by
  have hsub : ∀ n ∈ next :: networks, n ∈ c :: next :: networks :=
    fun n hn => List.mem_cons_of_mem _ hn
  have hc := c.contains_getFirstAddress.2
  refine ⟨fun n hn => h.valid n (hsub n hn), hle, h.alike.mono hsub, ?_, ?_⟩
  · intro d hd
    rcases (h.mem_treeAdd d).mp hd with rfl | hd'
    · exact hapart
    · have := h.done_lt d hd'
      omega
  · intro d hd e he a hda hea
    rcases (h.mem_treeAdd d).mp hd with rfl | hd'
    · rcases (h.mem_treeAdd e).mp he with rfl | he'
      · rfl
      · exact absurd hda (h.not_contains_done he' List.mem_cons_self hea)
    · rcases (h.mem_treeAdd e).mp he with rfl | he'
      · exact absurd hea (h.not_contains_done hd' List.mem_cons_self hda)
      · exact h.done_apart d hd' e he' a hda hea

/-- The next network starts where the current one does and has its kind. -/
theorem Ordered.under_same (hfirst : c.getFirstAddress = next.getFirstAddress)
    (hle : ∀ m ∈ networks, next.le m) : Ordered isV4 next networks done := by
  have hsub : ∀ n ∈ next :: networks, n ∈ c :: next :: networks :=
    fun n hn => List.mem_cons_of_mem _ hn
  refine ⟨fun n hn => h.valid n (hsub n hn), hle, h.alike.mono hsub, ?_, h.done_apart⟩
  intro d hd
  rw [← hfirst]
  exact h.done_lt d hd

theorem Ordered.decides_under_same (hfirst : c.getFirstAddress = next.getFirstAddress)
    (hsame : c.included = next.included) (hle : ∀ m ∈ networks, next.le m) (a : Nat) (b : Bool) :
    Decides (done ++ c :: next :: networks) a b ↔ Decides (done ++ next :: networks) a b := by
  have hc := h.valid c List.mem_cons_self
  have hn := h.valid next (List.mem_cons_of_mem _ List.mem_cons_self)
  have hmask : next.networkMask ≤ c.networkMask := by
    have := IpAddress.le_iff.mp (h.le next List.mem_cons_self)
    omega
  have hperm : (done ++ c :: next :: networks).Perm (c :: (done ++ next :: networks)) :=
    List.perm_middle
  refine (longest_congr fun n => hperm.mem_iff).trans (longest_drop ?_ ?_ a b)
  · intro a hca
    have hna : next.Contains a := by
      refine hca.nested_of hc hn hmask c.contains_getFirstAddress ?_
      rw [hfirst]
      exact next.contains_getFirstAddress
    refine ⟨next, by simp, hna, hsame.symm, hmask, ?_⟩
    intro t ht hta htmask
    rcases List.mem_append.mp ht with ht | ht
    · exact absurd hca (h.not_contains_done ht List.mem_cons_self hta)
    · rcases List.mem_cons.mp ht with rfl | ht
      · exact Nat.le_refl _
      · -- a network that contains `a` starts no later, so it comes after `next`
        have htv := h.valid t (by simp [ht])
        have := (hca.nested_ends hc htv htmask hta).1
        have := IpAddress.le_iff.mp (hle t ht)
        omega
  · exact (Consistent.congr fun n => hperm.mem_iff).mp h.consistent

theorem Ordered.networkMask_lt (hfirst : c.getFirstAddress = next.getFirstAddress)
    (hdiffer : c.included ≠ next.included) : next.networkMask < c.networkMask := by
  have hle := IpAddress.le_iff.mp (h.le next List.mem_cons_self)
  have hne : next.networkMask ≠ c.networkMask := by
    intro heq
    apply hdiffer
    exact h.alike c List.mem_cons_self next (by simp) (IpAddress.equals_iff.mpr ⟨heq.symm, hfirst⟩)
  omega

/-- So the next network has two halves. -/
theorem Ordered.next_lt_addressBits (hfirst : c.getFirstAddress = next.getFirstAddress)
    (hdiffer : c.included ≠ next.included) : next.networkMask < addressBits isV4 :=
  (h.networkMask_lt hfirst hdiffer).trans_le (h.valid c List.mem_cons_self).networkMask_le

/-- Halves of the next network take its place in the queue, where they are not
    there already and are not the current network. -/
theorem Ordered.under_split {ps : List IpAddress}
    (hfirst : c.getFirstAddress = next.getFirstAddress) (hdiffer : c.included ≠ next.included)
    (hps : ∀ p ∈ ps, p = next.split.1 ∨ p = next.split.2)
    (hnew : ∀ p ∈ ps, ∀ m ∈ c :: networks, p.equals m = false) :
    Ordered isV4 c (ps ++ networks) done := by
  have hc := h.valid c List.mem_cons_self
  have hn := h.valid next (List.mem_cons_of_mem _ List.mem_cons_self)
  have hmask : next.networkMask < c.networkMask := h.networkMask_lt hfirst hdiffer
  have hlt := h.next_lt_addressBits hfirst hdiffer
  obtain ⟨hv1, hv2⟩ := IpAddress.valid_split hn hlt
  obtain ⟨hf1, hf2⟩ := IpAddress.split_first hn hlt
  have hsub : ∀ n ∈ c :: networks, n ∈ c :: next :: networks := by
    intro n hn
    rcases List.mem_cons.mp hn with rfl | hn
    · exact List.mem_cons_self
    · exact List.mem_cons_of_mem _ (List.mem_cons_of_mem _ hn)
  have hincluded : ∀ p ∈ ps, p.included = next.included := by
    intro p hp
    rcases hps p hp with rfl | rfl <;> rfl
  refine ⟨?_, ?_, ?_, h.done_lt, h.done_apart⟩
  · intro n hn
    rcases List.mem_cons.mp hn with rfl | hn
    · exact hc
    · rcases List.mem_append.mp hn with hn | hn
      · rcases hps n hn with rfl | rfl
        · exact hv1
        · exact hv2
      · exact h.valid n (hsub n (List.mem_cons_of_mem _ hn))
  · intro n hn
    rcases List.mem_append.mp hn with hn | hn
    · rw [IpAddress.le_iff]
      have hpos := Nat.two_pow_pos next.split.1.numBits
      rcases hps n hn with rfl | rfl
      · exact .inr ⟨by omega, hmask⟩
      · exact .inl (by omega)
    · exact h.le n (List.mem_cons_of_mem _ hn)
  · -- a piece is equal to no other network, or to a piece of the same kind
    intro x hx y hy hxy
    have hcase : ∀ z ∈ c :: (ps ++ networks), z ∈ ps ∨ z ∈ c :: networks := by
      intro z hz
      rw [List.mem_cons, List.mem_append] at hz
      rw [List.mem_cons]
      exact or_left_comm.mp hz
    have hyx : y.equals x = true := by
      obtain ⟨hm, hf⟩ := IpAddress.equals_iff.mp hxy
      exact IpAddress.equals_iff.mpr ⟨hm.symm, hf.symm⟩
    rcases hcase x hx with hx | hx <;> rcases hcase y hy with hy | hy
    · rw [hincluded x hx, hincluded y hy]
    · exact absurd hxy (by rw [hnew x hx y hy]; decide)
    · exact absurd hyx (by rw [hnew y hy x hx]; decide)
    · exact h.alike x (hsub x hx) y (hsub y hy) hxy

/-- Together with the networks that are there already, the halves cover the next
    network. -/
theorem Ordered.decides_under_split {ps : List IpAddress}
    (hfirst : c.getFirstAddress = next.getFirstAddress) (hdiffer : c.included ≠ next.included)
    (hps : ∀ p ∈ ps, p = next.split.1 ∨ p = next.split.2)
    (hnew : ∀ p ∈ ps, ∀ m ∈ c :: networks, p.equals m = false)
    (hcover : ∀ p, p = next.split.1 ∨ p = next.split.2 →
      p ∈ ps ∨ ∃ m ∈ c :: networks, p.equals m = true) (a : Nat) (b : Bool) :
    Decides (done ++ c :: next :: networks) a b ↔ Decides (done ++ c :: (ps ++ networks)) a b := by
  have hn := h.valid next (List.mem_cons_of_mem _ List.mem_cons_self)
  have hlt := h.next_lt_addressBits hfirst hdiffer
  obtain ⟨hv1, hv2⟩ := IpAddress.valid_split hn hlt
  have hafter := h.under_split hfirst hdiffer hps hnew
  have hbefore : ∀ n, n ∈ done ++ c :: next :: networks ↔ n ∈ next :: (done ++ c :: networks) :=
    fun n => (((List.Perm.swap next c networks).append_left done).trans List.perm_middle).mem_iff
  have hbehind : ∀ n, n ∈ done ++ c :: (ps ++ networks) ↔ n ∈ ps ++ (done ++ c :: networks) :=
    fun n => ((List.perm_middle.symm.append_left done).trans
      (List.perm_append_comm_assoc done ps (c :: networks))).mem_iff
  refine (longest_congr hbefore).trans
    ((longest_split ?_ ?_ ?_ ?_ a b).trans (longest_congr hbehind).symm)
  · intro p hp
    rcases hps p hp with rfl | rfl
    · exact ⟨rfl, rfl, fun a ha => (IpAddress.contains_split hn hlt).mpr (.inl ha)⟩
    · exact ⟨rfl, rfl, fun a ha => (IpAddress.contains_split hn hlt).mpr (.inr ha)⟩
  · intro a ha
    have hhalf : ∀ p, p = next.split.1 ∨ p = next.split.2 → p.Contains a →
        (∃ p ∈ ps, p.Contains a) ∨
          ∃ s ∈ done ++ c :: networks, s.Contains a ∧ next.networkMask < s.networkMask := by
      intro p hp hpa
      have hpv : p.Valid isV4 ∧ p.networkMask = next.networkMask + 1 := by
        rcases hp with rfl | rfl
        · exact ⟨hv1, rfl⟩
        · exact ⟨hv2, rfl⟩
      rcases hcover p hp with hmem | ⟨m, hm, heq⟩
      · exact .inl ⟨p, hmem, hpa⟩
      · have hmv : m.Valid isV4 := by
          apply h.valid
          rcases List.mem_cons.mp hm with rfl | hm
          · exact List.mem_cons_self
          · exact List.mem_cons_of_mem _ (List.mem_cons_of_mem _ hm)
        refine .inr ⟨m, List.mem_append_right _ hm,
          (IpAddress.contains_of_equals hpv.1 hmv heq).mp hpa, ?_⟩
        have := (IpAddress.equals_iff.mp heq).1
        omega
    rcases (IpAddress.contains_split hn hlt).mp ha with ha | ha
    · exact hhalf _ (.inl rfl) ha
    · exact hhalf _ (.inr rfl) ha
  · exact (Consistent.congr hbefore).mp h.consistent
  · exact (Consistent.congr hbehind).mp hafter.consistent

theorem Ordered.inside_same : Ordered isV4 c networks done := by
  have hsub : ∀ n ∈ c :: networks, n ∈ c :: next :: networks := by
    intro n hn
    rw [List.mem_cons] at hn
    simp only [List.mem_cons]
    exact hn.imp_right Or.inr
  exact ⟨fun n hn => h.valid n (hsub n hn), fun n hn => h.le n (List.mem_cons_of_mem _ hn),
    h.alike.mono hsub, h.done_lt, h.done_apart⟩

/-- A network of the same kind inside the current one is ignored.  At its
    addresses the rest decides like the next network in the queue that starts
    with it, or like the current one. -/
theorem Ordered.decides_inside_same (hle : ∀ m ∈ networks, next.le m)
    (hmeet : ¬ c.getLastAddress < next.getFirstAddress)
    (hfirst : c.getFirstAddress ≠ next.getFirstAddress) (hsame : c.included = next.included)
    (hlast : ¬ ∃ m ∈ networks, m.getFirstAddress = next.getFirstAddress ∧
      m.included ≠ next.included ∧ ∀ x ∈ networks, m.le x) (a : Nat) (b : Bool) :
    Decides (done ++ c :: next :: networks) a b ↔ Decides (done ++ c :: networks) a b := by
  have hc := h.valid c List.mem_cons_self
  have hn := h.valid next (List.mem_cons_of_mem _ List.mem_cons_self)
  obtain ⟨hmask, hlt, hcn⟩ := h.inside hmeet hfirst
  have hv : ∀ m ∈ networks, m.Valid isV4 := fun m hm => h.valid m (by simp [hm])
  have hbefore : ∀ n, n ∈ done ++ c :: next :: networks ↔ n ∈ next :: (done ++ c :: networks) :=
    fun n => (((List.Perm.swap next c networks).append_left done).trans List.perm_middle).mem_iff
  refine (longest_congr hbefore).trans
    (longest_drop ?_ ((Consistent.congr hbefore).mp h.consistent) a b)
  intro a hna
  have hca : c.Contains a := hna.nested_of hn hc hmask.le next.contains_getFirstAddress hcn
  -- a network in the queue that contains `a` starts with `next`
  have hstart : ∀ t ∈ networks, t.Contains a → t.networkMask ≤ next.networkMask →
      t.getFirstAddress = next.getFirstAddress := by
    intro t ht hta htmask
    have := (hna.nested_ends hn (hv t ht) htmask hta).1
    have := IpAddress.le_iff.mp (hle t ht)
    omega
  by_cases hex : ∃ m ∈ networks, m.getFirstAddress = next.getFirstAddress
  · obtain ⟨m, hm, hmfirst⟩ := hex
    obtain ⟨m', hm', hleast⟩ := exists_least (List.ne_nil_of_mem hm)
    have hnm' := IpAddress.le_iff.mp (hle m' hm')
    have hmm' := IpAddress.le_iff.mp (hleast m hm)
    have hfirst' : m'.getFirstAddress = next.getFirstAddress := by omega
    have hincluded : m'.included = next.included := by
      by_contra hne
      exact hlast ⟨m', hm', hfirst', hne, hleast⟩
    have hm'n : m'.Contains next.getFirstAddress := hfirst' ▸ m'.contains_getFirstAddress
    refine ⟨m', by simp [hm'], ?_, hincluded, by omega, ?_⟩
    · exact hna.nested_of hn (hv m' hm') (by omega) next.contains_getFirstAddress hm'n
    · intro t ht hta htmask
      rcases List.mem_append.mp ht with ht | ht
      · exact absurd hca (h.not_contains_done ht List.mem_cons_self hta)
      · rcases List.mem_cons.mp ht with rfl | ht
        · by_contra hgt
          have := (hcn.nested_ends hc (hv m' hm') (by omega) hm'n).1
          omega
        · have := hstart t ht hta htmask
          have := IpAddress.le_iff.mp (hleast t ht)
          omega
  · push Not at hex
    refine ⟨c, by simp, hca, hsame, hmask.le, ?_⟩
    intro t ht hta htmask
    rcases List.mem_append.mp ht with ht | ht
    · exact absurd hca (h.not_contains_done ht List.mem_cons_self hta)
    · rcases List.mem_cons.mp ht with rfl | ht
      · exact Nat.le_refl _
      · exact absurd (hstart t ht hta htmask) (hex t ht)

/-- The current network is split around a network of the other kind: its first
    half goes on, its second half is queued unless it is the next network. -/
theorem Ordered.inside_split {ps : List IpAddress}
    (hmeet : ¬ c.getLastAddress < next.getFirstAddress)
    (hfirst : c.getFirstAddress ≠ next.getFirstAddress)
    (hps : ∀ p ∈ ps, p = c.split.2 ∧ p.networkMask ≠ next.networkMask)
    (halike : ∀ p ∈ ps, ∀ m ∈ networks, p.equals m = true → p.included = m.included) :
    Ordered isV4 c.split.1 (ps ++ next :: networks) done := by
  have hc := h.valid c List.mem_cons_self
  have hn := h.valid next (List.mem_cons_of_mem _ List.mem_cons_self)
  obtain ⟨hmask, hcn, -⟩ := h.inside hmeet hfirst
  have hlt : c.networkMask < addressBits isV4 := hmask.trans_le hn.networkMask_le
  obtain ⟨hv1, hv2⟩ := IpAddress.valid_split hc hlt
  obtain ⟨hf1, hf2⟩ := IpAddress.split_first hc hlt
  have hpos := Nat.two_pow_pos c.split.1.numBits
  have hsub : ∀ n ∈ next :: networks, n ∈ c :: next :: networks :=
    fun n hn => List.mem_cons_of_mem _ hn
  -- nothing in the queue starts with the first half and is as small
  have hahead : ∀ m ∈ next :: networks, c.split.1.le m ∧ c.split.1.equals m = false := by
    intro m hm
    have hcm := IpAddress.le_iff.mp (h.le m hm)
    have hmask1 : c.split.1.networkMask = c.networkMask + 1 := rfl
    refine ⟨IpAddress.le_iff.mpr (by omega), ?_⟩
    rw [Bool.eq_false_iff]
    intro heq
    have := IpAddress.equals_iff.mp heq
    omega
  have hfirsthalf : ∀ m ∈ ps ++ next :: networks, c.split.1.equals m = true →
      c.split.1.included = m.included := by
    intro m hm heq
    rcases List.mem_append.mp hm with hm | hm
    · rw [(hps m hm).1]
      rfl
    · rw [(hahead m hm).2] at heq
      cases heq
  have hrest : Alike (ps ++ next :: networks) := by
    intro x hx y hy hxy
    have hcase : ∀ p ∈ ps, ∀ m ∈ next :: networks, p.equals m = true →
        p.included = m.included := by
      intro p hp m hm heq
      rcases List.mem_cons.mp hm with rfl | hm
      · exact absurd (IpAddress.equals_iff.mp heq).1 (hps p hp).2
      · exact halike p hp m hm heq
    rcases List.mem_append.mp hx with hx | hx <;> rcases List.mem_append.mp hy with hy | hy
    · rw [(hps x hx).1, (hps y hy).1]
    · exact hcase x hx y hy hxy
    · obtain ⟨hm, hf⟩ := IpAddress.equals_iff.mp hxy
      exact (hcase y hy x hx (IpAddress.equals_iff.mpr ⟨hm.symm, hf.symm⟩)).symm
    · exact h.alike x (hsub x hx) y (hsub y hy) hxy
  refine ⟨?_, ?_, alike_cons hrest hfirsthalf, ?_, h.done_apart⟩
  · intro n hn
    rcases List.mem_cons.mp hn with rfl | hn
    · exact hv1
    · rcases List.mem_append.mp hn with hn | hn
      · rw [(hps n hn).1]
        exact hv2
      · exact h.valid n (hsub n hn)
  · intro n hn
    rcases List.mem_append.mp hn with hn | hn
    · rw [(hps n hn).1, IpAddress.le_iff]
      exact .inl (by omega)
    · exact (hahead n hn).1
  · intro d hd
    rw [hf1]
    exact h.done_lt d hd

theorem Ordered.decides_inside_split {ps : List IpAddress}
    (hmeet : ¬ c.getLastAddress < next.getFirstAddress)
    (hfirst : c.getFirstAddress ≠ next.getFirstAddress)
    (hps : ∀ p ∈ ps, p = c.split.2 ∧ p.networkMask ≠ next.networkMask)
    (halike : ∀ p ∈ ps, ∀ m ∈ networks, p.equals m = true → p.included = m.included)
    (hcover : c.split.2 ∈ ps ∨ c.split.2.networkMask = next.networkMask) (a : Nat) (b : Bool) :
    Decides (done ++ c :: next :: networks) a b ↔
      Decides (done ++ c.split.1 :: (ps ++ next :: networks)) a b := by
  have hc := h.valid c List.mem_cons_self
  have hn := h.valid next (List.mem_cons_of_mem _ List.mem_cons_self)
  obtain ⟨hmask, hlt', hcn⟩ := h.inside hmeet hfirst
  have hlt : c.networkMask < addressBits isV4 := hmask.trans_le hn.networkMask_le
  obtain ⟨hv1, hv2⟩ := IpAddress.valid_split hc hlt
  obtain ⟨hf1, hf2⟩ := IpAddress.split_first hc hlt
  have hafter := h.inside_split hmeet hfirst hps halike
  have hbefore : ∀ n, n ∈ done ++ c :: next :: networks ↔ n ∈ c :: (done ++ next :: networks) :=
    fun n => List.perm_middle.mem_iff
  have hbehind : ∀ n, n ∈ done ++ c.split.1 :: (ps ++ next :: networks) ↔
      n ∈ (c.split.1 :: ps) ++ (done ++ next :: networks) :=
    fun n => (List.perm_middle.trans
      ((List.perm_append_comm_assoc done ps (next :: networks)).cons c.split.1)).mem_iff
  refine (longest_congr hbefore).trans
    ((longest_split ?_ ?_ ?_ ?_ a b).trans (longest_congr hbehind).symm)
  · intro p hp
    rcases List.mem_cons.mp hp with rfl | hp
    · exact ⟨rfl, rfl, fun a ha => (IpAddress.contains_split hc hlt).mpr (.inl ha)⟩
    · rw [(hps p hp).1]
      exact ⟨rfl, rfl, fun a ha => (IpAddress.contains_split hc hlt).mpr (.inr ha)⟩
  · intro a ha
    rcases (IpAddress.contains_split hc hlt).mp ha with ha | ha
    · exact .inl ⟨_, List.mem_cons_self, ha⟩
    · rcases hcover with hmem | hmask2
      · exact .inl ⟨_, List.mem_cons_of_mem _ hmem, ha⟩
      · -- the second half is the next network
        have hn2 : c.split.2.Contains next.getFirstAddress := by
          rcases (IpAddress.contains_split hc hlt).mp hcn with h1 | h2
          · have heq := h1.equals hv1 hn hmask2 next.contains_getFirstAddress
            have := (IpAddress.equals_iff.mp heq).2
            omega
          · exact h2
        have heq := hn2.equals hv2 hn hmask2 next.contains_getFirstAddress
        exact .inr ⟨next, by simp, (IpAddress.contains_of_equals hv2 hn heq).mp ha, hmask⟩
  · exact (Consistent.congr hbefore).mp h.consistent
  · exact (Consistent.congr hbehind).mp hafter.consistent

end Round

/-! ### What a round can do -/

variable (Q : PriorityQueue IpAddress IpAddress.le)

/-- `net`, unless the queue has an equal network. -/
def absent (net : IpAddress) (networks : List IpAddress) : List IpAddress :=
  if networks.any net.equals then [] else [net]

theorem mem_absent {p net : IpAddress} :
    p ∈ absent net networks ↔ p = net ∧ ∀ m ∈ networks, net.equals m = false := by
  rw [absent]
  split_ifs with hany
  · simp only [List.not_mem_nil, false_iff, not_and, not_forall, Bool.not_eq_false]
    obtain ⟨m, hm, heq⟩ := List.any_eq_true.mp hany
    intro _
    exact ⟨m, hm, heq⟩
  · simp only [List.any_eq_true, not_exists, not_and, Bool.not_eq_true] at hany
    rw [List.mem_singleton]
    exact (and_iff_left hany).symm

theorem addAbsent_perm (net : IpAddress) (networks : List IpAddress) :
    (addAbsent Q net networks).Perm (absent net networks ++ networks) := by
  rw [addAbsent, absent]
  split_ifs
  · exact List.Perm.refl _
  · exact Q.add_perm _ _

/-- The outcome of a round, branch by branch. -/
inductive Outcome (c next : IpAddress) (networks done : List IpAddress) : LoopState → Prop where
  | apart (hapart : c.getLastAddress < next.getFirstAddress) :
      Outcome c next networks done ⟨some next, networks, treeAdd c done⟩
  | underSame (hfirst : c.getFirstAddress = next.getFirstAddress)
      (hsame : c.included = next.included) :
      Outcome c next networks done ⟨some next, networks, done⟩
  | underSplit (ps : List IpAddress) {networks' : List IpAddress}
      (hfirst : c.getFirstAddress = next.getFirstAddress)
      (hdiffer : c.included ≠ next.included)
      (hps : ∀ p ∈ ps, p = next.split.1 ∨ p = next.split.2)
      (hnew : ∀ p ∈ ps, ∀ m ∈ c :: networks, p.equals m = false)
      (hcover : ∀ p, p = next.split.1 ∨ p = next.split.2 →
        p ∈ ps ∨ ∃ m ∈ c :: networks, p.equals m = true)
      (hlength : ps.length ≤ 2) (hperm : networks'.Perm (ps ++ networks)) :
      Outcome c next networks done ⟨some c, networks', done⟩
  | insideSame (hmeet : ¬ c.getLastAddress < next.getFirstAddress)
      (hfirst : c.getFirstAddress ≠ next.getFirstAddress) (hsame : c.included = next.included) :
      Outcome c next networks done ⟨some c, networks, done⟩
  | insideSplit (ps : List IpAddress) {networks' : List IpAddress}
      (hmeet : ¬ c.getLastAddress < next.getFirstAddress)
      (hfirst : c.getFirstAddress ≠ next.getFirstAddress) (hdiffer : c.included ≠ next.included)
      (hps : ∀ p ∈ ps, p = c.split.2 ∧ p.networkMask ≠ next.networkMask)
      (hcover : c.split.2 ∈ ps ∨ c.split.2.networkMask = next.networkMask)
      (hlength : ps.length ≤ 1) (hperm : networks'.Perm (ps ++ next :: networks)) :
      Outcome c next networks done ⟨some c.split.1, networks', done⟩

/-- The pieces of `next` that the branch for a bigger network adds. -/
theorem Ordered.outcome_underSplit (h : Ordered isV4 c (next :: networks) done)
    (hfirst : c.getFirstAddress = next.getFirstAddress) (hdiffer : c.included ≠ next.included) :
    Outcome c next networks done
      ⟨some c,
        if next.split.1.getLastAddress = c.getLastAddress then addAbsent Q next.split.2 networks
        else addAbsent Q next.split.1 (addAbsent Q next.split.2 networks), done⟩ := by
  have hc := h.valid c List.mem_cons_self
  have hn := h.valid next (List.mem_cons_of_mem _ List.mem_cons_self)
  have hlt := h.next_lt_addressBits hfirst hdiffer
  obtain ⟨hv1, hv2⟩ := IpAddress.valid_split hn hlt
  obtain ⟨hf1, hf2⟩ := IpAddress.split_first hn hlt
  have hpos := Nat.two_pow_pos next.split.1.numBits
  have hperm2 := addAbsent_perm Q next.split.2 networks
  -- the second half starts after the current network, the first half with it
  have hne2 : ∀ m, m.getFirstAddress = c.getFirstAddress → next.split.2.equals m = false := by
    intro m hm
    rw [Bool.eq_false_iff]
    intro heq
    have := (IpAddress.equals_iff.mp heq).2
    omega
  have hcover2 : next.split.2 ∈ absent next.split.2 networks ∨
      ∃ m ∈ c :: networks, next.split.2.equals m = true := by
    by_cases hany : ∀ m ∈ networks, next.split.2.equals m = false
    · exact .inl (mem_absent.mpr ⟨rfl, hany⟩)
    · push Not at hany
      obtain ⟨m, hm, heq⟩ := hany
      exact .inr ⟨m, List.mem_cons_of_mem _ hm, by simpa using heq⟩
  have hnew2 : ∀ p ∈ absent next.split.2 networks, ∀ m ∈ c :: networks, p.equals m = false := by
    intro p hp m hm
    obtain ⟨rfl, hany⟩ := mem_absent.mp hp
    rcases List.mem_cons.mp hm with rfl | hm
    · exact hne2 _ rfl
    · exact hany m hm
  have hlength : ∀ (net : IpAddress) (nets : List IpAddress), (absent net nets).length ≤ 1 := by
    intro net nets
    rw [absent]
    split_ifs <;> simp
  split_ifs with hlast
  · -- the first half is the current network
    refine .underSplit (absent next.split.2 networks) hfirst hdiffer
      (fun p hp => .inr (mem_absent.mp hp).1) hnew2 ?_ ((hlength _ _).trans (by decide)) hperm2
    rintro p (rfl | rfl)
    · have hcont : next.split.1.Contains c.getLastAddress := ⟨by
        have := c.contains_getLastAddress.1
        omega, hlast.ge⟩
      have hk : next.split.1.numBits = c.numBits := by
        have h1 := next.split.1.getLastAddress_succ
        have h2 := c.getLastAddress_succ
        apply Nat.pow_right_injective (Nat.le_refl 2)
        change 2 ^ next.split.1.numBits = 2 ^ c.numBits
        omega
      refine .inr ⟨c, List.mem_cons_self, IpAddress.equals_iff.mpr ⟨?_, by omega⟩⟩
      have := hv1.numBits_add
      have := hc.numBits_add
      omega
    · exact hcover2
  · have hperm1 := addAbsent_perm Q next.split.1 (addAbsent Q next.split.2 networks)
    have hmem : ∀ m, m ∈ addAbsent Q next.split.2 networks ↔
        m ∈ absent next.split.2 networks ∨ m ∈ networks := by
      intro m
      rw [hperm2.mem_iff, List.mem_append]
    refine .underSplit
      (absent next.split.1 (addAbsent Q next.split.2 networks) ++
        absent next.split.2 networks) hfirst hdiffer ?_ ?_ ?_ ?_ ?_
    · intro p hp
      exact (List.mem_append.mp hp).imp (fun hp => (mem_absent.mp hp).1)
        fun hp => (mem_absent.mp hp).1
    · intro p hp m hm
      rcases List.mem_append.mp hp with hp | hp
      · obtain ⟨rfl, hany⟩ := mem_absent.mp hp
        rcases List.mem_cons.mp hm with rfl | hm
        · rw [Bool.eq_false_iff]
          intro heq
          have h1 := (IpAddress.contains_of_equals hv1 hc heq).mp
            next.split.1.contains_getLastAddress
          have h2 := (IpAddress.contains_of_equals hv1 hc heq).mpr m.contains_getLastAddress
          exact hlast (Nat.le_antisymm h1.2 h2.2)
        · exact hany m ((hmem m).mpr (.inr hm))
      · exact hnew2 p hp m hm
    · rintro p (rfl | rfl)
      · by_cases hany : ∀ m ∈ addAbsent Q next.split.2 networks, next.split.1.equals m = false
        · exact .inl (List.mem_append_left _ (mem_absent.mpr ⟨rfl, hany⟩))
        · push Not at hany
          obtain ⟨m, hm, heq⟩ := hany
          have heq : next.split.1.equals m = true := by simpa using heq
          rcases (hmem m).mp hm with hm | hm
          · have := (IpAddress.equals_iff.mp heq).2
            rw [(mem_absent.mp hm).1] at this
            omega
          · exact .inr ⟨m, List.mem_cons_of_mem _ hm, heq⟩
      · exact hcover2.imp_left (List.mem_append_right _)
    · rw [List.length_append]
      exact Nat.add_le_add (hlength _ _) (hlength _ _)
    · rw [List.append_assoc]
      exact hperm1.trans (hperm2.append_left _)

/-- Every round has one of the outcomes. -/
theorem Ordered.outcome (h : Ordered isV4 c (next :: networks) done) :
    Outcome c next networks done (meet Q c next networks done) := by
  have hle := IpAddress.le_iff.mp (h.le next List.mem_cons_self)
  rw [meet]
  split
  · next hapart => exact .apart hapart
  · next hmeet =>
    split
    · next hunder =>
      split
      · next hsame => exact .underSame hunder.1 hsame
      · next hdiffer => exact h.outcome_underSplit Q hunder.1 hdiffer
    · next hinside =>
      have hfirst : c.getFirstAddress ≠ next.getFirstAddress := by
        intro heq
        exact hinside ⟨heq, by omega⟩
      split
      · next hsame => exact .insideSame hmeet hfirst hsame
      · next hdiffer =>
        dsimp only
        split
        · next hmask =>
          exact .insideSplit [] hmeet hfirst hdiffer (by simp) (.inr hmask) (by simp)
            (Q.add_perm _ _)
        · next hmask =>
          refine .insideSplit [c.split.2] hmeet hfirst hdiffer ?_ (.inl (by simp))
            (by simp) ?_
          · intro p hp
            rw [List.mem_singleton.mp hp]
            exact ⟨rfl, hmask⟩
          · refine (Q.add_perm _ _).trans (((Q.add_perm _ _).cons _).trans ?_)
            exact List.Perm.swap _ _ _

end NetworkSpace

end OpenVpnAndroid
