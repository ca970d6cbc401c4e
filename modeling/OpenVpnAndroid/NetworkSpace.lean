/-
  OpenVpnAndroid/NetworkSpace.lean
  ================================
  **`NetworkSpace`: the networks of a VPN and their list without overlaps.**

  `generateIPList` walks over the networks in order of their first address and
  cuts them until none overlaps another.  Its loop is `iteration` on a
  `LoopState`, and `loopState n` is the state after `n` rounds.

  `java.util.PriorityQueue` may break ties in any way, so the loop takes an
  implementation of it as a parameter.
-/
import Mathlib

namespace OpenVpnAndroid

/-! ### Networks -/

/-- The number of address bits of a family. -/
def addressBits (isV4 : Bool) : Nat := if isV4 then 32 else 128

structure IpAddress where
  netAddress : Nat
  networkMask : Nat
  included : Bool
  isV4 : Bool
deriving DecidableEq, Repr

/-- `BigInteger.setBit` -/
def setBit (n i : Nat) : Nat := if n.testBit i then n else n + 2 ^ i

/-- `BigInteger.clearBit` -/
def clearBit (n i : Nat) : Nat := if n.testBit i then n - 2 ^ i else n

namespace IpAddress

variable (n m : IpAddress)

def numBits : Nat := addressBits n.isV4 - n.networkMask

def getMaskedAddress (one : Bool) : Nat :=
  (List.range n.numBits).foldl (fun numAddress i =>
    if one then setBit numAddress i else clearBit numAddress i) n.netAddress

def getLastAddress : Nat := n.getMaskedAddress true

def getFirstAddress : Nat := n.getMaskedAddress false

/-- First by the first address, then the smaller network. -/
def compareTo : Ordering :=
  if n.getFirstAddress < m.getFirstAddress then .lt
  else if n.getFirstAddress > m.getFirstAddress then .gt
  else if n.networkMask > m.networkMask then .lt
  else if m.networkMask = n.networkMask then .eq
  else .gt

/-- `equals` ignores `included`. -/
def equals : Bool :=
  n.networkMask == m.networkMask && m.getFirstAddress == n.getFirstAddress

def split : IpAddress × IpAddress :=
  let firstHalf : IpAddress := ⟨n.getFirstAddress, n.networkMask + 1, n.included, n.isV4⟩
  (firstHalf, ⟨firstHalf.getLastAddress + 1, n.networkMask + 1, n.included, n.isV4⟩)

/-- The address `a` lies in the network. -/
def Contains (a : Nat) : Prop := n.getFirstAddress ≤ a ∧ a ≤ n.getLastAddress

instance (a : Nat) : Decidable (n.Contains a) :=
  inferInstanceAs (Decidable (_ ∧ _))

end IpAddress

/-! ### The set of networks -/

/-- `TreeSet.add`: an element that is there already, as `compareTo` has it,
    stays. -/
def treeAdd (x : IpAddress) : List IpAddress → List IpAddress
  | [] => [x]
  | y :: ys =>
      match x.compareTo y with
      | .lt => x :: y :: ys
      | .eq => y :: ys
      | .gt => y :: treeAdd x ys

/-- An address and a prefix length of a family: a `CIDRIP`, or an
    `Inet6Address` and a mask. -/
structure CidrPrefix (isV4 : Bool) where
  address : Nat
  length : Nat
  length_le : length ≤ addressBits isV4

def IpAddress.ofCidr {isV4 : Bool} (ip : CidrPrefix isV4) (included : Bool) : IpAddress :=
  ⟨ip.address, ip.length, included, isV4⟩

/-- The calls that fill a `NetworkSpace` with networks of one family. -/
inductive Addition (isV4 : Bool) where
  /-- `addIP` or `addIPv6` -/
  | addIP (ip : CidrPrefix isV4) (included : Bool)
  | addIPSplit (ip : CidrPrefix isV4) (shorter : ip.length < addressBits isV4) (included : Bool)

namespace NetworkSpace

def add {isV4 : Bool} (mIpAddresses : List IpAddress) : Addition isV4 → List IpAddress
  | .addIP ip included => treeAdd (.ofCidr ip included) mIpAddresses
  | .addIPSplit ip _ included =>
      let splitIps := (IpAddress.ofCidr ip included).split
      treeAdd splitIps.2 (treeAdd splitIps.1 mIpAddresses)

/-- `mIpAddresses` after some additions. -/
def mIpAddresses {isV4 : Bool} (additions : List (Addition isV4)) : List IpAddress :=
  additions.foldl add []

end NetworkSpace

/-! ### Priority queues -/

/-- An implementation of `java.util.PriorityQueue`, on the list in which it
    keeps its elements. -/
structure PriorityQueue (α : Type*) (le : α → α → Prop) where
  add : α → List α → List α
  poll : List α → Option (α × List α)
  add_perm : ∀ x q, (add x q).Perm (x :: q)
  poll_perm : ∀ {q x rest}, poll q = some (x, rest) → q.Perm (x :: rest)
  poll_le : ∀ {q x rest}, poll q = some (x, rest) → ∀ y ∈ rest, le x y
  poll_eq_none : ∀ {q}, poll q = none → q = []

/-- The head of a priority queue: not greater than the others. -/
def IpAddress.le (n m : IpAddress) : Prop := n.compareTo m ≠ .gt

instance : DecidableRel IpAddress.le := fun _ _ => inferInstanceAs (Decidable (_ ≠ _))

/-! ### The loop of `generateIPList` -/

structure LoopState where
  currentNet : Option IpAddress
  networks : List IpAddress
  ipsDone : List IpAddress
deriving DecidableEq, Repr

namespace NetworkSpace

variable (Q : PriorityQueue IpAddress IpAddress.le)

/-- `if (!networks.contains(net)) networks.add(net);` -/
def addAbsent (net : IpAddress) (networks : List IpAddress) : List IpAddress :=
  if networks.any net.equals then networks else Q.add net networks

/-- The loop body after `nextNet` has been polled. -/
def meet (currentNet nextNet : IpAddress) (networks ipsDone : List IpAddress) : LoopState :=
  if currentNet.getLastAddress < nextNet.getFirstAddress then
    ⟨some nextNet, networks, treeAdd currentNet ipsDone⟩
  else if currentNet.getFirstAddress = nextNet.getFirstAddress ∧
      currentNet.networkMask ≥ nextNet.networkMask then
    if currentNet.included = nextNet.included then ⟨some nextNet, networks, ipsDone⟩
    else
      let newNets := nextNet.split
      let networks := addAbsent Q newNets.2 networks
      let networks :=
        if newNets.1.getLastAddress = currentNet.getLastAddress then networks
        else addAbsent Q newNets.1 networks
      ⟨some currentNet, networks, ipsDone⟩
  else if currentNet.included = nextNet.included then ⟨some currentNet, networks, ipsDone⟩
  else
    let newNets := currentNet.split
    let networks :=
      if newNets.2.networkMask = nextNet.networkMask then Q.add nextNet networks
      else Q.add nextNet (Q.add newNets.2 networks)
    ⟨some newNets.1, networks, ipsDone⟩

/-- One round of the loop; nothing happens once `currentNet` is `null`. -/
def iteration (s : LoopState) : LoopState :=
  match s.currentNet with
  | none => s
  | some currentNet =>
      match Q.poll s.networks with
      | none => ⟨none, [], treeAdd currentNet s.ipsDone⟩
      | some (nextNet, networks) => meet Q currentNet nextNet networks s.ipsDone

/-- The state before the loop. -/
def start (mIpAddresses : List IpAddress) : LoopState :=
  match Q.poll mIpAddresses with
  | none => ⟨none, [], []⟩
  | some (currentNet, networks) => ⟨some currentNet, networks, []⟩

def loopState (mIpAddresses : List IpAddress) (n : Nat) : LoopState :=
  (iteration Q)^[n] (start Q mIpAddresses)

/-- `generateIPList` returns `ipsDone`. -/
def GeneratesIPList (mIpAddresses ipsDone : List IpAddress) : Prop :=
  ∃ n, (loopState Q mIpAddresses n).currentNet = none ∧
    (loopState Q mIpAddresses n).ipsDone = ipsDone

def getPositiveIPList (ipsSorted : List IpAddress) : List IpAddress :=
  ipsSorted.filter IpAddress.included

end NetworkSpace

end OpenVpnAndroid
