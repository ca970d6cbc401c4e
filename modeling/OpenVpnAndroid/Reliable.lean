/-
  OpenVpnAndroid/Reliable.lean
  ============================
  **The reliability layer of the control channel** (`reliable.c`): the packets that
  a peer may have to send again, the packets that came too early, and the
  acknowledgements that are still to be sent.

  A buffer is the list of the bytes in it and is named by its index in `array`.
  Times are whole seconds.  `ReliableAck` cannot hold more numbers than the array in
  the source has room for.  Over a whole run no acknowledgement is lost and none is made
  up (`acknowledged_iff`).
-/
import OpenVpnAndroid.PacketId
import OpenVpnAndroid.SerialNumber

namespace OpenVpnAndroid

def RELIABLE_ACK_SIZE : Nat := 8
def N_ACK_RETRANSMIT : Nat := 3

/-! ### Packet numbers -/

def subtractPid (test base : PacketId) : PacketId := test - base

def reliablePidInRange1 (test base extent : PacketId) : Bool := subtractPid test base < extent

def reliablePidInRange2 (test base extent : PacketId) : Bool :=
  if base ≤ base + extent then test < base + extent
  else test + 0x80000000 < base + 0x80000000 + extent

def reliablePidMin (p1 p2 : PacketId) : Bool := !reliablePidInRange1 p1 p2 0x80000000

theorem reliablePidMin_iff {a b : Nat} (hab : a < b + 2 ^ 31) (hba : b ≤ a + 2 ^ 31) :
    reliablePidMin (.ofNat a) (.ofNat b) = true ↔ a < b := by
  have hhalf := SerialNumber.sub_lt_half_iff hab hba
  rw [reliablePidMin, reliablePidInRange1, subtractPid, Bool.not_eq_true', decide_eq_false_iff_not,
    hhalf]
  omega

theorem reliablePidInRange1_iff {a b extent : Nat} (hba : b ≤ a) (hab : a < b + 2 ^ 32)
    (hext : extent < 2 ^ 32) :
    reliablePidInRange1 (.ofNat a) (.ofNat b) (.ofNat extent) = true ↔ a < b + extent := by
  rw [reliablePidInRange1, subtractPid, decide_eq_true_eq, SerialNumber.sub_lt_iff hba hab hext]

/-- Without a turn of the counter the window is what it says. -/
theorem reliablePidInRange2_iff {a b extent : Nat} (ha : a < 2 ^ 32) (hb : b + extent < 2 ^ 32) :
    reliablePidInRange2 (.ofNat a) (.ofNat b) (.ofNat extent) = true ↔ a < b + extent := by
  have hsum : (UInt32.ofNat b + UInt32.ofNat extent).toNat = b + extent := by
    rw [UInt32.toNat_add, SerialNumber.toNat_ofNat, SerialNumber.toNat_ofNat]
    omega
  have hle : UInt32.ofNat b ≤ UInt32.ofNat b + UInt32.ofNat extent := by
    rw [UInt32.le_iff_toNat_le, hsum, SerialNumber.toNat_ofNat]
    omega
  rw [reliablePidInRange2, if_pos hle, decide_eq_true_eq, UInt32.lt_iff_toNat_lt, hsum,
    SerialNumber.toNat_ofNat, Nat.mod_eq_of_lt ha]

/-! ### Acknowledgements -/

/-- `struct reliable_ack` -/
structure ReliableAck where
  packet_id : List PacketId
  len_le : packet_id.length ≤ RELIABLE_ACK_SIZE

namespace ReliableAck

def empty : ReliableAck := ⟨[], Nat.zero_le _⟩

def single (pid : PacketId) : ReliableAck := ⟨[pid], Nat.le_add_left 1 7⟩

/-- `ack->packet_id[ack->len++] = pid`, if there is room. -/
def append (ack : ReliableAck) (pid : PacketId) : ReliableAck :=
  if h : ack.packet_id.length < RELIABLE_ACK_SIZE then
    ⟨ack.packet_id ++ [pid], by rw [List.length_append]; exact h⟩
  else ack

def packetIdPresent (ack : ReliableAck) (pid : PacketId) : Bool := ack.packet_id.contains pid

/-- `reliable_ack_acknowledge_packet_id`: the number is lost when there is no room for it. -/
def acknowledgePacketId (ack : ReliableAck) (pid : PacketId) : ReliableAck :=
  if ack.packetIdPresent pid then ack else ack.append pid

/-- The inner loop of `copy_acks_to_mru`, with `move` in hand: the entries, and what is moved
    out at the end unless `id` was found. -/
def moveRight (id : PacketId) : PacketId → List PacketId → List PacketId × Option PacketId
  | move, [] => ([], some move)
  | move, tmp :: entries =>
      if tmp = id then (move :: entries, none)
      else (move :: (moveRight id tmp entries).1, (moveRight id tmp entries).2)

theorem length_moveRight (id move : PacketId) (entries : List PacketId) :
    (moveRight id move entries).1.length = entries.length := by
  induction entries generalizing move with
  | nil => rfl
  | cons tmp entries ih =>
      rw [moveRight]
      split
      · rfl
      · rw [List.length_cons, ih, List.length_cons]

/-- All existing entries one to the right. -/
def moveAll (id : PacketId) (ack_mru : ReliableAck) : ReliableAck :=
  ⟨(moveRight id id ack_mru.packet_id).1, by rw [length_moveRight]; exact ack_mru.len_le⟩

/-- One round of the loop over the acknowledgements, behind the special case of an empty
    `ack_mru`. -/
def insertFirst (id : PacketId) (ack_mru : ReliableAck) : ReliableAck :=
  match (moveRight id id ack_mru.packet_id).2 with
  | none => moveAll id ack_mru
  | some move => (moveAll id ack_mru).append move

def copyAckToMru (id : PacketId) (ack_mru : ReliableAck) : ReliableAck :=
  insertFirst id (if ack_mru.packet_id = [] then single id else ack_mru)

/-- The first `n` numbers go to the front, the last one of them first. -/
def copyAcksToMru (ack ack_mru : ReliableAck) (n : Nat) : ReliableAck :=
  (ack.packet_id.take n).foldr copyAckToMru ack_mru

/-- `reliable_ack_write`: the numbers that are written, what is left of `ack`, and `ack_mru`. -/
def write (ack ack_mru : ReliableAck) (max : Nat) : List PacketId × ReliableAck × ReliableAck :=
  let n := min ack.packet_id.length max
  let ack_mru := copyAcksToMru ack ack_mru n
  (ack_mru.packet_id.take max,
    ⟨ack.packet_id.drop n, Nat.le_trans (List.drop_sublist ..).length_le ack.len_le⟩, ack_mru)

theorem moveRight_of_mem {id : PacketId} (move : PacketId) {entries : List PacketId}
    (h : id ∈ entries) : moveRight id move entries = (move :: entries.erase id, none) := by
  induction entries generalizing move with
  | nil => exact absurd h List.not_mem_nil
  | cons tmp entries ih =>
      rw [moveRight]
      by_cases htmp : tmp = id
      · rw [if_pos htmp, htmp, List.erase_cons_head]
      · have hmem : id ∈ entries := (List.mem_cons.mp h).resolve_left (Ne.symm htmp)
        rw [if_neg htmp, ih tmp hmem, List.erase_cons_tail (by simpa using htmp)]

/-- Nothing is found: the last entry is moved out. -/
theorem moveRight_of_not_mem {id : PacketId} (move : PacketId) {entries : List PacketId}
    (h : id ∉ entries) : ∃ last, (moveRight id move entries).2 = some last ∧
      (moveRight id move entries).1 ++ [last] = move :: entries := by
  induction entries generalizing move with
  | nil => exact ⟨move, rfl, rfl⟩
  | cons tmp entries ih =>
      rw [List.mem_cons, not_or] at h
      obtain ⟨last, hlast, hentries⟩ := ih tmp h.2
      refine ⟨last, ?_, ?_⟩
      · rw [moveRight, if_neg (Ne.symm h.1)]
        exact hlast
      · rw [moveRight, if_neg (Ne.symm h.1), List.cons_append, hentries]

theorem insertFirst_eq (id : PacketId) (ack_mru : ReliableAck) :
    (insertFirst id ack_mru).packet_id =
      (id :: ack_mru.packet_id.erase id).take RELIABLE_ACK_SIZE := by
  have hle := ack_mru.len_le
  by_cases hmem : id ∈ ack_mru.packet_id
  · have hmoved := moveRight_of_mem id hmem
    have hlen := List.length_erase_of_mem hmem
    have hpos := List.length_pos_of_mem hmem
    have hall : (moveAll id ack_mru).packet_id = id :: ack_mru.packet_id.erase id :=
      congrArg Prod.fst hmoved
    rw [insertFirst, congrArg Prod.snd hmoved]
    dsimp only
    rw [hall, List.take_of_length_le]
    rw [List.length_cons, hlen]
    omega
  · obtain ⟨last, hlast, hmoved⟩ := moveRight_of_not_mem id hmem
    have hlen : (moveAll id ack_mru).packet_id.length = ack_mru.packet_id.length :=
      length_moveRight _ _ _
    have hall : (moveAll id ack_mru).packet_id ++ [last] = id :: ack_mru.packet_id := hmoved
    rw [insertFirst, hlast, List.erase_of_not_mem hmem, ← hall]
    dsimp only
    rw [append]
    split
    · next hroom => rw [List.take_of_length_le (by rw [List.length_append]; exact hroom)]
    · rw [List.take_append_of_le_length (by omega), List.take_of_length_le (by omega)]

/-- The number goes to the front, and the oldest one out when there is no more room. -/
theorem copyAckToMru_eq (id : PacketId) (ack_mru : ReliableAck) :
    (copyAckToMru id ack_mru).packet_id =
      (id :: ack_mru.packet_id.erase id).take RELIABLE_ACK_SIZE := by
  rw [copyAckToMru, insertFirst_eq]
  split
  · next hempty => rw [hempty, single, List.erase_cons_head, List.erase_nil]
  · rfl

theorem mem_copyAcksToMru {ack ack_mru : ReliableAck} {n : Nat} {pid : PacketId}
    (h : pid ∈ (copyAcksToMru ack ack_mru n).packet_id) :
    pid ∈ ack.packet_id.take n ∨ pid ∈ ack_mru.packet_id := by
  have hfold : ∀ ids : List PacketId, pid ∈ (ids.foldr copyAckToMru ack_mru).packet_id →
      pid ∈ ids ∨ pid ∈ ack_mru.packet_id := by
    intro ids
    induction ids with
    | nil => exact .inr
    | cons id ids ih =>
        intro hmem
        rw [List.foldr_cons, copyAckToMru_eq] at hmem
        rcases List.mem_cons.mp (List.mem_of_mem_take hmem) with rfl | hmem
        · exact .inl List.mem_cons_self
        · exact (ih (List.mem_of_mem_erase hmem)).imp_left (List.mem_cons_of_mem id)
  exact hfold _ h

/-- The numbers that go out now stand in front, in their order. -/
theorem prefix_copyAcksToMru {ack : ReliableAck} (hnodup : ack.packet_id.Nodup)
    (ack_mru : ReliableAck) (n : Nat) :
    ack.packet_id.take n <+: (copyAcksToMru ack ack_mru n).packet_id := by
  have hfold : ∀ ids : List PacketId, ids.Nodup → ids.length ≤ RELIABLE_ACK_SIZE →
      ids <+: (ids.foldr copyAckToMru ack_mru).packet_id := by
    intro ids hids hlen
    induction ids with
    | nil => exact List.nil_prefix
    | cons id ids ih =>
        rw [List.nodup_cons] at hids
        rw [List.length_cons] at hlen
        obtain ⟨older, holder⟩ := ih hids.2 (Nat.le_of_succ_le hlen)
        rw [List.foldr_cons, copyAckToMru_eq, ← holder, List.erase_append_right _ hids.1,
          ← List.cons_append, List.take_append, List.take_of_length_le (by rwa [List.length_cons])]
        exact List.prefix_append _ _
  refine hfold _ (hnodup.sublist (List.take_sublist _ _)) ?_
  exact Nat.le_trans (List.take_sublist _ _).length_le ack.len_le

theorem mem_write {ack ack_mru : ReliableAck} {max : Nat} {pid : PacketId}
    (h : pid ∈ (write ack ack_mru max).1) : pid ∈ ack.packet_id ∨ pid ∈ ack_mru.packet_id :=
  (mem_copyAcksToMru (List.mem_of_mem_take h)).imp_left List.mem_of_mem_take

theorem length_write_le (ack ack_mru : ReliableAck) (max : Nat) :
    (write ack ack_mru max).1.length ≤ RELIABLE_ACK_SIZE :=
  Nat.le_trans (List.take_sublist _ _).length_le (copyAcksToMru ack ack_mru _).len_le

theorem mem_acknowledgePacketId {ack : ReliableAck} {pid id : PacketId}
    (h : id ∈ (ack.acknowledgePacketId pid).packet_id) : id = pid ∨ id ∈ ack.packet_id := by
  unfold acknowledgePacketId append at h
  split at h
  · exact .inr h
  · split at h
    · rcases List.mem_append.mp h with h | h
      · exact .inr h
      · exact .inl (List.mem_singleton.mp h)
    · exact .inr h

/-- What waits keeps its place. -/
theorem prefix_acknowledgePacketId (ack : ReliableAck) (pid : PacketId) :
    ack.packet_id <+: (ack.acknowledgePacketId pid).packet_id := by
  unfold acknowledgePacketId append
  split
  · exact List.prefix_refl _
  · split
    · exact List.prefix_append _ _
    · exact List.prefix_refl _

theorem nodup_acknowledgePacketId {ack : ReliableAck} (h : ack.packet_id.Nodup) (pid : PacketId) :
    (ack.acknowledgePacketId pid).packet_id.Nodup := by
  unfold acknowledgePacketId append
  split
  · exact h
  · next hpresent =>
      split
      · have hmem : pid ∉ ack.packet_id := by simpa [packetIdPresent] using hpresent
        exact List.Nodup.append h (List.nodup_singleton pid) (by simpa using hmem)
      · exact h

end ReliableAck

/-! ### The record on the wire -/

/-- A `struct session_id` that is defined. -/
structure SessionId where
  id : List UInt8
  size : id.length = 8
  defined : id ≠ List.replicate 8 0

/-- What `reliable_ack_write` puts into the packet. -/
def ackRecord (acks : List PacketId) (sid : SessionId) : List UInt8 :=
  UInt8.ofNat acks.length :: (acks.flatMap packetIdBytes ++ if acks = [] then [] else sid.id)

/-- `reliable_ack_read_packet_id` -/
def readPacketId (buf : List UInt8) : Option (PacketId × List UInt8) := do
  let (net_pid, buf) ← bufRead ID_SIZE buf
  return (.ofNat (BigEndian.value net_pid), buf)

/-- The loop of `reliable_ack_parse`. -/
def readAcks : Nat → List PacketId → List UInt8 → Option (List PacketId × List UInt8)
  | 0, acks, buf => some (acks, buf)
  | count + 1, acks, buf => do
      let (pid, buf) ← readPacketId buf
      if RELIABLE_ACK_SIZE ≤ acks.length then none
      else readAcks count (acks ++ [pid]) buf

/-- `reliable_ack_parse`: the numbers, the session they are for, and the rest of the packet. -/
def reliableAckParse (buf : List UInt8) :
    Option (List PacketId × List UInt8 × List UInt8) := do
  let (count, buf) ← bufRead 1 buf
  let (acks, buf) ← readAcks (BigEndian.value count) [] buf
  if BigEndian.value count = 0 then return (acks, [], buf)
  else
    let (session_id_remote, buf) ← bufRead 8 buf
    return (acks, session_id_remote, buf)

/-- `reliable_ack_read` -/
def reliableAckRead (buf : List UInt8) (sid : SessionId) :
    Option (List PacketId × List UInt8) := do
  let (acks, session_id_remote, buf) ← reliableAckParse buf
  if 1 ≤ acks.length ∧ (session_id_remote = List.replicate 8 0 ∨ session_id_remote ≠ sid.id) then
    none
  else return (acks, buf)

theorem readPacketId_append (pid : PacketId) (rest : List UInt8) :
    readPacketId (packetIdBytes pid ++ rest) = some (pid, rest) := by
  rw [readPacketId, bufRead_append (length_packetIdBytes pid)]
  change some (UInt32.ofNat (BigEndian.value (packetIdBytes pid)), rest) = _
  rw [ofNat_value_packetIdBytes]

theorem readAcks_append (acks read : List PacketId) (rest : List UInt8)
    (h : read.length + acks.length ≤ RELIABLE_ACK_SIZE) :
    readAcks acks.length read (acks.flatMap packetIdBytes ++ rest) = some (read ++ acks, rest) := by
  induction acks generalizing read with
  | nil => rw [List.append_nil]; rfl
  | cons pid acks ih =>
      rw [List.length_cons] at h
      have hroom : ¬ RELIABLE_ACK_SIZE ≤ read.length := by omega
      rw [List.length_cons, List.flatMap_cons, List.append_assoc, readAcks, readPacketId_append]
      change (if RELIABLE_ACK_SIZE ≤ read.length then none
        else readAcks acks.length (read ++ [pid]) (acks.flatMap packetIdBytes ++ rest)) = _
      rw [if_neg hroom, ih, List.append_assoc, List.singleton_append]
      rw [List.length_append, List.length_singleton]
      omega

theorem reliableAckParse_append {acks : List PacketId} (h : acks.length ≤ RELIABLE_ACK_SIZE)
    (sid : SessionId) (rest : List UInt8) :
    reliableAckParse (ackRecord acks sid ++ rest) =
      some (acks, if acks = [] then [] else sid.id, rest) := by
  have hcount : BigEndian.value [UInt8.ofNat acks.length] = acks.length := by
    have hmod : acks.length % 256 = acks.length :=
      Nat.mod_eq_of_lt (by unfold RELIABLE_ACK_SIZE at h; omega)
    rw [BigEndian.value, BigEndian.value, UInt8.toNat_ofNat', hmod]
    simp
  have hread := readAcks_append acks [] ((if acks = [] then [] else sid.id) ++ rest) (by
    rw [List.length_nil, Nat.zero_add]
    exact h)
  rw [List.nil_append] at hread
  rw [reliableAckParse, ackRecord, ← List.singleton_append, List.append_assoc,
    bufRead_append List.length_singleton]
  simp only [Option.bind_eq_bind, Option.bind_some, hcount, List.append_assoc, hread]
  by_cases hnil : acks = []
  · rw [hnil]
    rfl
  · have hlen : acks.length ≠ 0 := fun h0 => hnil (List.eq_nil_of_length_eq_zero h0)
    rw [if_neg hlen, if_neg hnil, bufRead_append sid.size]
    rfl

/-- The acknowledgements that were written for a session are read in it. -/
theorem reliableAckRead_append {acks : List PacketId} (h : acks.length ≤ RELIABLE_ACK_SIZE)
    (sid : SessionId) (rest : List UInt8) :
    reliableAckRead (ackRecord acks sid ++ rest) sid = some (acks, rest) := by
  have hgood : ¬ (1 ≤ acks.length ∧ ((if acks = [] then [] else sid.id) = List.replicate 8 0 ∨
      (if acks = [] then [] else sid.id) ≠ sid.id)) := by
    rintro ⟨hpos, hbad⟩
    have hne : acks ≠ [] := List.ne_nil_of_length_pos hpos
    rw [if_neg hne] at hbad
    exact hbad.elim sid.defined (fun h => h rfl)
  rw [reliableAckRead, reliableAckParse_append h]
  simp only [Option.bind_eq_bind, Option.bind_some, if_neg hgood]
  rfl

/-- Where the record ends does not depend on the session. -/
theorem ackRecord_append_inj {acks acks' : List PacketId} {sid sid' : SessionId}
    {rest rest' : List UInt8} (h : acks.length ≤ RELIABLE_ACK_SIZE)
    (h' : acks'.length ≤ RELIABLE_ACK_SIZE)
    (heq : ackRecord acks sid ++ rest = ackRecord acks' sid' ++ rest') : rest = rest' := by
  have hparse := congrArg reliableAckParse heq
  rw [reliableAckParse_append h, reliableAckParse_append h', Option.some.injEq, Prod.mk.injEq,
    Prod.mk.injEq] at hparse
  exact hparse.2.2

/-! ### Acknowledgements over a whole run -/

/-- The acknowledgements of one side: what has come in and was not refused, and what the other
    side has read in the records. -/
structure AckTraffic where
  ack : ReliableAck
  ack_mru : ReliableAck
  acknowledged : List PacketId
  read : List PacketId

namespace AckTraffic

def initial : AckTraffic := ⟨.empty, .empty, [], []⟩

inductive Event where
  | acknowledge (pid : PacketId)
  /-- a packet with a record of at most `max` numbers -/
  | write (max : Nat)

def step (sid : SessionId) (s : AckTraffic) : Event → AckTraffic
  | .acknowledge pid =>
      let ack := s.ack.acknowledgePacketId pid
      { s with
        ack := ack
        acknowledged := if ack.packetIdPresent pid then s.acknowledged ++ [pid] else s.acknowledged }
  | .write max =>
      let w := s.ack.write s.ack_mru max
      { s with
        ack := w.2.1
        ack_mru := w.2.2
        read := s.read ++ ((reliableAckRead (ackRecord w.1 sid) sid).map (·.1)).getD [] }

def run (sid : SessionId) (events : List Event) : AckTraffic := events.foldl (step sid) initial

structure Inv (s : AckTraffic) : Prop where
  nodup : s.ack.packet_id.Nodup
  mru : ∀ pid ∈ s.ack_mru.packet_id, pid ∈ s.read
  sent : ∀ pid, pid ∈ s.acknowledged ↔ pid ∈ s.ack.packet_id ∨ pid ∈ s.read

theorem Inv.acknowledge {s : AckTraffic} (h : Inv s) (sid : SessionId) (pid : PacketId) :
    Inv (step sid s (.acknowledge pid)) := by
  refine ⟨ReliableAck.nodup_acknowledgePacketId h.nodup pid, h.mru, fun id => ?_⟩
  have hmem : ∀ {id}, id ∈ (s.ack.acknowledgePacketId pid).packet_id →
      id = pid ∨ id ∈ s.ack.packet_id := ReliableAck.mem_acknowledgePacketId
  have hkept : ∀ {id}, id ∈ s.ack.packet_id → id ∈ (s.ack.acknowledgePacketId pid).packet_id :=
    fun hid => (ReliableAck.prefix_acknowledgePacketId s.ack pid).subset hid
  simp only [step]
  by_cases hpid : pid ∈ (s.ack.acknowledgePacketId pid).packet_id
  · rw [if_pos (by simpa [ReliableAck.packetIdPresent] using hpid), List.mem_append,
      List.mem_singleton, h.sent id]
    constructor
    · rintro ((hid | hid) | rfl)
      · exact .inl (hkept hid)
      · exact .inr hid
      · exact .inl hpid
    · rintro (hid | hid)
      · exact (hmem hid).elim .inr fun hid => .inl (.inl hid)
      · exact .inl (.inr hid)
  · rw [if_neg (by simpa [ReliableAck.packetIdPresent] using hpid), h.sent id]
    constructor
    · exact Or.imp_left hkept
    · rintro (hid | hid)
      · refine .inl ((hmem hid).resolve_left fun heq => hpid ?_)
        exact heq ▸ hid
      · exact .inr hid

/-- What goes out is what the other side reads. -/
theorem read_write (s : AckTraffic) (sid : SessionId) (max : Nat) :
    (step sid s (.write max)).read = s.read ++ (s.ack.write s.ack_mru max).1 := by
  have hrecord := reliableAckRead_append (ReliableAck.length_write_le s.ack s.ack_mru max) sid []
  rw [List.append_nil] at hrecord
  simp only [step, hrecord, Option.map_some, Option.getD_some]

theorem Inv.write {s : AckTraffic} (h : Inv s) (sid : SessionId) (max : Nat) :
    Inv (step sid s (.write max)) := by
  let n := min s.ack.packet_id.length max
  have hnow : ∀ pid ∈ s.ack.packet_id.take n, pid ∈ (s.ack.write s.ack_mru max).1 := by
    have hfront := ReliableAck.prefix_copyAcksToMru h.nodup s.ack_mru n
    have hlen : (s.ack.packet_id.take n).length ≤ max :=
      (List.length_take_le n _).trans (Nat.min_le_right _ _)
    exact fun pid hpid => (List.prefix_take_iff.mpr ⟨hfront, hlen⟩).subset hpid
  have hsplit : ∀ pid, pid ∈ s.ack.packet_id ↔
      pid ∈ s.ack.packet_id.take n ∨ pid ∈ s.ack.packet_id.drop n := by
    intro pid
    rw [← List.mem_append, List.take_append_drop]
  refine ⟨h.nodup.sublist (List.drop_sublist _ _), fun pid hpid => ?_, fun pid => ?_⟩
  · rw [read_write, List.mem_append]
    rcases ReliableAck.mem_copyAcksToMru hpid with hpid | hpid
    · exact .inr (hnow pid hpid)
    · exact .inl (h.mru pid hpid)
  · rw [read_write, List.mem_append]
    change pid ∈ s.acknowledged ↔ pid ∈ s.ack.packet_id.drop n ∨ _
    rw [h.sent pid, hsplit pid]
    constructor
    · rintro ((hpid | hpid) | hpid)
      · exact .inr (.inr (hnow pid hpid))
      · exact .inl hpid
      · exact .inr (.inl hpid)
    · rintro (hpid | hpid | hpid)
      · exact .inl (.inr hpid)
      · exact .inr hpid
      · rcases ReliableAck.mem_write hpid with hpid | hpid
        · exact .inl ((hsplit pid).mp hpid)
        · exact .inr (h.mru pid hpid)

theorem inv_run (sid : SessionId) (events : List Event) : Inv (run sid events) := by
  induction events using List.reverseRecOn with
  | nil => exact ⟨List.nodup_nil, fun _ h => h, fun _ => by simp [run, initial, ReliableAck.empty]⟩
  | append_singleton events event ih =>
      rw [run, List.foldl_append]
      cases event with
      | acknowledge pid => exact ih.acknowledge sid pid
      | write max => exact ih.write sid max

/-- **No acknowledgement is lost and none is made up.**  In whatever order packets come in and
    records go out, a number was acknowledged exactly if it waits or the other side has read
    it, and none waits twice. -/
theorem acknowledged_iff (sid : SessionId) (events : List Event) :
    (run sid events).ack.packet_id.Nodup ∧ ∀ pid, pid ∈ (run sid events).acknowledged ↔
      pid ∈ (run sid events).ack.packet_id ∨ pid ∈ (run sid events).read :=
  ⟨(inv_run sid events).nodup, (inv_run sid events).sent⟩

end AckTraffic

/-! ### The packets -/

/-- `struct reliable_entry` -/
structure ReliableEntry where
  active : Bool
  timeout : Int
  next_try : Int
  packet_id : PacketId
  n_acks : Nat
  opcode : Nat
  buf : List UInt8
deriving Inhabited

/-- `struct reliable`; the size is that of the array. -/
structure Reliable where
  initial_timeout : Int
  packet_id : PacketId
  hold : Bool
  array : List ReliableEntry

namespace Reliable

/-- `reliable_init` on memory full of zeros. -/
def init (array_size : Nat) (hold : Bool) (timeout : Int) : Reliable where
  initial_timeout := timeout
  packet_id := 0
  hold := hold
  array := List.replicate array_size ⟨false, 0, 0, 0, 0, 0, []⟩

variable (rel : Reliable)

/-- `rel->size` in an unsigned comparison. -/
def size : UInt32 := .ofNat rel.array.length

def empty : Bool := rel.array.all fun e => !e.active

def canGet : Bool := rel.array.any fun e => !e.active

def notReplay (id : PacketId) : Bool :=
  !reliablePidMin id rel.packet_id && !rel.array.any fun e => e.active && e.packet_id == id

def wontBreakSequentiality (id : PacketId) : Bool :=
  reliablePidInRange2 id rel.packet_id rel.size

/-- `reliable_get_buf`: the index of a free buffer. -/
def getBuf : Option Nat := rel.array.findIdx? fun e => !e.active

/-- One round of the loop for the minimum active `packet_id`. -/
def minIdStep (min_id : Option PacketId) (e : ReliableEntry) : Option PacketId :=
  if e.active then
    match min_id with
    | none => some e.packet_id
    | some id => if reliablePidMin e.packet_id id then some e.packet_id else some id
  else min_id

def minId (entries : List ReliableEntry) : Option PacketId := entries.foldl minIdStep none

def getNumOutputSequencedAvailable : Int :=
  match minId rel.array with
  | none => rel.array.length
  | some min_id => rel.array.length - (subtractPid rel.packet_id min_id).toNat

def getBufOutputSequenced : Option Nat :=
  match minId rel.array with
  | none => rel.getBuf
  | some min_id =>
      if reliablePidInRange1 rel.packet_id min_id rel.size then rel.getBuf else none

/-- `reliable_get_entry_sequenced`: the index of the entry. -/
def getEntrySequenced : Option Nat :=
  rel.array.findIdx? fun e => e.active && e.packet_id == rel.packet_id

/-- An entry that is sent now. -/
def due (now : Int) (e : ReliableEntry) : Bool :=
  e.active && (decide (N_ACK_RETRANSMIT ≤ e.n_acks) || decide (e.next_try ≤ now))

def canSend (now : Int) : Bool := rel.array.any (due now) && !rel.hold

/-- One round of the loop of `reliable_send`. -/
def bestStep (now : Int) (best : Option Nat) (i : Nat) : Option Nat :=
  if due now rel.array[i]! then
    match best with
    | none => some i
    | some b =>
        if reliablePidMin rel.array[i]!.packet_id rel.array[b]!.packet_id then some i else some b
  else best

/-- The index of `best`. -/
def best (now : Int) : Option Nat := (List.range rel.array.length).foldl (rel.bestStep now) none

/-- `reliable_send`: the entry that is sent, with its new state. -/
def send (now : Int) : Option (ReliableEntry × Reliable) := do
  let i ← rel.best now
  let e := rel.array[i]!
  return (e, { rel with
    array := rel.array.set i { e with
      next_try := now + e.timeout
      timeout := e.timeout * 2
      n_acks := 0 } })

def scheduleNow (now : Int) : Reliable :=
  { rel with
    hold := false
    array := rel.array.map fun e =>
      if e.active then { e with next_try := now, timeout := rel.initial_timeout } else e }

/-- One acknowledgement, for one entry. -/
def purgeEntry (pid : PacketId) (e : ReliableEntry) : ReliableEntry :=
  if e.active && e.packet_id == pid then { e with active := false }
  else if e.active && decide (e.packet_id < pid) then { e with n_acks := e.n_acks + 1 }
  else e

def sendPurge (ack : List PacketId) : Reliable :=
  { rel with array := ack.foldl (fun array pid => array.map (purgeEntry pid)) rel.array }

/-- `reliable_mark_active_incoming`, with the `ASSERT` against a replay. -/
def markActiveIncoming (i : Nat) (pid : PacketId) (opcode : Nat) (buf : List UInt8) :
    Option Reliable :=
  if reliablePidMin pid rel.packet_id then none
  else some { rel with array := rel.array.set i ⟨true, 0, 0, pid, 0, opcode, buf⟩ }

/-- `reliable_mark_active_outgoing`, for a buffer that was filled with `buf`. -/
def markActiveOutgoing (i : Nat) (opcode : Nat) (buf : List UInt8) : Reliable :=
  { rel with
    packet_id := rel.packet_id + 1
    array := rel.array.set i { rel.array[i]! with
      active := true
      timeout := rel.initial_timeout
      next_try := 0
      packet_id := rel.packet_id
      opcode := opcode
      buf := packetIdBytes rel.packet_id ++ buf } }

def markDeleted (i : Nat) : Reliable :=
  { rel with
    packet_id := rel.array[i]!.packet_id + 1
    array := rel.array.set i { rel.array[i]! with active := false } }

/-! ### What the operations do -/

variable {rel}

theorem canGet_iff : rel.canGet = true ↔ ∃ e ∈ rel.array, e.active = false := by
  simp [canGet]

/-- The buffer that is handed out is free. -/
theorem getBuf_spec {i : Nat} (h : rel.getBuf = some i) :
    ∃ e, rel.array[i]? = some e ∧ e.active = false := by
  obtain ⟨hi, hfree, -⟩ := List.findIdx?_eq_some_iff_getElem.mp h
  exact ⟨rel.array[i], List.getElem?_eq_getElem hi, by simpa using hfree⟩

theorem getBuf_isSome (h : rel.canGet = true) : ∃ i, rel.getBuf = some i := by
  obtain ⟨e, he, hfree⟩ := canGet_iff.mp h
  have hsome : rel.getBuf.isSome = true := by
    rw [getBuf, List.findIdx?_isSome, List.any_eq_true]
    exact ⟨e, he, by rw [hfree]; rfl⟩
  exact Option.isSome_iff_exists.mp hsome

theorem getEntrySequenced_spec {i : Nat} (h : rel.getEntrySequenced = some i) :
    ∃ e, rel.array[i]? = some e ∧ e.active = true ∧ e.packet_id = rel.packet_id := by
  obtain ⟨hi, he, -⟩ := List.findIdx?_eq_some_iff_getElem.mp h
  rw [Bool.and_eq_true, beq_iff_eq] at he
  exact ⟨rel.array[i], List.getElem?_eq_getElem hi, he⟩

theorem getEntrySequenced_isSome {e : ReliableEntry} (he : e ∈ rel.array) (hactive : e.active = true)
    (hid : e.packet_id = rel.packet_id) : ∃ i, rel.getEntrySequenced = some i := by
  have hsome : rel.getEntrySequenced.isSome = true := by
    rw [getEntrySequenced, List.findIdx?_isSome, List.any_eq_true]
    exact ⟨e, he, by rw [hactive, hid, beq_self_eq_true]; rfl⟩
  exact Option.isSome_iff_exists.mp hsome

theorem notReplay_iff {id : PacketId} : rel.notReplay id = true ↔
    reliablePidMin id rel.packet_id = false ∧
      ∀ e ∈ rel.array, e.active = true → e.packet_id ≠ id := by
  simp only [notReplay, Bool.and_eq_true, Bool.not_eq_true', List.any_eq_false, beq_iff_eq, not_and]

/-- An entry of an array in which one was replaced. -/
theorem mem_set {array : List ReliableEntry} {i : Nat} {new e : ReliableEntry}
    (h : e ∈ array.set i new) : e = new ∨ ∃ j, j ≠ i ∧ array[j]? = some e := by
  obtain ⟨j, hj, rfl⟩ := List.getElem_of_mem h
  rw [List.getElem_set]
  by_cases hij : i = j
  · rw [if_pos hij]
    exact .inl rfl
  · rw [if_neg hij]
    rw [List.length_set] at hj
    exact .inr ⟨j, Ne.symm hij, List.getElem?_eq_getElem hj⟩

theorem mem_set_of_ne {array : List ReliableEntry} {i j : Nat} {e : ReliableEntry}
    (h : array[j]? = some e) (hij : j ≠ i) (new : ReliableEntry) : e ∈ array.set i new := by
  have hset : (array.set i new)[j]? = some e := by rw [List.getElem?_set_ne (Ne.symm hij), h]
  exact List.mem_of_getElem? hset

theorem mem_set_self {array : List ReliableEntry} {i : Nat} {e : ReliableEntry}
    (h : array[i]? = some e) (new : ReliableEntry) : new ∈ array.set i new := by
  obtain ⟨hi, -⟩ := List.getElem?_eq_some_iff.mp h
  exact List.mem_set hi new

theorem getElem!_of_getElem? {array : List ReliableEntry} {i : Nat} {e : ReliableEntry}
    (h : array[i]? = some e) : array[i]! = e := by
  rw [List.getElem!_eq_getElem?_getD, h]
  rfl

/-! ### The minimum -/

/-- The entries that are active carry the numbers of counters from `base` on. -/
def Numbered (base : Nat) (entries : List ReliableEntry) : Prop :=
  ∀ e ∈ entries, e.active = true → ∃ k, base ≤ k ∧ k < base + 2 ^ 31 ∧ e.packet_id = .ofNat k

theorem Numbered.of_sublist {base : Nat} {entries entries' : List ReliableEntry}
    (h : Numbered base entries) (hsub : entries' ⊆ entries) : Numbered base entries' :=
  fun e he => h e (hsub he)

/-- The loop finds the smallest counter among the active entries. -/
theorem minId_spec {base : Nat} {entries : List ReliableEntry} (h : Numbered base entries) :
    (minId entries = none ∧ ∀ e ∈ entries, e.active = false) ∨
      ∃ m, minId entries = some (.ofNat m) ∧ base ≤ m ∧ m < base + 2 ^ 31 ∧
        (∃ e ∈ entries, e.active = true ∧ e.packet_id = .ofNat m) ∧
        ∀ e ∈ entries, e.active = true →
          ∃ k, m ≤ k ∧ k < base + 2 ^ 31 ∧ e.packet_id = .ofNat k := by
  induction entries using List.reverseRecOn with
  | nil => exact .inl ⟨rfl, fun e he => absurd he List.not_mem_nil⟩
  | append_singleton entries last ih =>
      have hlast := h last (List.mem_append_right _ (List.mem_singleton_self last))
      have hstep : minId (entries ++ [last]) = minIdStep (minId entries) last := by
        rw [minId, List.foldl_append, List.foldl_cons, List.foldl_nil]
        rfl
      have hbefore : Numbered base entries := h.of_sublist (List.subset_append_left _ _)
      rw [hstep, minIdStep.eq_def]
      by_cases hactive : last.active = true
      · obtain ⟨k, hbase, hlt, hid⟩ := hlast hactive
        rw [if_pos hactive]
        rcases ih hbefore with ⟨hnone, hall⟩ | ⟨m, hsome, hm, hmlt, hmin, hall⟩
        · refine .inr ⟨k, ?_, hbase, hlt, ⟨last, by simp, hactive, hid⟩, ?_⟩
          · rw [hnone, hid]
          · intro e he heactive
            rcases List.mem_append.mp he with he | he
            · rw [hall e he] at heactive
              cases heactive
            · rw [List.mem_singleton.mp he]
              exact ⟨k, Nat.le_refl k, hlt, hid⟩
        · have hcompare := @reliablePidMin_iff k m (by omega) (by omega)
          rw [hsome]
          dsimp only
          rw [hid]
          by_cases hkm : k < m
          · rw [if_pos (hcompare.mpr hkm)]
            refine .inr ⟨k, rfl, hbase, hlt, ⟨last, by simp, hactive, hid⟩, ?_⟩
            intro e he heactive
            rcases List.mem_append.mp he with he | he
            · obtain ⟨k', hk', hlt', hid'⟩ := hall e he heactive
              exact ⟨k', by omega, hlt', hid'⟩
            · rw [List.mem_singleton.mp he]
              exact ⟨k, Nat.le_refl k, hlt, hid⟩
          · rw [if_neg (fun hp => hkm (hcompare.mp hp))]
            obtain ⟨e₀, he₀, hactive₀, hid₀⟩ := hmin
            refine .inr ⟨m, rfl, hm, hmlt, ⟨e₀, List.mem_append_left _ he₀, hactive₀, hid₀⟩, ?_⟩
            intro e he heactive
            rcases List.mem_append.mp he with he | he
            · exact hall e he heactive
            · rw [List.mem_singleton.mp he]
              exact ⟨k, by omega, hlt, hid⟩
      · rw [if_neg hactive]
        rcases ih hbefore with ⟨hnone, hall⟩ | ⟨m, hsome, hm, hmlt, hmin, hall⟩
        · refine .inl ⟨hnone, fun e he => ?_⟩
          rcases List.mem_append.mp he with he | he
          · exact hall e he
          · rw [List.mem_singleton.mp he]
            simpa using hactive
        · obtain ⟨e₀, he₀, hactive₀, hid₀⟩ := hmin
          refine .inr ⟨m, hsome, hm, hmlt, ⟨e₀, List.mem_append_left _ he₀, hactive₀, hid₀⟩, ?_⟩
          intro e he heactive
          rcases List.mem_append.mp he with he | he
          · exact hall e he heactive
          · rw [List.mem_singleton.mp he] at heactive
            exact absurd heactive hactive

/-! ### Sending and purging -/

/-- `best` is an entry that is due, and there is one when any is. -/
theorem best_spec (now : Int) :
    (rel.best now = none ∧ ∀ e ∈ rel.array, due now e = false) ∨
      ∃ i e, rel.best now = some i ∧ rel.array[i]? = some e ∧ due now e = true := by
  have hloop : ∀ indices : List Nat,
      (indices.foldl (rel.bestStep now) none = none ∧ ∀ i ∈ indices, due now rel.array[i]! = false) ∨
        ∃ i ∈ indices, indices.foldl (rel.bestStep now) none = some i ∧
          due now rel.array[i]! = true := by
    intro indices
    induction indices using List.reverseRecOn with
    | nil => exact .inl ⟨rfl, fun i hi => absurd hi List.not_mem_nil⟩
    | append_singleton indices i ih =>
        rw [List.foldl_append, List.foldl_cons, List.foldl_nil, bestStep.eq_def]
        by_cases hdue : due now rel.array[i]! = true
        · rw [if_pos hdue]
          rcases ih with ⟨hnone, -⟩ | ⟨b, hb, hsome, hbdue⟩
          · rw [hnone]
            exact .inr ⟨i, by simp, rfl, hdue⟩
          · rw [hsome]
            dsimp only
            split
            · exact .inr ⟨i, by simp, rfl, hdue⟩
            · exact .inr ⟨b, List.mem_append_left _ hb, rfl, hbdue⟩
        · rw [if_neg hdue]
          rcases ih with ⟨hnone, hall⟩ | ⟨b, hb, hsome, hbdue⟩
          · refine .inl ⟨hnone, fun j hj => ?_⟩
            rcases List.mem_append.mp hj with hj | hj
            · exact hall j hj
            · rw [List.mem_singleton.mp hj]
              simpa using hdue
          · exact .inr ⟨b, List.mem_append_left _ hb, hsome, hbdue⟩
  rcases hloop (List.range rel.array.length) with ⟨hnone, hall⟩ | ⟨i, hi, hsome, hdue⟩
  · refine .inl ⟨hnone, fun e he => ?_⟩
    obtain ⟨i, hi, rfl⟩ := List.getElem_of_mem he
    rw [← getElem!_of_getElem? (List.getElem?_eq_getElem hi)]
    exact hall i (List.mem_range.mpr hi)
  · have helem := List.getElem?_eq_getElem (List.mem_range.mp hi)
    rw [getElem!_of_getElem? helem] at hdue
    exact .inr ⟨i, _, hsome, helem, hdue⟩

theorem send_spec {now : Int} {e : ReliableEntry} {rel' : Reliable}
    (h : rel.send now = some (e, rel')) :
    ∃ i, rel.array[i]? = some e ∧ due now e = true ∧ rel' = { rel with
      array := rel.array.set i { e with
        next_try := now + e.timeout
        timeout := e.timeout * 2
        n_acks := 0 } } := by
  rcases rel.best_spec now with ⟨hnone, -⟩ | ⟨i, e', hsome, helem, hdue⟩
  · rw [send, hnone] at h
    cases h
  · rw [send, hsome] at h
    simp only [Option.bind_eq_bind, Option.bind_some, getElem!_of_getElem? helem] at h
    cases h
    exact ⟨i, helem, hdue, rfl⟩

/-- `reliable_can_send` promises that there is something to send. -/
theorem send_isSome {now : Int} (h : rel.canSend now = true) : (rel.send now).isSome = true := by
  rw [canSend, Bool.and_eq_true, List.any_eq_true] at h
  obtain ⟨⟨e, he, hdue⟩, -⟩ := h
  rcases rel.best_spec now with ⟨-, hall⟩ | ⟨i, e', hsome, -, -⟩
  · rw [hall e he] at hdue
    cases hdue
  · rw [send, hsome]
    rfl

/-- What a list of acknowledgements does to an entry: it only becomes inactive, and only if its
    number is among them. -/
theorem sendPurge_spec (rel : Reliable) (ack : List PacketId) :
    ∃ purge : ReliableEntry → ReliableEntry,
      rel.sendPurge ack = { rel with array := rel.array.map purge } ∧
      ∀ e, (purge e).packet_id = e.packet_id ∧ (purge e).opcode = e.opcode ∧
        (purge e).buf = e.buf ∧ (purge e).timeout = e.timeout ∧
        ((purge e).active = true → e.active = true) ∧
        (e.active = true → (purge e).active = false → e.packet_id ∈ ack) := by
  rw [sendPurge]
  induction ack using List.reverseRecOn with
  | nil => exact ⟨id, by simp, fun e => ⟨rfl, rfl, rfl, rfl, id, fun h h' => by simp [h] at h'⟩⟩
  | append_singleton ack pid ih =>
      obtain ⟨purge, harray, hpurge⟩ := ih
      refine ⟨fun e => purgeEntry pid (purge e), ?_, fun e => ?_⟩
      · have hbefore : ack.foldl (fun array pid => array.map (purgeEntry pid)) rel.array =
            rel.array.map purge := congrArg Reliable.array harray
        rw [List.foldl_append, hbefore, List.foldl_cons, List.foldl_nil, List.map_map]
        rfl
      · obtain ⟨hid, hopcode, hbuf, htimeout, hactive, hgone⟩ := hpurge e
        have hone : ∀ e' : ReliableEntry, (purgeEntry pid e').packet_id = e'.packet_id ∧
            (purgeEntry pid e').opcode = e'.opcode ∧ (purgeEntry pid e').buf = e'.buf ∧
            (purgeEntry pid e').timeout = e'.timeout ∧
            ((purgeEntry pid e').active = true → e'.active = true) ∧
            (e'.active = true → (purgeEntry pid e').active = false → e'.packet_id = pid) := by
          intro e'
          unfold purgeEntry
          split
          · next h =>
              rw [Bool.and_eq_true, beq_iff_eq] at h
              exact ⟨rfl, rfl, rfl, rfl, fun hf => absurd hf Bool.false_ne_true, fun _ _ => h.2⟩
          · split
            · exact ⟨rfl, rfl, rfl, rfl, id,
                fun h h' => absurd (h.symm.trans h') Bool.noConfusion⟩
            · exact ⟨rfl, rfl, rfl, rfl, id,
                fun h h' => absurd (h.symm.trans h') Bool.noConfusion⟩
        obtain ⟨hid', hopcode', hbuf', htimeout', hactive', hgone'⟩ := hone (purge e)
        refine ⟨hid'.trans hid, hopcode'.trans hopcode, hbuf'.trans hbuf, htimeout'.trans htimeout,
          fun h => hactive (hactive' h), fun h h' => ?_⟩
        by_cases hp : (purge e).active = true
        · rw [← hid, hgone' hp h']
          simp
        · exact List.mem_append_left _ (hgone h (by simpa using hp))

/-! ### Timers -/

/-- Every wait is at least a second. -/
structure Timed (rel : Reliable) : Prop where
  initial : 0 < rel.initial_timeout
  active : ∀ e ∈ rel.array, e.active = true → 0 < e.timeout

theorem Timed.scheduleNow (h : Timed rel) (now : Int) : Timed (rel.scheduleNow now) := by
  refine ⟨h.initial, fun e he hactive => ?_⟩
  obtain ⟨e', he', rfl⟩ := List.mem_map.mp he
  by_cases hactive' : e'.active = true
  · rw [if_pos hactive']
    exact h.initial
  · rw [if_neg hactive'] at hactive
    exact absurd hactive hactive'

theorem Timed.send (h : Timed rel) {now : Int} {e : ReliableEntry} {rel' : Reliable}
    (hsend : rel.send now = some (e, rel')) : Timed rel' := by
  obtain ⟨i, hi, hdue, rfl⟩ := send_spec hsend
  refine ⟨h.initial, fun e' he' hactive => ?_⟩
  rcases mem_set he' with rfl | ⟨j, -, hj⟩
  · have hpos := h.active e (List.mem_of_getElem? hi) hactive
    dsimp only
    omega
  · exact h.active e' (List.mem_of_getElem? hj) hactive

theorem Timed.sendPurge (h : Timed rel) (ack : List PacketId) : Timed (rel.sendPurge ack) := by
  obtain ⟨purge, hpurged, hpurge⟩ := sendPurge_spec rel ack
  rw [hpurged]
  refine ⟨h.initial, fun e' he' hactive => ?_⟩
  obtain ⟨e, he, rfl⟩ := List.mem_map.mp he'
  obtain ⟨-, -, -, htimeout, hactive', -⟩ := hpurge e
  rw [htimeout]
  exact h.active e he (hactive' hactive)

theorem Timed.markActiveOutgoing (h : Timed rel) (i opcode : Nat) (buf : List UInt8) :
    Timed (rel.markActiveOutgoing i opcode buf) := by
  refine ⟨h.initial, fun e he hactive => ?_⟩
  rcases mem_set he with rfl | ⟨j, -, hj⟩
  · exact h.initial
  · exact h.active e (List.mem_of_getElem? hj) hactive

/-- What was sent is not due again at the same time. -/
theorem countP_due_send {now : Int} {e : ReliableEntry} {rel' : Reliable} (htimeout : 0 < e.timeout)
    (h : rel.send now = some (e, rel')) :
    rel'.array.countP (due now) < rel.array.countP (due now) := by
  obtain ⟨i, hi, hdue, rfl⟩ := send_spec h
  obtain ⟨hlt, helem⟩ := List.getElem?_eq_some_iff.mp hi
  have hpos : 0 < rel.array.countP (due now) :=
    List.countP_pos_iff.mpr ⟨e, List.mem_of_getElem? hi, hdue⟩
  have hwait : due now { e with
      next_try := now + e.timeout
      timeout := e.timeout * 2
      n_acks := 0 } = false := by
    have hlater : ¬ now + e.timeout ≤ now := by omega
    rw [due, decide_eq_false hlater, Bool.or_false]
    exact Bool.and_false _
  rw [List.countP_set hlt, helem, if_pos hdue, hwait]
  simp only [Bool.false_eq_true, if_false]
  omega

end Reliable

end OpenVpnAndroid
