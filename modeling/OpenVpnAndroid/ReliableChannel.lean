/-
  OpenVpnAndroid/ReliableChannel.lean
  ===================================
  **One direction of the control channel.**

  A sender keeps what it handed out until it is acknowledged, a receiver keeps what
  came too early, and the network may lose, repeat and reorder the packets of both:
  every packet that was ever sent can still arrive.  `Inv` is what all steps keep
  while fewer than 2 ^ 31 messages are sent.  From it the messages arrive once and in
  order (`Inv.in_order`), none is given up before it arrived (`Inv.kept`), and the one that is
  missing can always be sent again and taken (`Inv.missing_held`, `Inv.receive_missing`).
-/
import OpenVpnAndroid.Reliable

namespace OpenVpnAndroid

def P_ACK_V1 : Nat := 5

/-- What the layers above hand over: an opcode and the bytes. -/
structure ControlMessage where
  opcode : Nat
  buf : List UInt8
deriving DecidableEq, Inhabited

/-- A packet behind its authentication: the bytes start with the acknowledgements. -/
structure ControlPacket where
  opcode : Nat
  bytes : List UInt8
deriving DecidableEq

structure ReliableChannel where
  sender : Reliable
  receiver : Reliable
  rec_ack : ReliableAck
  lru_acks : ReliableAck
  /-- The packets of the sender. -/
  forward : List ControlPacket
  /-- The packets of the receiver. -/
  backward : List ControlPacket
  sent : List ControlMessage
  delivered : List ControlMessage

namespace ReliableChannel

variable (c : ReliableChannel)

/-! ### Steps -/

/-- A message in the buffer `i`. -/
def handOut (i : Nat) (m : ControlMessage) : ReliableChannel :=
  { c with
    sender := c.sender.markActiveOutgoing i m.opcode m.buf
    sent := c.sent ++ [m] }

/-- The sender takes a message when it has a buffer for it. -/
def output (m : ControlMessage) : ReliableChannel :=
  match c.sender.getBufOutputSequenced with
  | none => c
  | some i => c.handOut i m

/-- The acknowledgements of a packet that arrived. -/
def purge (acks : List PacketId) : ReliableChannel :=
  { c with sender := c.sender.sendPurge acks }

/-- A packet of the sender goes out. -/
def emit (packet : ControlPacket) : ReliableChannel :=
  { c with forward := c.forward ++ [packet] }

/-- A packet of the receiver goes out, with what `reliable_ack_write` left. -/
def emitAcks (rec_ack lru_acks : ReliableAck) (packet : ControlPacket) : ReliableChannel :=
  { c with
    rec_ack := rec_ack
    lru_acks := lru_acks
    backward := c.backward ++ [packet] }

/-- `reliable_ack_acknowledge_packet_id` on `rec_ack`. -/
def acknowledge (id : PacketId) : ReliableChannel :=
  { c with rec_ack := c.rec_ack.acknowledgePacketId id }

/-- A message goes into the free buffer `i`, unless the assertion fails. -/
def store (i : Nat) (id : PacketId) (opcode : Nat) (buf : List UInt8) : Option ReliableChannel :=
  (c.receiver.markActiveIncoming i id opcode buf).map fun receiver => { c with receiver := receiver }

/-- A packet with a message arrives: the part of `tls_pre_decrypt` behind the acknowledgements.
    A buffer can hold `capacity` bytes. -/
def receiveMessage (capacity : Nat) (opcode : Nat) (buf : List UInt8) : ReliableChannel :=
  if opcode ≠ P_ACK_V1 ∧ c.receiver.canGet then
    match readPacketId buf with
    | none => c
    | some (id, buf) =>
        if c.receiver.wontBreakSequentiality id then
          if c.receiver.notReplay id then
            match c.receiver.getBuf with
            | none => c
            | some i =>
                if buf.length ≤ capacity then
                  ((c.store i id opcode buf).map (acknowledge · id)).getD c
                else c
          else c.acknowledge id
        else c
  else c

/-- The message in the buffer `i` goes to the TLS object. -/
def handOver (i : Nat) : ReliableChannel :=
  { c with
    receiver := c.receiver.markDeleted i
    delivered := c.delivered ++ [⟨c.receiver.array[i]!.opcode, c.receiver.array[i]!.buf⟩] }

/-- The next message of the sequence is taken, if it is there. -/
def deliver : ReliableChannel :=
  match c.receiver.getEntrySequenced with
  | none => c
  | some i => c.handOver i

/-! ### What a step changes -/

theorem output_eq (m : ControlMessage) : c.output m = c ∨ ∃ i, c.output m = c.handOut i m := by
  unfold output
  split
  · exact .inl rfl
  · exact .inr ⟨_, rfl⟩

theorem deliver_eq : c.deliver = c ∨
    ∃ i, c.receiver.getEntrySequenced = some i ∧ c.deliver = c.handOver i := by
  unfold deliver
  split
  · exact .inl rfl
  · next i hi => exact .inr ⟨i, hi, rfl⟩

/-- What arrives changes the receiver and what it has to acknowledge. -/
theorem receiveMessage_eq (capacity opcode : Nat) (buf : List UInt8) :
    ∃ receiver rec_ack, c.receiveMessage capacity opcode buf =
      { c with receiver := receiver, rec_ack := rec_ack } ∧
      receiver.array.length = c.receiver.array.length := by
  have hsame : ∃ receiver rec_ack, c = { c with receiver := receiver, rec_ack := rec_ack } ∧
      receiver.array.length = c.receiver.array.length := ⟨c.receiver, c.rec_ack, rfl, rfl⟩
  unfold receiveMessage
  split
  · split
    · exact hsame
    · next id buf _ =>
        split
        · split
          · split
            · exact hsame
            · next i _ =>
                split
                · rw [store, Reliable.markActiveIncoming]
                  split
                  · exact hsame
                  · exact ⟨_, _, rfl, List.length_set⟩
                · exact hsame
          · exact ⟨c.receiver, _, rfl, rfl⟩
        · exact hsame
  · exact hsame

/-- What happens to one direction, when the layers above ask for something or not. -/
inductive Step : Bool → ReliableChannel → Prop
  | same (asked : Bool) : Step asked c
  | handOut (i : Nat) (m : ControlMessage) : Step true (c.handOut i m)
  | scheduleNow (now : Int) : Step true { c with sender := c.sender.scheduleNow now }
  | transmit (now : Int) (e : ReliableEntry) (sender : Reliable) (packet : ControlPacket)
      (h : c.sender.send now = some (e, sender)) :
      Step false (({ c with sender := sender } : ReliableChannel).emit packet)
  | emit (packet : ControlPacket) : Step false (c.emit packet)
  | emitAcks (rec_ack lru_acks : ReliableAck) (packet : ControlPacket) :
      Step false (c.emitAcks rec_ack lru_acks packet)
  | purge (acks : List PacketId) : Step false (c.purge acks)
  | receiveMessage (capacity opcode : Nat) (buf : List UInt8) :
      Step false (c.receiveMessage capacity opcode buf)
  | handOver (i : Nat) : Step false (c.handOver i)

variable {c} in
theorem Step.sent {asked : Bool} {c' : ReliableChannel} (h : c.Step asked c') : c.sent <+: c'.sent := by
  cases h with
  | handOut i m => exact List.prefix_append _ _
  | receiveMessage capacity opcode buf =>
      obtain ⟨receiver, rec_ack, hmessage, -⟩ := c.receiveMessage_eq capacity opcode buf
      rw [hmessage]
  | _ => exact List.prefix_refl _

variable {c} in
/-- Without the layers above nothing new is sent, and what is held back stays so. -/
theorem Step.quiet {c' : ReliableChannel} (h : c.Step false c') :
    c'.sent = c.sent ∧ c'.sender.hold = c.sender.hold := by
  cases h with
  | transmit now e sender packet hsend =>
      obtain ⟨i, -, -, rfl⟩ := Reliable.send_spec hsend
      exact ⟨rfl, rfl⟩
  | receiveMessage capacity opcode buf =>
      obtain ⟨receiver, rec_ack, hmessage, -⟩ := c.receiveMessage_eq capacity opcode buf
      rw [hmessage]
      exact ⟨rfl, rfl⟩
  | _ => exact ⟨rfl, rfl⟩

variable {c} in
theorem Step.timed {asked : Bool} {c' : ReliableChannel} (h : c.Step asked c') (htimed : c.sender.Timed) :
    c'.sender.Timed := by
  cases h with
  | handOut i m => exact htimed.markActiveOutgoing i _ _
  | scheduleNow now => exact htimed.scheduleNow now
  | transmit now e sender packet hsend => exact htimed.send hsend
  | purge acks => exact htimed.sendPurge acks
  | receiveMessage capacity opcode buf =>
      obtain ⟨receiver, rec_ack, hmessage, -⟩ := c.receiveMessage_eq capacity opcode buf
      rw [hmessage]
      exact htimed
  | _ => exact htimed

variable {c} in
theorem Step.receiver_size {asked : Bool} {c' : ReliableChannel} (h : c.Step asked c') :
    c'.receiver.array.length = c.receiver.array.length := by
  cases h with
  | receiveMessage capacity opcode buf =>
      obtain ⟨receiver, rec_ack, hmessage, hsize⟩ := c.receiveMessage_eq capacity opcode buf
      rw [hmessage]
      exact hsize
  | handOver i => exact List.length_set
  | _ => rfl

/-! ### The invariant -/

/-- The receiver has the message with this number, or had it. -/
def Received (pid : PacketId) : Prop :=
  ∃ k, k < c.sent.length ∧ pid = .ofNat k ∧ (k < c.delivered.length ∨
    ∃ e ∈ c.receiver.array, e.active = true ∧ e.packet_id = .ofNat k)

/-- An entry of the sender holds the message with the number `k`. -/
def Holds (k : Nat) (e : ReliableEntry) : Prop :=
  e.active = true ∧ e.packet_id = .ofNat k ∧ ∃ m, c.sent[k]? = some m ∧ e.opcode = m.opcode ∧
    e.buf = packetIdBytes (.ofNat k) ++ m.buf

/-- The packet carries the message with the number `k`. -/
def Carries (k : Nat) (p : ControlPacket) : Prop :=
  ∃ acks sid m, acks.length ≤ RELIABLE_ACK_SIZE ∧ c.sent[k]? = some m ∧ p.opcode = m.opcode ∧
    p.bytes = ackRecord acks sid ++ (packetIdBytes (.ofNat k) ++ m.buf)

/-- The packet acknowledges what was received. -/
def Acknowledges (sid : SessionId) (p : ControlPacket) : Prop :=
  ∃ acks rest, acks.length ≤ RELIABLE_ACK_SIZE ∧ p.bytes = ackRecord acks sid ++ rest ∧
    ∀ pid ∈ acks, c.Received pid

/-- No two entries that are active have the same number. -/
def Distinct (array : List ReliableEntry) : Prop :=
  array.Pairwise fun e e' => e.active = true → e'.active = true → e.packet_id ≠ e'.packet_id

structure Inv (sid : SessionId) : Prop where
  sender_size : c.sender.array.length < 2 ^ 31
  receiver_size : c.receiver.array.length < 2 ^ 31
  counter : c.sender.packet_id = .ofNat c.sent.length
  held : ∀ e ∈ c.sender.array, e.active = true →
    ∃ k, c.Holds k e ∧ c.sent.length ≤ k + c.sender.array.length
  sender_distinct : Distinct c.sender.array
  kept : ∀ k < c.sent.length, (∃ e ∈ c.sender.array, c.Holds k e) ∨ c.Received (.ofNat k)
  forward : ∀ p ∈ c.forward, p.opcode ≠ P_ACK_V1 → ∃ k, c.Carries k p
  expects : c.receiver.packet_id = .ofNat c.delivered.length
  in_order : c.delivered <+: c.sent
  window : ∀ e ∈ c.receiver.array, e.active = true →
    ∃ k, c.delivered.length ≤ k ∧ k < c.delivered.length + c.receiver.array.length ∧
      e.packet_id = .ofNat k ∧ c.sent[k]? = some ⟨e.opcode, e.buf⟩
  distinct : Distinct c.receiver.array
  rec_ack : ∀ pid ∈ c.rec_ack.packet_id, c.Received pid
  lru_acks : ∀ pid ∈ c.lru_acks.packet_id, c.Received pid
  backward : ∀ p ∈ c.backward, c.Acknowledges sid p

variable {c} {sid : SessionId}

/-- The messages that were handed over stay, and what was received stays received. -/
structure Extends (c c' : ReliableChannel) : Prop where
  sent : c.sent <+: c'.sent
  received : ∀ pid, c.Received pid → c'.Received pid

theorem Extends.getElem? {c c' : ReliableChannel} (h : c.Extends c') {k : Nat} {m : ControlMessage}
    (hk : c.sent[k]? = some m) : c'.sent[k]? = some m := by
  obtain ⟨more, hmore⟩ := h.sent
  rw [← hmore, List.getElem?_append_left (List.getElem?_eq_some_iff.mp hk).1, hk]

theorem Extends.holds {c c' : ReliableChannel} (h : c.Extends c') {k : Nat} {e : ReliableEntry}
    (hk : c.Holds k e) : c'.Holds k e := by
  obtain ⟨hactive, hid, m, hm, hrest⟩ := hk
  exact ⟨hactive, hid, m, h.getElem? hm, hrest⟩

theorem Extends.carries {c c' : ReliableChannel} (h : c.Extends c') {k : Nat} {p : ControlPacket}
    (hp : c.Carries k p) : c'.Carries k p := by
  obtain ⟨acks, sid, m, hlen, hm, hrest⟩ := hp
  exact ⟨acks, sid, m, hlen, h.getElem? hm, hrest⟩

theorem Extends.acknowledges {c c' : ReliableChannel} (h : c.Extends c') {p : ControlPacket}
    (hp : c.Acknowledges sid p) : c'.Acknowledges sid p := by
  obtain ⟨acks, rest, hlen, hbytes, hreceived⟩ := hp
  exact ⟨acks, rest, hlen, hbytes, fun pid hpid => h.received pid (hreceived pid hpid)⟩

/-- Entries with different numbers, and one more. -/
theorem Distinct.set {array : List ReliableEntry} {i : Nat} {new : ReliableEntry}
    (h : Distinct array)
    (hnew : ∀ e ∈ array, e.active = true → new.active = true → e.packet_id ≠ new.packet_id) :
    Distinct (array.set i new) := by
  rw [Distinct, List.pairwise_iff_getElem] at h ⊢
  intro j k hj hk hjk
  rw [List.length_set] at hj hk
  rw [List.getElem_set, List.getElem_set]
  by_cases hij : i = j
  · rw [if_pos hij, if_neg (by omega)]
    exact fun hactive hactive' heq =>
      hnew array[k] (List.getElem_mem hk) hactive' hactive heq.symm
  · rw [if_neg hij]
    by_cases hik : i = k
    · rw [if_pos hik]
      exact fun hactive hactive' => hnew array[j] (List.getElem_mem hj) hactive hactive'
    · rw [if_neg hik]
      exact h j k hj hk hjk

/-- Where the active entries have fewer numbers than there are entries, one is free. -/
theorem Distinct.exists_inactive {array : List ReliableEntry} (h : Distinct array) {lo n : Nat}
    (hn : n < array.length)
    (hids : ∀ e ∈ array, e.active = true → ∃ k, lo ≤ k ∧ k < lo + n ∧ e.packet_id = .ofNat k) :
    ∃ e ∈ array, e.active = false := by
  by_contra hnone
  push Not at hnone
  have hall : ∀ e ∈ array, e.active = true := fun e he => by simpa using hnone e he
  have hnodup : (array.map ReliableEntry.packet_id).Nodup := by
    rw [List.Nodup, List.pairwise_map]
    exact h.imp_of_mem fun he he' hne => hne (hall _ he) (hall _ he')
  have hsub : array.map ReliableEntry.packet_id ⊆ (List.range' lo n).map UInt32.ofNat := by
    intro pid hpid
    obtain ⟨e, he, rfl⟩ := List.mem_map.mp hpid
    obtain ⟨k, hlo, hhi, hk⟩ := hids e he (hall e he)
    rw [hk]
    exact List.mem_map_of_mem (List.mem_range'_1.mpr ⟨hlo, hhi⟩)
  have hle := (hnodup.subperm hsub).length_le
  rw [List.length_map, List.length_map, List.length_range'] at hle
  omega

/-! ### The sender -/

/-- The same message in another state of its timers. -/
def SameMessage (e e' : ReliableEntry) : Prop :=
  e'.packet_id = e.packet_id ∧ e'.opcode = e.opcode ∧ e'.buf = e.buf

theorem Holds.same {k : Nat} {e e' : ReliableEntry} (h : c.Holds k e) (hsame : SameMessage e e')
    (hactive : e'.active = true) : c.Holds k e' := by
  obtain ⟨-, hid, m, hm, hopcode, hbuf⟩ := h
  exact ⟨hactive, hsame.1.trans hid, m, hm, hsame.2.1.trans hopcode, hsame.2.2.trans hbuf⟩

/-- A step of the sender that only changes timers, or gives up what was received. -/
theorem Inv.of_sender (h : c.Inv sid) {sender : Reliable}
    (hid : sender.packet_id = c.sender.packet_id)
    (hlen : sender.array.length = c.sender.array.length)
    (hentry : ∀ (i : Nat) (e e' : ReliableEntry), c.sender.array[i]? = some e →
      sender.array[i]? = some e' → SameMessage e e' ∧ (e'.active = true → e.active = true) ∧
        (e.active = true → e'.active = true ∨ c.Received e.packet_id)) :
    ({ c with sender := sender } : ReliableChannel).Inv sid := by
  have hback : ∀ i (hold : i < c.sender.array.length) (hi : i < sender.array.length),
      SameMessage c.sender.array[i] sender.array[i] ∧
      (sender.array[i].active = true → c.sender.array[i].active = true) := by
    intro i hold hi
    obtain ⟨hsame, hactive, -⟩ := hentry i _ _ (List.getElem?_eq_getElem hold)
      (List.getElem?_eq_getElem hi)
    exact ⟨hsame, hactive⟩
  exact
    { h with
      sender_size := by rw [hlen]; exact h.sender_size
      counter := hid.trans h.counter
      held := by
        intro e' he' hactive'
        obtain ⟨i, hi, rfl⟩ := List.getElem_of_mem he'
        obtain ⟨hsame, hactive⟩ := hback i (hlen ▸ hi) hi
        obtain ⟨k, hk, hwindow⟩ := h.held _ (List.getElem_mem (hlen ▸ hi)) (hactive hactive')
        exact ⟨k, hk.same hsame hactive', by rw [hlen]; exact hwindow⟩
      sender_distinct := by
        rw [Distinct, List.pairwise_iff_getElem]
        intro i j hi hj hij hactive hactive'
        have hold := List.pairwise_iff_getElem.mp h.sender_distinct i j (hlen ▸ hi) (hlen ▸ hj) hij
        obtain ⟨hsame, hback_i⟩ := hback i (hlen ▸ hi) hi
        obtain ⟨hsame', hback_j⟩ := hback j (hlen ▸ hj) hj
        rw [hsame.1, hsame'.1]
        exact hold (hback_i hactive) (hback_j hactive')
      kept := by
        intro k hk
        rcases h.kept k hk with ⟨e, he, hholds⟩ | hreceived
        · obtain ⟨i, hi, rfl⟩ := List.getElem_of_mem he
          have hi' := List.getElem?_eq_getElem (hlen ▸ hi : i < sender.array.length)
          obtain ⟨hsame, -, hactive⟩ := hentry i _ _ (List.getElem?_eq_getElem hi) hi'
          rcases hactive hholds.1 with hactive' | hreceived
          · exact .inl ⟨_, List.mem_of_getElem? hi', hholds.same hsame hactive'⟩
          · rw [hholds.2.1] at hreceived
            exact .inr hreceived
        · exact .inr hreceived }

theorem Inv.scheduleNow (h : c.Inv sid) (now : Int) :
    ({ c with sender := c.sender.scheduleNow now } : ReliableChannel).Inv sid := by
  refine h.of_sender rfl (List.length_map _) fun i e e' he he' => ?_
  have hmap : some (if e.active then
      { e with next_try := now, timeout := c.sender.initial_timeout } else e) = some e' := by
    rw [← he', Reliable.scheduleNow, List.getElem?_map, he]
    rfl
  rw [← Option.some.inj hmap]
  split
  · exact ⟨⟨rfl, rfl, rfl⟩, id, .inl⟩
  · exact ⟨⟨rfl, rfl, rfl⟩, id, .inl⟩

/-- A transmission: the packet that goes out carries a message. -/
theorem Inv.send (h : c.Inv sid) {now : Int} {e : ReliableEntry} {sender : Reliable}
    (hsend : c.sender.send now = some (e, sender)) :
    ({ c with sender := sender } : ReliableChannel).Inv sid ∧ ∃ k, c.Holds k e := by
  obtain ⟨i, hi, hdue, rfl⟩ := Reliable.send_spec hsend
  have hmem := List.mem_of_getElem? hi
  have hactive : e.active = true := by
    rw [Reliable.due, Bool.and_eq_true] at hdue
    exact hdue.1
  refine ⟨h.of_sender rfl List.length_set fun j e₁ e₂ he₁ he₂ => ?_, ?_⟩
  · rw [List.getElem?_set] at he₂
    split at he₂
    · next hij =>
        subst hij
        rw [if_pos (List.getElem?_eq_some_iff.mp hi).1, Option.some.injEq] at he₂
        obtain rfl := Option.some.inj (he₁.symm.trans hi)
        rw [← he₂]
        exact ⟨⟨rfl, rfl, rfl⟩, id, .inl⟩
    · obtain rfl := Option.some.inj (he₁.symm.trans he₂)
      exact ⟨⟨rfl, rfl, rfl⟩, id, .inl⟩
  · obtain ⟨k, hk, -⟩ := h.held e hmem hactive
    exact ⟨k, hk⟩

/-- Acknowledgements arrive: only what was received is given up. -/
theorem Inv.purge (h : c.Inv sid) {acks : List PacketId} (hacks : ∀ pid ∈ acks, c.Received pid) :
    (c.purge acks).Inv sid := by
  obtain ⟨purge, hpurged, hpurge⟩ := Reliable.sendPurge_spec c.sender acks
  rw [ReliableChannel.purge, hpurged]
  refine h.of_sender rfl (List.length_map _) fun i e e' he he' => ?_
  have hmap : some (purge e) = some e' := by
    rw [← he', List.getElem?_map, he]
    rfl
  obtain ⟨hid, hopcode, hbuf, -, hactive, hgone⟩ := hpurge e
  rw [← Option.some.inj hmap]
  refine ⟨⟨hid, hopcode, hbuf⟩, hactive, fun he => ?_⟩
  by_cases hstill : (purge e).active = true
  · exact .inl hstill
  · exact .inr (hacks _ (hgone he (by simpa using hstill)))

theorem Inv.emit (h : c.Inv sid) {packet : ControlPacket}
    (hpacket : packet.opcode ≠ P_ACK_V1 → ∃ k, c.Carries k packet) : (c.emit packet).Inv sid :=
  { h with
    forward := by
      intro p hp hop
      rcases List.mem_append.mp hp with hp | hp
      · exact h.forward p hp hop
      · rw [List.mem_singleton.mp hp] at hop ⊢
        exact hpacket hop }

theorem Inv.emitAcks (h : c.Inv sid) (max : Nat) (opcode : Nat) (buf : List UInt8) :
    (c.emitAcks (ReliableAck.write c.rec_ack c.lru_acks max).2.1
      (ReliableAck.write c.rec_ack c.lru_acks max).2.2
      ⟨opcode, ackRecord (ReliableAck.write c.rec_ack c.lru_acks max).1 sid ++ buf⟩).Inv sid := by
  have hboth : ∀ pid, pid ∈ c.rec_ack.packet_id ∨ pid ∈ c.lru_acks.packet_id → c.Received pid :=
    fun pid hpid => hpid.elim (h.rec_ack pid) (h.lru_acks pid)
  exact
    { h with
      rec_ack := fun pid hpid => h.rec_ack pid (List.mem_of_mem_drop hpid)
      lru_acks := fun pid hpid =>
        hboth pid ((ReliableAck.mem_copyAcksToMru hpid).imp_left List.mem_of_mem_take)
      backward := by
        intro p hp
        rcases List.mem_append.mp hp with hp | hp
        · exact h.backward p hp
        · rw [List.mem_singleton.mp hp]
          exact ⟨_, buf, ReliableAck.length_write_le _ _ max, rfl, fun pid hpid =>
            hboth pid (ReliableAck.mem_write hpid)⟩ }

theorem Acknowledges.read {p : ControlPacket} (h : c.Acknowledges sid p) :
    ∃ acks rest, reliableAckRead p.bytes sid = some (acks, rest) ∧
      ∀ pid ∈ acks, c.Received pid := by
  obtain ⟨acks, rest, hlen, hbytes, hreceived⟩ := h
  exact ⟨acks, rest, by rw [hbytes, reliableAckRead_append hlen], hreceived⟩

/-- Behind the acknowledgements stands the message. -/
theorem Carries.read {c c' : ReliableChannel} {k : Nat} {p : ControlPacket} (h : c.Carries k p)
    (hacks : c'.Acknowledges sid p) {acks : List PacketId} {rest : List UInt8}
    (hread : reliableAckRead p.bytes sid = some (acks, rest)) :
    ∃ m, c.sent[k]? = some m ∧ p.opcode = m.opcode ∧
      rest = packetIdBytes (.ofNat k) ++ m.buf := by
  obtain ⟨written, sid', m, hlen, hm, hopcode, hbytes⟩ := h
  obtain ⟨acks', rest', hlen', hbytes', -⟩ := hacks
  rw [hbytes', reliableAckRead_append hlen', Option.some.injEq, Prod.mk.injEq] at hread
  obtain ⟨-, rfl⟩ := hread
  exact ⟨m, hm, hopcode, ackRecord_append_inj hlen' hlen (hbytes'.symm.trans hbytes)⟩

theorem Holds.lt {k : Nat} {e : ReliableEntry} (h : c.Holds k e) : k < c.sent.length := by
  obtain ⟨-, -, m, hm, -⟩ := h
  exact (List.getElem?_eq_some_iff.mp hm).1

theorem Inv.numbered (h : c.Inv sid) (hbound : c.sent.length ≤ 2 ^ 31) :
    Reliable.Numbered 0 c.sender.array := by
  intro e he hactive
  obtain ⟨k, hk, -⟩ := h.held e he hactive
  exact ⟨k, Nat.zero_le k, by have := hk.lt; omega, hk.2.1⟩

/-- The sender holds the message with the number `k`, and none before it. -/
def Oldest (c : ReliableChannel) (k : Nat) : Prop :=
  (∃ e ∈ c.sender.array, c.Holds k e) ∧ ∀ e ∈ c.sender.array, ∀ k', c.Holds k' e → k ≤ k'

/-- `w` numbers of the window are used: those from the oldest message on. -/
def Uses (c : ReliableChannel) (w : Nat) : Prop :=
  ((∀ e ∈ c.sender.array, e.active = false) ∧ w = 0) ∨ ∃ k, c.Oldest k ∧ c.sent.length = k + w

theorem Oldest.unique {k k' : Nat} (h : c.Oldest k) (h' : c.Oldest k') : k = k' := by
  obtain ⟨⟨e, he, hk⟩, hmin⟩ := h
  obtain ⟨⟨e', he', hk'⟩, hmin'⟩ := h'
  exact Nat.le_antisymm (hmin e' he' k' hk') (hmin' e he k hk)

/-- What the loop for the minimum finds. -/
theorem Inv.minId_spec (h : c.Inv sid) (hbound : c.sent.length ≤ 2 ^ 31) :
    (Reliable.minId c.sender.array = none ∧ ∀ e ∈ c.sender.array, e.active = false) ∨
      ∃ k, Reliable.minId c.sender.array = some (.ofNat k) ∧ c.Oldest k := by
  rcases Reliable.minId_spec (h.numbered hbound) with hnone | ⟨m, hsome, -, hm, hmin, hall⟩
  · exact .inl hnone
  · refine .inr ⟨m, hsome, ?_, fun e he k hk => ?_⟩
    · obtain ⟨e₀, he₀, hactive₀, hid₀⟩ := hmin
      obtain ⟨k₀, hk₀, -⟩ := h.held e₀ he₀ hactive₀
      have hlt₀ := hk₀.lt
      obtain rfl : k₀ = m :=
        SerialNumber.ofNat_inj_of_near (by omega) (by omega) (hk₀.2.1.symm.trans hid₀)
      exact ⟨e₀, he₀, hk₀⟩
    · obtain ⟨k', hk', hlt', hid'⟩ := hall e he hk.1
      have hlt := hk.lt
      obtain rfl : k = k' :=
        SerialNumber.ofNat_inj_of_near (by omega) (by omega) (hk.2.1.symm.trans hid')
      exact hk'

theorem Inv.exists_uses (h : c.Inv sid) (hbound : c.sent.length ≤ 2 ^ 31) :
    ∃ w, c.Uses w ∧ w ≤ c.sender.array.length := by
  rcases h.minId_spec hbound with ⟨-, hall⟩ | ⟨k, -, hold⟩
  · exact ⟨0, .inl ⟨hall, rfl⟩, Nat.zero_le _⟩
  · obtain ⟨e, he, hk⟩ := hold.1
    have hlt := hk.lt
    obtain ⟨k', hk', hwindow⟩ := h.held e he hk.1
    have hlt' := hk'.lt
    obtain rfl : k = k' :=
      SerialNumber.ofNat_inj_of_near (by omega) (by omega) (hk.2.1.symm.trans hk'.2.1)
    exact ⟨c.sent.length - k, .inr ⟨k, hold, by omega⟩, by omega⟩

/-- `reliable_get_num_output_sequenced_available` is what the window leaves. -/
theorem Inv.available (h : c.Inv sid) (hbound : c.sent.length ≤ 2 ^ 31) {w : Nat}
    (huses : c.Uses w) :
    c.sender.getNumOutputSequencedAvailable = (c.sender.array.length : Int) - w := by
  rw [Reliable.getNumOutputSequencedAvailable]
  rcases h.minId_spec hbound with ⟨hnone, hall⟩ | ⟨k, hsome, hold⟩
  · rw [hnone]
    rcases huses with ⟨-, rfl⟩ | ⟨k, ⟨⟨e, he, hk⟩, -⟩, -⟩
    · simp only [Nat.cast_zero, sub_zero]
    · exact absurd (hk.1.symm.trans (hall e he)) Bool.noConfusion
  · rw [hsome]
    rcases huses with ⟨hall, -⟩ | ⟨k', hold', hw⟩
    · obtain ⟨e, he, hk⟩ := hold.1
      exact absurd (hk.1.symm.trans (hall e he)) Bool.noConfusion
    · obtain rfl := hold.unique hold'
      have hdistance : (subtractPid c.sender.packet_id (.ofNat k)).toNat = w := by
        rw [subtractPid, h.counter, SerialNumber.toNat_sub_ofNat (by omega)]
        omega
      dsimp only
      rw [hdistance]

/-- A buffer is handed out exactly when the window leaves one. -/
theorem Inv.getBufOutputSequenced (h : c.Inv sid) (hbound : c.sent.length ≤ 2 ^ 31) {w : Nat}
    (huses : c.Uses w) :
    (w < c.sender.array.length →
      ∃ i, c.sender.getBufOutputSequenced = some i ∧ c.sender.getBuf = some i) ∧
    (c.sender.array.length ≤ w → c.sender.getBufOutputSequenced = none) := by
  have hsize := h.sender_size
  rw [Reliable.getBufOutputSequenced]
  rcases h.minId_spec hbound with ⟨hnone, hall⟩ | ⟨k, hsome, hold⟩
  · rw [hnone]
    rcases huses with ⟨-, rfl⟩ | ⟨k, ⟨⟨e, he, hk⟩, -⟩, -⟩
    · refine ⟨fun hpos => ?_, fun hempty => ?_⟩
      · obtain ⟨e, he⟩ := List.exists_mem_of_length_pos hpos
        obtain ⟨i, hi⟩ := Reliable.getBuf_isSome (Reliable.canGet_iff.mpr ⟨e, he, hall e he⟩)
        exact ⟨i, hi, hi⟩
      · have hnil : c.sender.array = [] := List.eq_nil_of_length_eq_zero (by omega)
        dsimp only
        rw [Reliable.getBuf, hnil]
        rfl
    · exact absurd (hk.1.symm.trans (hall e he)) Bool.noConfusion
  · rw [hsome]
    dsimp only
    rcases huses with ⟨hall, -⟩ | ⟨k', hold', hw⟩
    · obtain ⟨e, he, hk⟩ := hold.1
      exact absurd (hk.1.symm.trans (hall e he)) Bool.noConfusion
    · obtain rfl := hold.unique hold'
      have hrange : reliablePidInRange1 c.sender.packet_id (.ofNat k) c.sender.size = true ↔
          w < c.sender.array.length := by
        rw [h.counter, Reliable.size, reliablePidInRange1_iff (by omega) (by omega) (by omega)]
        omega
      refine ⟨fun hroom => ?_, fun hfull => ?_⟩
      · rw [if_pos (hrange.mpr hroom)]
        have hfree : ∃ e ∈ c.sender.array, e.active = false := by
          refine @Distinct.exists_inactive _ h.sender_distinct k w hroom ?_
          intro e he hactive
          obtain ⟨k', hk', -⟩ := h.held e he hactive
          have hlt := hk'.lt
          exact ⟨k', hold.2 e he k' hk', by omega, hk'.2.1⟩
        obtain ⟨i, hi⟩ := Reliable.getBuf_isSome (Reliable.canGet_iff.mpr hfree)
        exact ⟨i, hi, hi⟩
      · rw [if_neg]
        rw [hrange]
        omega

/-- A buffer is handed out only when the oldest message that is held leaves room in the window
    for one more. -/
theorem Inv.room (h : c.Inv sid) (hbound : c.sent.length ≤ 2 ^ 31) {i : Nat}
    (hbuf : c.sender.getBufOutputSequenced = some i) :
    c.sender.getBuf = some i ∧ ∀ e ∈ c.sender.array, ∀ k, c.Holds k e →
      c.sent.length < k + c.sender.array.length := by
  obtain ⟨w, huses, -⟩ := h.exists_uses hbound
  obtain ⟨hroom, hfull⟩ := h.getBufOutputSequenced hbound huses
  have hlt : w < c.sender.array.length := by
    by_contra hge
    rw [hfull (Nat.not_lt.mp hge)] at hbuf
    cases hbuf
  obtain ⟨j, hj, hfree⟩ := hroom hlt
  rw [hj] at hbuf
  refine ⟨hbuf ▸ hfree, fun e he k hk => ?_⟩
  rcases huses with ⟨hall, -⟩ | ⟨k₀, hold, hw⟩
  · exact absurd (hk.1.symm.trans (hall e he)) Bool.noConfusion
  · have hle := hold.2 e he k hk
    omega

theorem extends_handOut (c : ReliableChannel) (i : Nat) (m : ControlMessage) :
    c.Extends (c.handOut i m) := by
  refine ⟨⟨[m], rfl⟩, fun pid hpid => ?_⟩
  obtain ⟨k, hk, hid, hwhere⟩ := hpid
  refine ⟨k, ?_, hid, hwhere⟩
  rw [handOut, List.length_append]
  omega

theorem Inv.handOut (h : c.Inv sid) (hbound : c.sent.length ≤ 2 ^ 31) {i : Nat}
    {e₀ : ReliableEntry} (hi : c.sender.array[i]? = some e₀) (hinactive : e₀.active = false)
    (hroom : ∀ e ∈ c.sender.array, ∀ k, c.Holds k e →
      c.sent.length < k + c.sender.array.length) (m : ControlMessage) :
    (c.handOut i m).Inv sid := by
  have hpos : i < c.sender.array.length := (List.getElem?_eq_some_iff.mp hi).1
  have hextends := extends_handOut c i m
  have hsize : (c.handOut i m).sender.array.length = c.sender.array.length := List.length_set
  have hlength : (c.handOut i m).sent.length = c.sent.length + 1 := by
    rw [ReliableChannel.handOut, List.length_append, List.length_singleton]
  have hnew : ∀ e : ReliableEntry, e.active = true → e.packet_id = c.sender.packet_id →
      e.opcode = m.opcode → e.buf = packetIdBytes c.sender.packet_id ++ m.buf →
      (c.handOut i m).Holds c.sent.length e := by
    intro e hactive hid hopcode hbuf
    refine ⟨hactive, hid.trans h.counter, m, List.getElem?_concat_length, hopcode, ?_⟩
    rw [hbuf, h.counter]
  exact
    { sender_size := by rw [hsize]; exact h.sender_size
      receiver_size := h.receiver_size
      counter := by
        rw [hlength, ← SerialNumber.ofNat_succ, ← h.counter]
        rfl
      held := by
        intro e he hactive
        rw [hlength, hsize]
        rcases Reliable.mem_set he with rfl | ⟨j, -, hj⟩
        · exact ⟨c.sent.length, hnew _ rfl rfl rfl rfl, by omega⟩
        · have hmem := List.mem_of_getElem? hj
          obtain ⟨k, hk, -⟩ := h.held e hmem hactive
          exact ⟨k, hextends.holds hk, hroom e hmem k hk⟩
      sender_distinct := by
        refine h.sender_distinct.set fun e he hactive _ hsame => ?_
        obtain ⟨k, hk, -⟩ := h.held e he hactive
        have hlt := hk.lt
        have hcounter : UInt32.ofNat k = .ofNat c.sent.length := by
          rw [← hk.2.1, hsame, h.counter]
        have heq := SerialNumber.ofNat_inj_of_near (by omega) (by omega) hcounter
        omega
      kept := by
        intro k hk
        rw [hlength] at hk
        rcases Nat.lt_succ_iff_lt_or_eq.mp hk with hk | rfl
        · rcases h.kept k hk with ⟨e, he, hholds⟩ | hreceived
          · obtain ⟨j, hj, rfl⟩ := List.getElem_of_mem he
            have hj' := List.getElem?_eq_getElem hj
            have hij : j ≠ i := by
              rintro rfl
              rw [hj', Option.some.injEq] at hi
              rw [hi] at hholds
              exact absurd (hholds.1.symm.trans hinactive) Bool.noConfusion
            exact .inl ⟨_, Reliable.mem_set_of_ne hj' hij _, hextends.holds hholds⟩
          · exact .inr (hextends.received _ hreceived)
        · exact .inl ⟨_, Reliable.mem_set_self hi _, hnew _ rfl rfl rfl rfl⟩
      forward := fun p hp hop => (h.forward p hp hop).imp fun _ => hextends.carries
      expects := h.expects
      in_order := h.in_order.trans (List.prefix_append _ _)
      window := by
        intro e he hactive
        obtain ⟨k, hlo, hhi, hid, hm⟩ := h.window e he hactive
        exact ⟨k, hlo, hhi, hid, hextends.getElem? hm⟩
      distinct := h.distinct
      rec_ack := fun pid hpid => hextends.received pid (h.rec_ack pid hpid)
      lru_acks := fun pid hpid => hextends.received pid (h.lru_acks pid hpid)
      backward := fun p hp => hextends.acknowledges (h.backward p hp) }

/-- A message that is handed out uses one more number. -/
theorem Inv.uses_handOut (h : c.Inv sid) {i w : Nat} {e₀ : ReliableEntry}
    (hi : c.sender.array[i]? = some e₀) (hinactive : e₀.active = false)
    (hbound : c.sent.length ≤ 2 ^ 31) (huses : c.Uses w) (m : ControlMessage) :
    (c.handOut i m).Uses (w + 1) := by
  have hextends := extends_handOut c i m
  have hlength : (c.handOut i m).sent.length = c.sent.length + 1 := by
    rw [ReliableChannel.handOut, List.length_append, List.length_singleton]
  have hnew : (c.handOut i m).Holds c.sent.length { c.sender.array[i]! with
      active := true
      timeout := c.sender.initial_timeout
      next_try := 0
      packet_id := c.sender.packet_id
      opcode := m.opcode
      buf := packetIdBytes c.sender.packet_id ++ m.buf } := by
    refine ⟨rfl, h.counter, m, List.getElem?_concat_length, rfl, ?_⟩
    rw [h.counter]
  have hback : ∀ e ∈ (c.handOut i m).sender.array, ∀ k, (c.handOut i m).Holds k e →
      k = c.sent.length ∨ ∃ e ∈ c.sender.array, c.Holds k e := by
    intro e he k hk
    have hlt := hk.lt
    rw [hlength] at hlt
    rcases Reliable.mem_set he with rfl | ⟨j, -, hj⟩
    · left
      exact SerialNumber.ofNat_inj_of_near (by omega) (by omega) (hk.2.1.symm.trans h.counter)
    · right
      obtain ⟨k', hk', -⟩ := h.held e (List.mem_of_getElem? hj) hk.1
      have hlt' := hk'.lt
      obtain rfl : k = k' :=
        SerialNumber.ofNat_inj_of_near (by omega) (by omega) (hk.2.1.symm.trans hk'.2.1)
      exact ⟨e, List.mem_of_getElem? hj, hk'⟩
  right
  rcases huses with ⟨hall, rfl⟩ | ⟨k, ⟨⟨e, he, hk⟩, hmin⟩, hw⟩
  · refine ⟨c.sent.length, ⟨⟨_, Reliable.mem_set_self hi _, hnew⟩, fun e he k hk => ?_⟩, hlength⟩
    rcases hback e he k hk with rfl | ⟨e', he', hk'⟩
    · exact Nat.le_refl _
    · exact absurd (hk'.1.symm.trans (hall e' he')) Bool.noConfusion
  · refine ⟨k, ⟨?_, fun e' he' k' hk' => ?_⟩, by omega⟩
    · obtain ⟨j, hj, rfl⟩ := List.getElem_of_mem he
      have hj' := List.getElem?_eq_getElem hj
      have hij : j ≠ i := by
        rintro rfl
        rw [hj', Option.some.injEq] at hi
        rw [hi] at hk
        exact absurd (hk.1.symm.trans hinactive) Bool.noConfusion
      exact ⟨_, Reliable.mem_set_of_ne hj' hij _, hextends.holds hk⟩
    · rcases hback e' he' k' hk' with rfl | ⟨e'', he'', hk''⟩
      · exact Nat.le_of_lt hk.lt
      · exact hmin e'' he'' k' hk''

theorem Inv.output (h : c.Inv sid) (m : ControlMessage) (hbound : c.sent.length ≤ 2 ^ 31) :
    (c.output m).Inv sid := by
  rw [ReliableChannel.output]
  cases hbuf : c.sender.getBufOutputSequenced with
  | none => exact h
  | some i =>
      obtain ⟨hfree, hroom⟩ := h.room hbound hbuf
      obtain ⟨e₀, hi, hinactive⟩ := Reliable.getBuf_spec hfree
      exact h.handOut hbound hi hinactive hroom m

/-- As many messages are taken as the number says, and then none. -/
theorem Inv.sent_foldl_output (h : c.Inv sid) (ms : List ControlMessage)
    (hbound : c.sent.length + ms.length ≤ 2 ^ 31) :
    (ms.foldl ReliableChannel.output c).sent =
      c.sent ++ ms.take c.sender.getNumOutputSequencedAvailable.toNat := by
  obtain ⟨w, huses, hle⟩ := h.exists_uses (by omega)
  rw [h.available (by omega) huses]
  have hroom : ((c.sender.array.length : Int) - w).toNat = c.sender.array.length - w := by omega
  rw [hroom]
  clear hroom
  induction ms generalizing c w with
  | nil => rw [List.take_nil, List.append_nil]; rfl
  | cons m ms ih =>
      rw [List.length_cons] at hbound
      obtain ⟨hsome, hnone⟩ := h.getBufOutputSequenced (by omega) huses
      rw [List.foldl_cons]
      rcases Nat.lt_or_ge w c.sender.array.length with hlt | hge
      · obtain ⟨i, hi, hfree⟩ := hsome hlt
        obtain ⟨e₀, he₀, hinactive⟩ := Reliable.getBuf_spec hfree
        have hnext : c.output m = c.handOut i m := by rw [ReliableChannel.output, hi]
        have hsize : (c.handOut i m).sender.array.length = c.sender.array.length :=
          List.length_set
        have hsent : (c.handOut i m).sent = c.sent ++ [m] := rfl
        have hinv := h.output m (by omega)
        rw [hnext] at hinv ⊢
        rw [ih hinv (by rw [hsent, List.length_append, List.length_singleton]; omega) (w + 1)
          (h.uses_handOut he₀ hinactive (by omega) huses m) (by rw [hsize]; exact hlt), hsize, hsent,
          List.append_assoc, List.singleton_append]
        obtain ⟨left, hleft⟩ : ∃ left, c.sender.array.length - w = left + 1 :=
          ⟨c.sender.array.length - w - 1, by omega⟩
        rw [hleft, List.take_succ_cons, ← Nat.sub_sub, hleft, Nat.add_sub_cancel]
      · have hnext : c.output m = c := by rw [ReliableChannel.output, hnone hge]
        have hzero : c.sender.array.length - w = 0 := by omega
        rw [hnext, ih h (by omega) w huses hle, hzero, List.take_zero, List.take_zero]

/-! ### The receiver -/

theorem Inv.delivered_le (h : c.Inv sid) : c.delivered.length ≤ c.sent.length :=
  h.in_order.length_le

theorem Inv.acknowledge (h : c.Inv sid) {id : PacketId} (hid : c.Received id) :
    (c.acknowledge id).Inv sid :=
  { h with
    rec_ack := by
      intro pid hpid
      rcases ReliableAck.mem_acknowledgePacketId hpid with rfl | hpid
      · exact hid
      · exact h.rec_ack pid hpid }

/-- A message of the window that is not there yet goes into a free buffer. -/
theorem Inv.store (h : c.Inv sid) {i k : Nat} {e₀ : ReliableEntry} {m : ControlMessage}
    (hi : c.receiver.array[i]? = some e₀) (hinactive : e₀.active = false)
    (hk : c.sent[k]? = some m) (hlo : c.delivered.length ≤ k)
    (hhi : k < c.delivered.length + c.receiver.array.length)
    (hfresh : ∀ e ∈ c.receiver.array, e.active = true → e.packet_id ≠ .ofNat k)
    (hbound : c.sent.length ≤ 2 ^ 31) :
    ∃ c', c.store i (.ofNat k) m.opcode m.buf = some c' ∧ c'.Inv sid ∧ c'.Received (.ofNat k) ∧
      c'.delivered = c.delivered ∧ c'.sent = c.sent ∧
      (∃ e ∈ c'.receiver.array, e.active = true ∧ e.packet_id = .ofNat k) := by
  have hlt := (List.getElem?_eq_some_iff.mp hk).1
  have hreplay : ¬ reliablePidMin (.ofNat k) c.receiver.packet_id = true := by
    rw [h.expects, reliablePidMin_iff (by omega) (by omega)]
    omega
  have hnew : (⟨true, 0, 0, .ofNat k, 0, m.opcode, m.buf⟩ : ReliableEntry) ∈
      c.receiver.array.set i ⟨true, 0, 0, .ofNat k, 0, m.opcode, m.buf⟩ :=
    Reliable.mem_set_self hi _
  refine ⟨{ c with receiver := { c.receiver with
    array := c.receiver.array.set i ⟨true, 0, 0, .ofNat k, 0, m.opcode, m.buf⟩ } }, ?_, ?_, ?_, rfl,
    rfl, ⟨_, hnew, rfl, rfl⟩⟩
  · rw [ReliableChannel.store, Reliable.markActiveIncoming, if_neg hreplay]
    rfl
  · have hextends : ∀ pid, c.Received pid → ({ c with receiver := { c.receiver with
        array := c.receiver.array.set i ⟨true, 0, 0, .ofNat k, 0, m.opcode, m.buf⟩ } } :
          ReliableChannel).Received pid := by
      rintro pid ⟨k', hk', hid, hwhere⟩
      refine ⟨k', hk', hid, hwhere.imp_right ?_⟩
      rintro ⟨e, he, hactive, hpid⟩
      obtain ⟨j, hj, rfl⟩ := List.getElem_of_mem he
      have hj' := List.getElem?_eq_getElem hj
      have hij : j ≠ i := by
        rintro rfl
        rw [hj', Option.some.injEq] at hi
        rw [hi] at hactive
        exact absurd (hactive.symm.trans hinactive) Bool.noConfusion
      exact ⟨_, Reliable.mem_set_of_ne hj' hij _, hactive, hpid⟩
    exact
      { h with
        receiver_size := by
          rw [List.length_set]
          exact h.receiver_size
        kept := fun k' hk' => (h.kept k' hk').imp_right (hextends _)
        window := by
          intro e he hactive
          rw [List.length_set]
          rcases Reliable.mem_set he with rfl | ⟨j, -, hj⟩
          · exact ⟨k, hlo, hhi, rfl, hk⟩
          · exact h.window e (List.mem_of_getElem? hj) hactive
        distinct := h.distinct.set fun e he hactive _ => hfresh e he hactive
        rec_ack := fun pid hpid => hextends pid (h.rec_ack pid hpid)
        lru_acks := fun pid hpid => hextends pid (h.lru_acks pid hpid)
        backward := by
          intro p hp
          obtain ⟨acks, rest, hlen, hbytes, hreceived⟩ := h.backward p hp
          exact ⟨acks, rest, hlen, hbytes, fun pid hpid => hextends pid (hreceived pid hpid)⟩ }
  · exact ⟨k, hlt, rfl, .inr ⟨_, hnew, rfl, rfl⟩⟩

theorem Inv.wontBreak_iff (h : c.Inv sid) (hbound : c.sent.length ≤ 2 ^ 31) {k : Nat}
    (hk : k < c.sent.length) : c.receiver.wontBreakSequentiality (.ofNat k) = true ↔
      k < c.delivered.length + c.receiver.array.length := by
  have hle := h.delivered_le
  have hsize := h.receiver_size
  rw [Reliable.wontBreakSequentiality, h.expects, Reliable.size,
    reliablePidInRange2_iff (by omega) (by omega)]

theorem Inv.notReplay_iff (h : c.Inv sid) (hbound : c.sent.length ≤ 2 ^ 31) {k : Nat}
    (hk : k < c.sent.length) : c.receiver.notReplay (.ofNat k) = true ↔
      c.delivered.length ≤ k ∧ ∀ e ∈ c.receiver.array, e.active = true → e.packet_id ≠ .ofNat k := by
  have hle := h.delivered_le
  rw [Reliable.notReplay_iff, h.expects, ← Bool.not_eq_true, reliablePidMin_iff (by omega) (by omega),
    Nat.not_lt]

theorem Inv.receiveMessage (h : c.Inv sid) (hbound : c.sent.length ≤ 2 ^ 31) (capacity : Nat)
    {k : Nat} {m : ControlMessage} (hk : c.sent[k]? = some m) :
    (c.receiveMessage capacity m.opcode (packetIdBytes (.ofNat k) ++ m.buf)).Inv sid := by
  have hlt := (List.getElem?_eq_some_iff.mp hk).1
  rw [ReliableChannel.receiveMessage]
  split
  · rw [readPacketId_append]
    dsimp only
    split
    · next hrange =>
        rw [h.wontBreak_iff hbound hlt] at hrange
        split
        · next hreplay =>
            rw [h.notReplay_iff hbound hlt] at hreplay
            cases hbuf : c.receiver.getBuf with
            | none => exact h
            | some i =>
                obtain ⟨e₀, hi, hinactive⟩ := Reliable.getBuf_spec hbuf
                obtain ⟨c', hc', hinv, hreceived, -, -⟩ :=
                  h.store hi hinactive hk hreplay.1 hrange hreplay.2 hbound
                dsimp only
                split
                · rw [hc']
                  exact hinv.acknowledge hreceived
                · exact h
        · next hreplay =>
            apply h.acknowledge
            rw [h.notReplay_iff hbound hlt, not_and_or] at hreplay
            refine ⟨k, hlt, rfl, ?_⟩
            rcases hreplay with hbefore | hthere
            · exact .inl (Nat.not_le.mp hbefore)
            · push Not at hthere
              exact .inr hthere
    · exact h
  · exact h

/-- What is handed over is the next message. -/
theorem Inv.handOver (h : c.Inv sid) (hbound : c.sent.length ≤ 2 ^ 31) {i : Nat}
    (hi : c.receiver.getEntrySequenced = some i) :
    (c.handOver i).Inv sid ∧ c.sent[c.delivered.length]? =
      some ⟨c.receiver.array[i]!.opcode, c.receiver.array[i]!.buf⟩ := by
  obtain ⟨e, helem, hactive, hid⟩ := Reliable.getEntrySequenced_spec hi
  have hmem := List.mem_of_getElem? helem
  have hle := h.delivered_le
  have hsize := h.receiver_size
  obtain ⟨k, hlo, hhi, hk, hm⟩ := h.window e hmem hactive
  have hlt := (List.getElem?_eq_some_iff.mp hm).1
  obtain rfl : k = c.delivered.length :=
    SerialNumber.ofNat_inj_of_near (by omega) (by omega)
      (hk.symm.trans (hid.trans h.expects))
  have hget := Reliable.getElem!_of_getElem? helem
  have hextends : ∀ pid, c.Received pid → (c.handOver i).Received pid := by
    rintro pid ⟨k, hklt, hpid, hwhere⟩
    refine ⟨k, hklt, hpid, ?_⟩
    rcases hwhere with hbefore | ⟨e', he', hactive', hid'⟩
    · left
      rw [ReliableChannel.handOver, List.length_append]
      omega
    · obtain ⟨j, hj, rfl⟩ := List.getElem_of_mem he'
      have hj' := List.getElem?_eq_getElem hj
      by_cases hij : j = i
      · left
        subst hij
        have heq := Option.some.inj (hj'.symm.trans helem)
        rw [heq, hk] at hid'
        have hsame : c.delivered.length = k :=
          SerialNumber.ofNat_inj_of_near (by omega) (by omega) hid'
        rw [ReliableChannel.handOver, List.length_append, List.length_singleton]
        omega
      · exact .inr ⟨_, Reliable.mem_set_of_ne hj' hij _, hactive', hid'⟩
  refine ⟨?_, by rw [hget]; exact hm⟩
  exact
    { h with
      receiver_size := by
        rw [ReliableChannel.handOver, Reliable.markDeleted, List.length_set]
        exact h.receiver_size
      kept := fun k hk => (h.kept k hk).imp_right (hextends _)
      expects := by
        rw [ReliableChannel.handOver, Reliable.markDeleted, hget, hk, SerialNumber.ofNat_succ,
          List.length_append, List.length_singleton]
      in_order := by
        obtain ⟨rest, hrest⟩ := h.in_order
        have hhead : rest[0]? = some (⟨e.opcode, e.buf⟩ : ControlMessage) := by
          rw [← hm, ← hrest, List.getElem?_append_right (Nat.le_refl _), Nat.sub_self]
        cases rest with
        | nil => cases hhead
        | cons m rest =>
            obtain rfl := Option.some.inj hhead
            refine ⟨rest, ?_⟩
            rw [ReliableChannel.handOver, hget, List.append_assoc, List.singleton_append]
            exact hrest
      window := by
        intro e' he' hactive'
        have hlength : (c.handOver i).delivered.length = c.delivered.length + 1 := by
          rw [ReliableChannel.handOver, List.length_append, List.length_singleton]
        have hlength' : (c.handOver i).receiver.array.length = c.receiver.array.length :=
          List.length_set
        rw [hlength, hlength']
        rcases Reliable.mem_set he' with rfl | ⟨j, hji, hj⟩
        · exact absurd hactive' Bool.false_ne_true
        · obtain ⟨k', hlo', hhi', hid', hm'⟩ := h.window e' (List.mem_of_getElem? hj) hactive'
          have hne : k' ≠ c.delivered.length := by
            rintro rfl
            obtain ⟨hjlt, hje⟩ := List.getElem?_eq_some_iff.mp hj
            obtain ⟨hilt, hie⟩ := List.getElem?_eq_some_iff.mp helem
            have hdistinct := List.pairwise_iff_getElem.mp h.distinct
            rcases Nat.lt_or_gt_of_ne hji with hlt | hlt
            · have hdiffer := hdistinct j i hjlt hilt hlt
              rw [hje, hie] at hdiffer
              exact hdiffer hactive' hactive (hid'.trans hk.symm)
            · have hdiffer := hdistinct i j hilt hjlt hlt
              rw [hje, hie] at hdiffer
              exact hdiffer hactive hactive' (hk.trans hid'.symm)
          exact ⟨k', by omega, by omega, hid', hm'⟩
      distinct := h.distinct.set fun _ _ _ hf => absurd hf Bool.false_ne_true
      rec_ack := fun pid hpid => hextends pid (h.rec_ack pid hpid)
      lru_acks := fun pid hpid => hextends pid (h.lru_acks pid hpid)
      backward := by
        intro p hp
        obtain ⟨acks, rest, hlen, hbytes, hreceived⟩ := h.backward p hp
        exact ⟨acks, rest, hlen, hbytes, fun pid hpid => hextends pid (hreceived pid hpid)⟩ }

theorem Inv.deliver (h : c.Inv sid) (hbound : c.sent.length ≤ 2 ^ 31) : c.deliver.Inv sid := by
  rw [ReliableChannel.deliver]
  cases hi : c.receiver.getEntrySequenced with
  | none => exact h
  | some i => exact (h.handOver hbound hi).1

/-! ### The missing message -/

theorem Inv.not_received (h : c.Inv sid) (hbound : c.sent.length ≤ 2 ^ 31)
    (hlt : c.delivered.length < c.sent.length) (hnone : c.receiver.getEntrySequenced = none) :
    ¬ c.Received (.ofNat c.delivered.length) := by
  rintro ⟨k, hk, hid, hwhere⟩
  obtain rfl : c.delivered.length = k := SerialNumber.ofNat_inj_of_near (by omega) (by omega) hid
  rcases hwhere with hbefore | ⟨e, he, hactive, hpid⟩
  · exact absurd hbefore (Nat.lt_irrefl _)
  · obtain ⟨i, hi⟩ := Reliable.getEntrySequenced_isSome he hactive (hpid.trans h.expects.symm)
    rw [hnone] at hi
    cases hi

/-- The message that the receiver waits for is still held by the sender. -/
theorem Inv.missing_held (h : c.Inv sid) (hbound : c.sent.length ≤ 2 ^ 31)
    (hlt : c.delivered.length < c.sent.length) (hnone : c.receiver.getEntrySequenced = none) :
    ∃ e ∈ c.sender.array, c.Holds c.delivered.length e :=
  (h.kept _ hlt).resolve_right (h.not_received hbound hlt hnone)

/-- The receiver has a buffer for the message that it waits for, whatever came too early. -/
theorem Inv.canGet (h : c.Inv sid) (hpos : 0 < c.receiver.array.length)
    (hnone : c.receiver.getEntrySequenced = none) : c.receiver.canGet = true := by
  have hsize := h.receiver_size
  rw [Reliable.canGet_iff]
  refine @Distinct.exists_inactive _ h.distinct (c.delivered.length + 1)
    (c.receiver.array.length - 1) (by omega) ?_
  intro e he hactive
  obtain ⟨k, hlo, hhi, hid, hm⟩ := h.window e he hactive
  have hne : k ≠ c.delivered.length := by
    rintro rfl
    obtain ⟨i, hi⟩ := Reliable.getEntrySequenced_isSome he hactive (hid.trans h.expects.symm)
    rw [hnone] at hi
    cases hi
  exact ⟨k, by omega, by omega, hid⟩

/-- When it arrives it is taken, and handed over next. -/
theorem Inv.receive_missing (h : c.Inv sid) (hbound : c.sent.length ≤ 2 ^ 31)
    (hpos : 0 < c.receiver.array.length) (hnone : c.receiver.getEntrySequenced = none)
    {m : ControlMessage} (hm : c.sent[c.delivered.length]? = some m) (hop : m.opcode ≠ P_ACK_V1)
    {capacity : Nat} (hfits : m.buf.length ≤ capacity) :
    (c.receiveMessage capacity m.opcode
      (packetIdBytes (.ofNat c.delivered.length) ++ m.buf)).deliver.delivered =
        c.delivered ++ [m] := by
  have hlt := (List.getElem?_eq_some_iff.mp hm).1
  have hcan := h.canGet hpos hnone
  have hwont := (h.wontBreak_iff hbound hlt).mpr (by omega)
  have hfresh : ∀ e ∈ c.receiver.array, e.active = true →
      e.packet_id ≠ .ofNat c.delivered.length := fun e he hactive hid =>
    h.not_received hbound hlt hnone ⟨_, hlt, rfl, .inr ⟨e, he, hactive, hid⟩⟩
  have hreplay := (h.notReplay_iff hbound hlt).mpr ⟨Nat.le_refl _, hfresh⟩
  obtain ⟨i, hi⟩ := Reliable.getBuf_isSome hcan
  obtain ⟨e₀, he₀, hinactive⟩ := Reliable.getBuf_spec hi
  obtain ⟨c', hc', hinv, hreceived, hdelivered, hsent, e, he, hactive, hid⟩ :=
    h.store he₀ hinactive hm (Nat.le_refl _) (by omega) hfresh hbound
  have hstored : c.receiveMessage capacity m.opcode
      (packetIdBytes (.ofNat c.delivered.length) ++ m.buf) =
        c'.acknowledge (.ofNat c.delivered.length) := by
    rw [ReliableChannel.receiveMessage, if_pos ⟨hop, hcan⟩, readPacketId_append]
    dsimp only
    rw [if_pos hwont, if_pos hreplay, hi]
    dsimp only
    rw [if_pos hfits, hc']
    rfl
  have hinv' := hinv.acknowledge hreceived
  have hbound' : c'.sent.length ≤ 2 ^ 31 := by rw [hsent]; exact hbound
  rw [hstored, ReliableChannel.deliver]
  obtain ⟨j, hj⟩ : ∃ j, c'.receiver.getEntrySequenced = some j :=
    Reliable.getEntrySequenced_isSome he hactive (by rw [hid, hinv.expects, hdelivered])
  have hover := (hinv.handOver hbound' hj).2
  rw [hsent, hdelivered, hm, Option.some.injEq] at hover
  have hj' : (c'.acknowledge (.ofNat c.delivered.length)).receiver.getEntrySequenced = some j := hj
  rw [hj']
  change c'.delivered ++ [(⟨c'.receiver.array[j]!.opcode, c'.receiver.array[j]!.buf⟩ :
    ControlMessage)] = _
  rw [← hover, hdelivered]

end ReliableChannel

end OpenVpnAndroid
