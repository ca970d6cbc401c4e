/-
  OpenVpnAndroid/ControlChannel.lean
  ==================================
  **The control channel between two peers**, from the reliability layer of one to that
  of the other (`tls_process_state`, `tls_process`, `write_control_auth` and the last part
  of `tls_pre_decrypt`).

  The two directions share the packets: what a peer sends carries a message of its own
  direction, or none, behind the acknowledgements for the other one.  In every run the
  messages arrive once and in order; what the sender has given up has arrived; and
  from every state that a run can reach the channel can still be emptied.
-/
import OpenVpnAndroid.Machine
import OpenVpnAndroid.ReliableChannel

namespace OpenVpnAndroid

def TLS_RELIABLE_N_SEND_BUFFERS : Nat := 6
def TLS_RELIABLE_N_REC_BUFFERS : Nat := 12
def CONTROL_SEND_ACK_MAX : Nat := 4

inductive Side
  | client
  | server
deriving DecidableEq

def Side.other : Side → Side
  | .client => .server
  | .server => .client

namespace Side

@[simp] theorem other_other (p : Side) : p.other.other = p := by cases p <;> rfl

@[simp] theorem other_ne (p : Side) : p.other ≠ p := by cases p <;> exact Side.noConfusion

theorem eq_or_eq_other (p q : Side) : q = p ∨ q = p.other := by
  cases p <;> cases q <;> simp [other]

end Side

/-- What both peers go by: their session ids, their options, and the size of a buffer. -/
structure ControlSession where
  session_id : Side → SessionId
  xmit_hold : Side → Bool
  packet_timeout : Side → Int
  /-- A client without encryption of the control channel and without keying material export. -/
  softether : Side → Bool
  capacity : Nat

/-- The channel from each side to the other.  A peer is the sender of its own and the
    receiver of the other one, with the acknowledgements for it. -/
abbrev ControlChannel := Side → ReliableChannel

namespace ControlChannel

/-- What can happen at the side `p`. -/
inductive Event
  /-- A message is to be sent. -/
  | output (p : Side) (m : ControlMessage)
  /-- A packet goes out that is due at the time `now`. -/
  | transmit (p : Side) (now : Int)
  /-- A dedicated acknowledgement goes out. -/
  | sendAck (p : Side)
  /-- The peer came up: everything is sent again. -/
  | scheduleNow (p : Side) (now : Int)
  /-- A packet arrives, the `i`-th of all that the other side has ever sent. -/
  | receive (p : Side) (i : Nat)
  /-- The next message goes to the TLS object. -/
  | deliver (p : Side)
deriving DecidableEq

variable (session : ControlSession)

/-- `key_state_init` on both sides. -/
def initial : ControlChannel := fun p =>
  { sender := .init TLS_RELIABLE_N_SEND_BUFFERS (session.xmit_hold p) (session.packet_timeout p)
    receiver := .init TLS_RELIABLE_N_REC_BUFFERS false 0
    rec_ack := .empty
    lru_acks := .empty
    forward := []
    backward := []
    sent := []
    delivered := [] }

/-- A packet of `p` goes out: its direction and the other one see it. -/
def writeControlAuth (c : ControlChannel) (p : Side) (opcode : Nat) (buf : List UInt8)
    (max_ack : Nat) : ControlChannel :=
  let max_ack := if session.softether p then min max_ack 4 else max_ack
  let (acks, rec_ack, lru_acks) := ReliableAck.write (c p.other).rec_ack (c p.other).lru_acks max_ack
  let packet : ControlPacket := ⟨opcode, ackRecord acks (session.session_id p.other) ++ buf⟩
  fun q => if q = p then (c p).emit packet else (c q).emitAcks rec_ack lru_acks packet

def transmit (c : ControlChannel) (p : Side) (now : Int) : ControlChannel :=
  if (c p).sender.canSend now then
    match (c p).sender.send now with
    | none => c
    | some (e, sender) =>
        writeControlAuth session (Function.update c p { c p with sender := sender }) p e.opcode e.buf
          CONTROL_SEND_ACK_MAX
  else c

def sendAck (c : ControlChannel) (p : Side) : ControlChannel :=
  if (c p.other).rec_ack.packet_id = [] then c
  else writeControlAuth session c p P_ACK_V1 [] RELIABLE_ACK_SIZE

/-- The acknowledgements are for the messages of `p`, and what is behind them for `p` to
    take. -/
def receive (c : ControlChannel) (p : Side) (packet : ControlPacket) : ControlChannel :=
  match reliableAckRead packet.bytes (session.session_id p) with
  | none => c
  | some (send_ack, buf) => fun q =>
      if q = p then (c p).purge send_ack
      else (c q).receiveMessage session.capacity packet.opcode buf

def step (c : ControlChannel) : Event → ControlChannel
  | .output p m => Function.update c p ((c p).output m)
  | .transmit p now => transmit session c p now
  | .sendAck p => sendAck session c p
  | .scheduleNow p now => Function.update c p { c p with sender := (c p).sender.scheduleNow now }
  | .receive p i =>
      match (c p.other).forward[i]? with
      | none => c
      | some packet => receive session c p packet
  | .deliver p => Function.update c p.other (c p.other).deliver

def machine : Machine ControlChannel Event where
  initial := initial session
  step := step session

/-! ### What all runs keep -/

structure Inv (c : ControlChannel) : Prop where
  shared : ∀ p, (c p).backward = (c p.other).forward
  channel : ∀ p, (c p).Inv (session.session_id p)

variable {session} {c : ControlChannel}

/-- A change of one direction that leaves its packets as they are. -/
theorem Inv.update (h : Inv session c) {p : Side} {d : ReliableChannel}
    (hd : d.Inv (session.session_id p)) (hforward : d.forward = (c p).forward)
    (hbackward : d.backward = (c p).backward) : Inv session (Function.update c p d) := by
  refine ⟨fun q => ?_, fun q => ?_⟩
  · rcases Side.eq_or_eq_other p q with rfl | rfl
    · rw [Function.update_self, Function.update_of_ne (Side.other_ne _), hbackward]
      exact h.shared _
    · rw [Side.other_other, Function.update_self, Function.update_of_ne (Side.other_ne _), hforward]
      have hshared := h.shared p.other
      rw [Side.other_other] at hshared
      exact hshared
  · rcases Side.eq_or_eq_other p q with rfl | rfl
    · rw [Function.update_self]
      exact hd
    · rw [Function.update_of_ne (Side.other_ne _)]
      exact h.channel _

theorem Inv.writeControlAuth (h : Inv session c) {p : Side} {opcode : Nat} {buf : List UInt8}
    (hcarries : opcode ≠ P_ACK_V1 → ∃ k m, (c p).sent[k]? = some m ∧ opcode = m.opcode ∧
      buf = packetIdBytes (.ofNat k) ++ m.buf) (max_ack : Nat) :
    Inv session (writeControlAuth session c p opcode buf max_ack) := by
  unfold ControlChannel.writeControlAuth
  refine ⟨fun q => ?_, fun q => ?_⟩
  · have hshared := h.shared q
    rcases Side.eq_or_eq_other p q with rfl | rfl
    · simp only [if_pos, if_neg (Side.other_ne _)]
      exact hshared
    · rw [Side.other_other] at hshared
      simp only [Side.other_other, if_pos, if_neg (Side.other_ne _)]
      exact congrArg (· ++ [_]) hshared
  · rcases Side.eq_or_eq_other p q with rfl | rfl
    · simp only [if_pos]
      refine (h.channel q).emit fun hop => ?_
      obtain ⟨k, m, hm, hopcode, hbuf⟩ := hcarries hop
      exact ⟨k, _, _, m, ReliableAck.length_write_le _ _ _, hm, hopcode, by rw [hbuf]⟩
    · simp only [if_neg (Side.other_ne _)]
      exact (h.channel p.other).emitAcks _ opcode buf

theorem Inv.transmit (h : Inv session c) (p : Side) (now : Int) :
    Inv session (transmit session c p now) := by
  unfold ControlChannel.transmit
  split
  · cases hsend : (c p).sender.send now with
    | none => exact h
    | some sent =>
        obtain ⟨e, sender⟩ := sent
        obtain ⟨hinv, k, -, -, m, hm, hopcode, hbuf⟩ := (h.channel p).send hsend
        refine (h.update hinv rfl rfl).writeControlAuth (fun _ => ⟨k, m, ?_, hopcode, hbuf⟩) _
        rw [Function.update_self]
        exact hm
  · exact h

theorem Inv.sendAck (h : Inv session c) (p : Side) : Inv session (sendAck session c p) := by
  unfold ControlChannel.sendAck
  split
  · exact h
  · exact h.writeControlAuth (fun hop => absurd rfl hop) _

/-- A packet arrives that the other side sent. -/
theorem Inv.receive (h : Inv session c) {p : Side} {packet : ControlPacket}
    (hpacket : packet ∈ (c p.other).forward) (hbound : (c p.other).sent.length ≤ 2 ^ 31) :
    Inv session (receive session c p packet) := by
  have hacks : (c p).Acknowledges (session.session_id p) packet :=
    (h.channel p).backward packet (by rw [h.shared p]; exact hpacket)
  obtain ⟨acks, buf, hread, hreceived⟩ := hacks.read
  unfold ControlChannel.receive
  rw [hread]
  obtain ⟨receiver, rec_ack, hmessage, -⟩ :=
    (c p.other).receiveMessage_eq session.capacity packet.opcode buf
  refine ⟨fun q => ?_, fun q => ?_⟩
  · have hshared := h.shared q
    rcases Side.eq_or_eq_other p q with rfl | rfl
    · simp only [if_pos, if_neg (Side.other_ne _), hmessage]
      exact hshared
    · rw [Side.other_other] at hshared
      simp only [Side.other_other, if_pos, if_neg (Side.other_ne _), hmessage]
      exact hshared
  · rcases Side.eq_or_eq_other p q with rfl | rfl
    · simp only [if_pos]
      exact (h.channel q).purge hreceived
    · simp only [if_neg (Side.other_ne _)]
      by_cases hop : packet.opcode = P_ACK_V1
      · rw [ReliableChannel.receiveMessage, if_neg (not_and_of_not_left _ (not_not_intro hop))]
        exact h.channel _
      · obtain ⟨k, hk⟩ := (h.channel p.other).forward packet hpacket hop
        obtain ⟨m, hm, hopcode, rfl⟩ := hk.read hacks hread
        rw [hopcode]
        exact (h.channel _).receiveMessage hbound _ hm

theorem Inv.step (h : Inv session c) (hbound : ∀ p, (c p).sent.length ≤ 2 ^ 31) (e : Event) :
    Inv session (step session c e) := by
  cases e with
  | output p m =>
      have hinv := (h.channel p).output m (hbound p)
      rcases (c p).output_eq m with heq | ⟨i, heq⟩
      · exact h.update hinv (by rw [heq]) (by rw [heq])
      · exact h.update hinv (by rw [heq]; rfl) (by rw [heq]; rfl)
  | transmit p now => exact h.transmit p now
  | sendAck p => exact h.sendAck p
  | scheduleNow p now => exact h.update ((h.channel p).scheduleNow now) rfl rfl
  | receive p i =>
      rw [ControlChannel.step]
      cases hi : (c p.other).forward[i]? with
      | none => exact h
      | some packet => exact h.receive (List.mem_of_getElem? hi) (hbound _)
  | deliver p =>
      have hinv := (h.channel p.other).deliver (hbound _)
      rcases (c p.other).deliver_eq with heq | ⟨i, -, heq⟩
      · exact h.update hinv (by rw [heq]) (by rw [heq])
      · exact h.update hinv (by rw [heq]; rfl) (by rw [heq]; rfl)

/-- The layers above ask for it. -/
def Event.asked : Event → Bool
  | .output _ _ => true
  | .scheduleNow _ _ => true
  | _ => false

/-- What an event does to the two directions. -/
theorem step_cases (session : ControlSession) (c : ControlChannel) (e : Event) (q : Side) :
    (c q).Step e.asked (step session c e q) := by
  have hupdate : ∀ (asked : Bool) (p : Side) (d : ReliableChannel), (c p).Step asked d →
      (c q).Step asked (Function.update c p d q) := by
    intro asked p d hd
    rw [Function.update_apply]
    split
    · next hqp => rw [hqp]; exact hd
    · exact .same _
  cases e with
  | output p m =>
      refine hupdate _ p _ ?_
      rcases (c p).output_eq m with heq | ⟨i, heq⟩
      · rw [heq]; exact .same _
      · rw [heq]; exact .handOut i m
  | transmit p now =>
      rw [step, transmit]
      split
      · cases hsend : (c p).sender.send now with
        | none => exact .same _
        | some sent =>
            dsimp only
            rw [writeControlAuth]
            dsimp only
            rcases Side.eq_or_eq_other p q with rfl | rfl
            · rw [if_pos rfl, Function.update_self]
              exact .transmit now sent.1 sent.2 _ hsend
            · rw [if_neg (Side.other_ne p), Function.update_of_ne (Side.other_ne p)]
              exact .emitAcks _ _ _
      · exact .same _
  | sendAck p =>
      rw [step, sendAck]
      split
      · exact .same _
      · rw [writeControlAuth]
        dsimp only
        rcases Side.eq_or_eq_other p q with rfl | rfl
        · rw [if_pos rfl]
          exact .emit _
        · rw [if_neg (Side.other_ne p)]
          exact .emitAcks _ _ _
  | scheduleNow p now => exact hupdate _ p _ (.scheduleNow now)
  | receive p i =>
      rw [step]
      cases (c p.other).forward[i]? with
      | none => exact .same _
      | some packet =>
          dsimp only
          rw [receive]
          cases reliableAckRead packet.bytes (session.session_id p) with
          | none => exact .same _
          | some read =>
              dsimp only
              split
              · next hqp => rw [hqp]; exact .purge _
              · exact .receiveMessage _ _ _
  | deliver p =>
      refine hupdate _ p.other _ ?_
      rcases (c p.other).deliver_eq with heq | ⟨i, -, heq⟩
      · rw [heq]; exact .same _
      · rw [heq]; exact .handOver i

/-- No run sends more than half a turn of the counter. -/
def Bounded (c : ControlChannel) : Prop := ∀ p, (c p).sent.length ≤ 2 ^ 31

theorem inv_initial (session : ControlSession) : Inv session (initial session) := by
  have hinactive : ∀ n : Nat, ∀ e ∈ List.replicate n (⟨false, 0, 0, 0, 0, 0, []⟩ : ReliableEntry),
      e.active = true → False := by
    intro n e he hactive
    rw [List.eq_of_mem_replicate he] at hactive
    cases hactive
  have hdistinct : ∀ n : Nat, ReliableChannel.Distinct
      (List.replicate n (⟨false, 0, 0, 0, 0, 0, []⟩ : ReliableEntry)) := by
    intro n
    rw [ReliableChannel.Distinct, List.pairwise_replicate]
    exact .inr fun hactive => absurd hactive Bool.false_ne_true
  refine ⟨fun p => rfl, fun p => ?_⟩
  exact
    { sender_size := by
        have hsize : (initial session p).sender.array.length = TLS_RELIABLE_N_SEND_BUFFERS :=
          List.length_replicate
        rw [hsize]
        decide
      receiver_size := by
        have hsize : (initial session p).receiver.array.length = TLS_RELIABLE_N_REC_BUFFERS :=
          List.length_replicate
        rw [hsize]
        decide
      counter := rfl
      held := fun e he hactive => (hinactive _ e he hactive).elim
      sender_distinct := hdistinct _
      kept := fun k hk => absurd hk (Nat.not_lt_zero k)
      forward := fun p hp => absurd hp List.not_mem_nil
      expects := rfl
      in_order := List.prefix_refl _
      window := fun e he hactive => (hinactive _ e he hactive).elim
      distinct := hdistinct _
      rec_ack := fun pid hpid => absurd hpid List.not_mem_nil
      lru_acks := fun pid hpid => absurd hpid List.not_mem_nil
      backward := fun p hp => absurd hp List.not_mem_nil }

theorem inv_run (es : List Event) (hbound : Bounded ((machine session).run es)) :
    Inv session ((machine session).run es) := by
  refine Machine.invariant (I := fun c => Bounded c → Inv session c) ?_ ?_ es hbound
  · exact fun _ => inv_initial session
  · intro c e ih hbound
    have hbefore : Bounded c := fun p =>
      Nat.le_trans (step_cases session c e p).sent.length_le (hbound p)
    exact (ih hbefore).step hbefore e

theorem timed_run (hpos : ∀ p, 0 < session.packet_timeout p) (es : List Event) (p : Side) :
    ((machine session).run es p).sender.Timed := by
  refine Machine.invariant (I := fun c : ControlChannel => (c p).sender.Timed) ?_ ?_ es
  · refine ⟨hpos p, fun e he hactive => ?_⟩
    rw [List.eq_of_mem_replicate he] at hactive
    cases hactive
  · exact fun c e ih => (step_cases session c e p).timed ih

theorem receiver_size_run (session : ControlSession) (es : List Event) (p : Side) :
    ((machine session).run es p).receiver.array.length = TLS_RELIABLE_N_REC_BUFFERS := by
  refine Machine.invariant (I := fun c : ControlChannel =>
    (c p).receiver.array.length = TLS_RELIABLE_N_REC_BUFFERS) List.length_replicate ?_ es
  exact fun c e ih => (step_cases session c e p).receiver_size.trans ih

/-- What a run changes that nothing is asked of. -/
theorem quiet_run (session : ControlSession) (es more : List Event)
    (hquiet : ∀ e ∈ more, e.asked = false) (p : Side) :
    ((machine session).run (es ++ more) p).sent = ((machine session).run es p).sent ∧
      ((machine session).run (es ++ more) p).sender.hold =
        ((machine session).run es p).sender.hold := by
  induction more using List.reverseRecOn with
  | nil => rw [List.append_nil]; exact ⟨rfl, rfl⟩
  | append_singleton more e ih =>
      have hbefore := ih fun e' he' => hquiet e' (List.mem_append_left _ he')
      have hstep := step_cases session ((machine session).run (es ++ more)) e p
      rw [hquiet e (by simp)] at hstep
      rw [← List.append_assoc, Machine.run_append_singleton]
      exact ⟨hstep.quiet.1.trans hbefore.1, hstep.quiet.2.trans hbefore.2⟩

theorem Bounded.append {es : List Event} (hbound : Bounded ((machine session).run es))
    {more : List Event} (hquiet : ∀ e ∈ more, e.asked = false) :
    Bounded ((machine session).run (es ++ more)) := fun p => by
  rw [(quiet_run session es more hquiet p).1]
  exact hbound p

/-! ### Nothing gets stuck -/

/-- What a transmission puts on the way. -/
theorem transmit_self (session : ControlSession) {c : ControlChannel} {p : Side} {now : Int}
    {e : ReliableEntry} {sender : Reliable} (hcan : (c p).sender.canSend now = true)
    (hsend : (c p).sender.send now = some (e, sender)) :
    ∃ acks : List PacketId, acks.length ≤ RELIABLE_ACK_SIZE ∧
      step session c (.transmit p now) p =
        ({ c p with sender := sender } : ReliableChannel).emit
          ⟨e.opcode, ackRecord acks (session.session_id p.other) ++ e.buf⟩ := by
  rw [step, transmit, if_pos hcan, hsend]
  dsimp only
  rw [writeControlAuth]
  dsimp only
  rw [if_pos rfl, Function.update_self]
  exact ⟨_, ReliableAck.length_write_le _ _ _, rfl⟩

/-- A message that is held goes out, after others that are due at the same time. -/
theorem exists_transmitted (hpos : ∀ p, 0 < session.packet_timeout p) {p : Side} {now : Int}
    {k : Nat} {e₀ : ReliableEntry} (hdue : Reliable.due now e₀ = true) (es : List Event)
    (hbound : Bounded ((machine session).run es))
    (hhold : ((machine session).run es p).sender.hold = false)
    (he₀ : e₀ ∈ ((machine session).run es p).sender.array)
    (hk : ((machine session).run es p).Holds k e₀) :
    ∃ n, (∃ packet ∈ ((machine session).run (es ++ List.replicate n (.transmit p now)) p).forward,
        ((machine session).run (es ++ List.replicate n (.transmit p now)) p).Carries k packet) ∧
      ((machine session).run (es ++ List.replicate n (.transmit p now)) p).receiver =
        ((machine session).run es p).receiver ∧
      ((machine session).run (es ++ List.replicate n (.transmit p now)) p).delivered =
        ((machine session).run es p).delivered := by
  -- each transmission takes one of the entries that are due
  induction hn : ((machine session).run es p).sender.array.countP (Reliable.due now)
    using Nat.strong_induction_on generalizing es with
  | _ n ih =>
    have hcan : ((machine session).run es p).sender.canSend now = true := by
      rw [Reliable.canSend, hhold, Bool.and_eq_true, List.any_eq_true]
      exact ⟨⟨e₀, he₀, hdue⟩, rfl⟩
    obtain ⟨sent, hsend⟩ := Option.isSome_iff_exists.mp (Reliable.send_isSome hcan)
    obtain ⟨e, sender⟩ := sent
    obtain ⟨acks, hlen, hstep⟩ := transmit_self session hcan hsend
    have hrun : (machine session).run (es ++ [.transmit p now]) p =
        ({ (machine session).run es p with sender := sender } : ReliableChannel).emit
          ⟨e.opcode, ackRecord acks (session.session_id p.other) ++ e.buf⟩ := by
      rw [Machine.run_append_singleton]
      exact hstep
    obtain ⟨i, hi, hduei, hsender⟩ := Reliable.send_spec hsend
    by_cases hsame : e = e₀
    · subst hsame
      obtain ⟨-, -, m, hm, hopcode, hbuf⟩ := hk
      refine ⟨1, ?_⟩
      rw [List.replicate_one, hrun]
      exact ⟨⟨_, List.mem_append_right _ (List.mem_singleton_self _), acks,
        session.session_id p.other, m, hlen, hm, hopcode, by rw [hbuf]⟩, rfl, rfl⟩
    · have hquiet : ∀ e' ∈ [Event.transmit p now], e'.asked = false := by
        intro e' he'
        rw [List.mem_singleton.mp he']
        rfl
      have htimeout : 0 < e.timeout := by
        rw [Reliable.due, Bool.and_eq_true] at hduei
        exact (timed_run hpos es p).active e (List.mem_of_getElem? hi) hduei.1
      have hfewer : ((machine session).run (es ++ [.transmit p now]) p).sender.array.countP
          (Reliable.due now) < n := by
        rw [hrun, ← hn]
        exact Reliable.countP_due_send htimeout hsend
      have hthere : e₀ ∈ ((machine session).run (es ++ [.transmit p now]) p).sender.array := by
        rw [hrun]
        change e₀ ∈ sender.array
        rw [hsender]
        obtain ⟨j, hj, rfl⟩ := List.getElem_of_mem he₀
        have hj' := List.getElem?_eq_getElem hj
        refine Reliable.mem_set_of_ne hj' ?_ _
        rintro rfl
        exact hsame (Option.some.inj (hi.symm.trans hj'))
      obtain ⟨n', hcarried, hreceiver, hdelivered⟩ := ih _ hfewer (es ++ [.transmit p now])
        (hbound.append hquiet) ((quiet_run session es _ hquiet p).2.trans hhold) hthere
        (by rw [hrun]; exact hk) rfl
      refine ⟨n' + 1, ?_⟩
      have happend : es ++ List.replicate (n' + 1) (Event.transmit p now) =
          es ++ [.transmit p now] ++ List.replicate n' (.transmit p now) := by
        rw [List.append_assoc, List.singleton_append, List.replicate_succ]
      rw [happend]
      refine ⟨hcarried, ?_, ?_⟩
      · rw [hreceiver, hrun]
        rfl
      · rw [hdelivered, hrun]
        rfl

/-- The next message can be handed over, whatever happened before. -/
theorem exists_delivered (hpos : ∀ p, 0 < session.packet_timeout p) {p : Side} (now : Int)
    (es : List Event) (hbound : Bounded ((machine session).run es))
    (hhold : ((machine session).run es p).sender.hold = false)
    (hfits : ∀ m ∈ ((machine session).run es p).sent,
      m.opcode ≠ P_ACK_V1 ∧ m.buf.length ≤ session.capacity)
    (hlt : ((machine session).run es p).delivered.length < ((machine session).run es p).sent.length) :
    ∃ more, (∀ e ∈ more, e.asked = false) ∧ (∀ q t, Event.transmit q t ∈ more → now ≤ t) ∧
      ((machine session).run (es ++ more) p).delivered.length =
        ((machine session).run es p).delivered.length + 1 := by
  have hinv := (inv_run es hbound).channel p
  have hdeliver : ∀ es : List Event, (machine session).run (es ++ [.deliver p.other]) p =
      ((machine session).run es p).deliver := by
    intro es
    rw [Machine.run_append_singleton]
    change step session _ (.deliver p.other) p = _
    rw [step, Side.other_other, Function.update_self]
  cases hi : ((machine session).run es p).receiver.getEntrySequenced with
  | some i =>
      refine ⟨[.deliver p.other], ?_, ?_, ?_⟩
      · intro e he
        rw [List.mem_singleton.mp he]
        rfl
      · intro q t ht
        exact Event.noConfusion (List.mem_singleton.mp ht)
      · rw [hdeliver, ReliableChannel.deliver, hi]
        exact List.length_append
  | none =>
      obtain ⟨e₀, he₀, hk⟩ := hinv.missing_held (hbound p) hlt hi
      -- a time at which the message is due
      obtain ⟨t, hnow, hdue⟩ : ∃ t, now ≤ t ∧ Reliable.due t e₀ = true := by
        refine ⟨max now e₀.next_try, Int.le_max_left _ _, ?_⟩
        rw [Reliable.due, hk.1, decide_eq_true (Int.le_max_right now e₀.next_try), Bool.or_true]
        rfl
      obtain ⟨n, ⟨packet, hpacket, hcarries⟩, hreceiver, hdelivered⟩ :=
        exists_transmitted hpos hdue es hbound hhold he₀ hk
      have hquiet : ∀ e ∈ List.replicate n (Event.transmit p t), e.asked = false := by
        intro e he
        rw [List.eq_of_mem_replicate he]
        rfl
      obtain ⟨i, hget⟩ := List.getElem?_of_mem hpacket
      refine ⟨List.replicate n (.transmit p t) ++ [.receive p.other i, .deliver p.other], ?_, ?_, ?_⟩
      · intro e he
        rcases List.mem_append.mp he with he | he
        · exact hquiet e he
        · simp only [List.mem_cons, List.not_mem_nil, or_false] at he
          rcases he with rfl | rfl
          · rfl
          · rfl
      · intro q t' ht'
        rcases List.mem_append.mp ht' with ht' | ht'
        · have heq := List.eq_of_mem_replicate ht'
          injection heq with _ htime
          rw [htime]
          exact hnow
        · simp only [List.mem_cons, List.not_mem_nil, or_false, reduceCtorEq] at ht'
      · have hbound' := hbound.append hquiet
        have hinv' := inv_run _ hbound'
        have hsent := (quiet_run session es _ hquiet p).1
        generalize hes' : es ++ List.replicate n (Event.transmit p t) = es' at *
        have hacks : ((machine session).run es' p.other).Acknowledges
            (session.session_id p.other) packet := by
          refine (hinv'.channel p.other).backward packet ?_
          rw [hinv'.shared, Side.other_other]
          exact hpacket
        obtain ⟨acks, buf, hread, -⟩ := hacks.read
        obtain ⟨m, hm, hopcode, rfl⟩ := hcarries.read hacks hread
        have hmem : m ∈ ((machine session).run es p).sent := by
          rw [← hsent]
          exact List.mem_of_getElem? hm
        have hreceive : (machine session).run (es' ++ [.receive p.other i]) p =
            ((machine session).run es' p).receiveMessage session.capacity m.opcode
              (packetIdBytes (.ofNat ((machine session).run es' p).delivered.length) ++ m.buf) := by
          rw [Machine.run_append_singleton]
          change step session _ (.receive p.other i) p = _
          rw [step, Side.other_other, hget]
          dsimp only
          rw [receive, hread]
          dsimp only
          rw [if_neg (fun h => Side.other_ne p h.symm), hopcode, hdelivered]
        have hsize : 0 < ((machine session).run es' p).receiver.array.length := by
          rw [receiver_size_run]
          decide
        have htaken := (hinv'.channel p).receive_missing (hbound' p) hsize
          (by rw [hreceiver]; exact hi) (by rw [hdelivered]; exact hm) (hfits m hmem).1
          (hfits m hmem).2
        have happend : es ++ (List.replicate n (Event.transmit p t) ++
            [.receive p.other i, .deliver p.other]) =
              es' ++ [.receive p.other i] ++ [.deliver p.other] := by
          rw [← List.append_assoc, hes', List.append_assoc, List.singleton_append]
        rw [happend, hdeliver, hreceive, htaken, List.length_append, hdelivered,
          List.length_singleton]

/-! ### What holds of every run -/

/-- **Once and in order.**  What a peer hands over to its TLS object are the first messages of
    the other one. -/
theorem delivered_prefix_sent (session : ControlSession) (es : List Event)
    (hbound : Bounded ((machine session).run es)) (p : Side) :
    ((machine session).run es p).delivered <+: ((machine session).run es p).sent :=
  ((inv_run es hbound).channel p).in_order

/-- **Nothing is given up.**  When a sender has no message left, each of them was handed over
    on the other side or waits there in a buffer. -/
theorem arrived_of_empty (session : ControlSession) (es : List Event)
    (hbound : Bounded ((machine session).run es)) (p : Side)
    (hempty : ((machine session).run es p).sender.empty = true) (k : Nat) (m : ControlMessage)
    (hm : ((machine session).run es p).sent[k]? = some m) :
    ((machine session).run es p).delivered[k]? = some m ∨
      ∃ e ∈ ((machine session).run es p).receiver.array, e.active = true ∧ e.packet_id = .ofNat k ∧
        e.opcode = m.opcode ∧ e.buf = m.buf := by
  have hinv := (inv_run es hbound).channel p
  have hle := hinv.delivered_le
  have hlt := (List.getElem?_eq_some_iff.mp hm).1
  have hsize := hinv.receiver_size
  have hsent := hbound p
  rcases hinv.kept k hlt with ⟨e, he, hk⟩ | ⟨k', hk', hid, hwhere⟩
  · rw [Reliable.empty, List.all_eq_true] at hempty
    have hinactive := hempty e he
    rw [hk.1] at hinactive
    exact absurd hinactive Bool.false_ne_true
  · obtain rfl : k = k' := SerialNumber.ofNat_inj_of_near (by omega) (by omega) hid
    rcases hwhere with hbefore | ⟨e, he, hactive, hpid⟩
    · obtain ⟨rest, hrest⟩ := hinv.in_order
      rw [← hrest, List.getElem?_append_left hbefore] at hm
      exact .inl hm
    · obtain ⟨k', -, hhi, hid', hm'⟩ := hinv.window e he hactive
      obtain rfl : k = k' :=
        SerialNumber.ofNat_inj_of_near (by omega) (by omega) (hpid.symm.trans hid')
      obtain rfl := Option.some.inj (hm'.symm.trans hm)
      exact .inr ⟨e, he, hactive, hpid, rfl, rfl⟩

/-- **The number of buffers.**  Of the messages that are handed over one after the other exactly
    the first are taken, as many as `reliable_get_num_output_sequenced_available` said. -/
theorem sent_outputs (session : ControlSession) (es : List Event)
    (hbound : Bounded ((machine session).run es)) (p : Side) (ms : List ControlMessage)
    (hlen : ((machine session).run es p).sent.length + ms.length ≤ 2 ^ 31) :
    ((machine session).run (es ++ ms.map (Event.output p)) p).sent =
      ((machine session).run es p).sent ++
        ms.take ((machine session).run es p).sender.getNumOutputSequencedAvailable.toNat := by
  have hfold : ∀ (ms : List ControlMessage) (c : ControlChannel),
      (machine session).runFrom c (ms.map (Event.output p)) p =
        ms.foldl ReliableChannel.output (c p) := by
    intro ms
    induction ms with
    | nil => exact fun _ => rfl
    | cons m ms ih =>
        intro c
        rw [List.map_cons, Machine.runFrom_cons, ih, List.foldl_cons]
        change ms.foldl ReliableChannel.output (Function.update c p ((c p).output m) p) = _
        rw [Function.update_self]
  rw [Machine.run_append, hfold]
  exact ((inv_run es hbound).channel p).sent_foldl_output ms hlen

/-! ### A run -/

/-- Two peers with sessions of ones and of twos. -/
def twoPeers : ControlSession where
  session_id
    | .client => ⟨List.replicate 8 1, rfl, by decide⟩
    | .server => ⟨List.replicate 8 2, rfl, by decide⟩
  xmit_hold _ := false
  packet_timeout _ := 2
  softether _ := false
  capacity := 4

/-- Two messages of the client, the second of which arrives first, twice, and is
    acknowledged. -/
def overtaken : List Event :=
  [.output .client ⟨4, [10]⟩, .output .client ⟨4, [20, 21]⟩, .transmit .client 0,
    .transmit .client 0, .receive .server 1, .receive .server 1, .deliver .server, .sendAck .server,
    .receive .client 0]

theorem bounded_overtaken (more : List Event) (hmore : ∀ e ∈ more, e.asked = false) :
    Bounded ((machine twoPeers).run (overtaken ++ more)) := by
  have h : Bounded ((machine twoPeers).run overtaken) := by
    intro p
    cases p <;> decide +kernel
  exact h.append hmore

theorem delivered_prefix_sent_overtaken :
    ((machine twoPeers).run (overtaken ++ [.receive .server 0, .deliver .server, .deliver .server])
        .client).delivered = [⟨4, [10]⟩, ⟨4, [20, 21]⟩] ∧
      ((machine twoPeers).run
        (overtaken ++ [.receive .server 0, .deliver .server, .deliver .server]) .client).delivered <+:
      ((machine twoPeers).run
        (overtaken ++ [.receive .server 0, .deliver .server, .deliver .server]) .client).sent :=
  ⟨by decide +kernel, delivered_prefix_sent twoPeers _ (bounded_overtaken _ (by decide)) .client⟩

/-- Both messages were acknowledged, and one of them waits in a buffer. -/
theorem arrived_of_empty_overtaken :
    let es := overtaken ++ [.receive .server 0, .sendAck .server, .receive .client 1, .deliver .server]
    ((machine twoPeers).run es .client).sender.empty = true ∧
      (((machine twoPeers).run es .client).delivered[1]? = some ⟨4, [20, 21]⟩ ∨
        ∃ e ∈ ((machine twoPeers).run es .client).receiver.array, e.active = true ∧
          e.packet_id = .ofNat 1 ∧ e.opcode = 4 ∧ e.buf = [20, 21]) :=
  ⟨by decide +kernel, arrived_of_empty twoPeers _ (bounded_overtaken _ (by decide)) .client
    (by decide +kernel) 1 ⟨4, [20, 21]⟩ (by decide +kernel)⟩

/-- The window of six is not empty before the first message is acknowledged: four more are
    taken. -/
theorem sent_outputs_overtaken :
    ((machine twoPeers).run overtaken .client).sender.getNumOutputSequencedAvailable = 4 ∧
      ((machine twoPeers).run (overtaken ++ (List.replicate 9 ⟨4, []⟩).map (Event.output .client))
        .client).sent =
      ((machine twoPeers).run overtaken .client).sent ++ (List.replicate 9 ⟨4, []⟩).take
        ((machine twoPeers).run overtaken .client).sender.getNumOutputSequencedAvailable.toNat :=
  ⟨by decide +kernel, sent_outputs twoPeers overtaken
    (List.append_nil overtaken ▸ bounded_overtaken [] (by decide)) .client _ (by decide +kernel)⟩

end ControlChannel

end OpenVpnAndroid
