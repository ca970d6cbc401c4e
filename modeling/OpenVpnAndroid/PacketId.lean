/-
  OpenVpnAndroid/PacketId.lean
  ============================
  **Packet ids and the replay window** (`packet_id.c`, `crypto_check_replay`).

  With a window the receiver keeps the time of arrival of every id up to
  `seq_backtrack` below the highest one, in a circular list; without it the ids must
  come without gaps.  Times are counted in seconds from 0.  The statistic for the
  debug output and the file that keeps ids over a restart are left out.
-/
import OpenVpnAndroid.BigEndian
import OpenVpnAndroid.CircularList
import OpenVpnAndroid.Machine

namespace OpenVpnAndroid

/-- `packet_id_type` -/
abbrev PacketId := UInt32

def PACKET_ID_MAX : PacketId := 0xFFFFFFFF
def MAX_SEQ_BACKTRACK : Nat := 65536
def MAX_TIME_BACKTRACK : Nat := 600
def SEQ_REAP_INTERVAL : Nat := 5
def SEQ_UNSEEN : Nat := 0
def SEQ_EXPIRED : Nat := 1

/-! ### On the wire -/

def ID_SIZE : Nat := 4

/-- `htonpid` -/
def packetIdBytes (pid : PacketId) : List UInt8 := bigEndian ID_SIZE pid.toNat

/-- `buf_read`: the first `n` bytes. -/
def bufRead (n : Nat) (buf : List UInt8) : Option (List UInt8 × List UInt8) :=
  if n ≤ buf.length then some (buf.take n, buf.drop n) else none

theorem bufRead_append {n : Nat} {front : List UInt8} (h : front.length = n) (rest : List UInt8) :
    bufRead n (front ++ rest) = some (front, rest) := by
  subst h
  rw [bufRead, if_pos (by rw [List.length_append]; exact Nat.le_add_right _ _), List.take_left,
    List.drop_left]

@[simp] theorem length_packetIdBytes (pid : PacketId) : (packetIdBytes pid).length = ID_SIZE :=
  BigEndian.length_bigEndian ID_SIZE _

theorem ofNat_value_packetIdBytes (pid : PacketId) :
    UInt32.ofNat (BigEndian.value (packetIdBytes pid)) = pid := by
  have hvalue : BigEndian.value (packetIdBytes pid) = pid.toNat :=
    BigEndian.value_bigEndian_of_lt (by exact pid.toNat_lt)
  rw [hvalue, UInt32.ofNat_toNat]

/-- `struct packet_id_net`: without the long form the time is 0. -/
structure PacketIdNet where
  id : PacketId
  time : Nat
deriving DecidableEq

/-- `htontime`: the last 32 bits. -/
def timeBytes (time : Nat) : List UInt8 := bigEndian 4 time

def packetIdRead (buf : List UInt8) (long_form : Bool) : Option (PacketIdNet × List UInt8) := do
  let (net_id, buf) ← bufRead ID_SIZE buf
  if long_form then
    let (net_time, buf) ← bufRead 4 buf
    return (⟨.ofNat (BigEndian.value net_id), BigEndian.value net_time⟩, buf)
  else return (⟨.ofNat (BigEndian.value net_id), 0⟩, buf)

/-! ### The sender -/

structure PacketIdSend where
  id : PacketId
  time : Nat

namespace PacketIdSend

/-- `packet_id_send_update` -/
def update (now : Nat) (long_form : Bool) (p : PacketIdSend) : Bool × PacketIdSend :=
  let time := if p.time = 0 then now else p.time
  if p.id = PACKET_ID_MAX then
    if long_form = false ∨ now ≤ time then (false, ⟨p.id, time⟩) else (true, ⟨0 + 1, now⟩)
  else (true, ⟨p.id + 1, time⟩)

/-- `packet_id_write`: the bytes that are put before or behind the packet. -/
def write (now : Nat) (long_form : Bool) (p : PacketIdSend) : Option (List UInt8) × PacketIdSend :=
  let (ok, p) := p.update now long_form
  (if ok then some (packetIdBytes p.id ++ if long_form then timeBytes p.time else []) else none, p)

end PacketIdSend

/-! ### The receiver -/

/-- `struct packet_id_rec`; `seq_backtrack` is the capacity of the list, and 0 without one. -/
structure PacketIdRec where
  last_reap : Nat
  time : Nat
  id : PacketId
  time_backtrack : Nat
  seq_list : Option (CircularList Nat)

namespace PacketIdRec

/-- `packet_id_init`, with its assertions about the options. -/
def init (seq_backtrack time_backtrack : Nat) : Option PacketIdRec :=
  if h : 0 < seq_backtrack then
    if seq_backtrack ≤ MAX_SEQ_BACKTRACK ∧ time_backtrack ≤ MAX_TIME_BACKTRACK then
      some ⟨0, 0, 0, time_backtrack, some (.alloc seq_backtrack h 0)⟩
    else none
  else some ⟨0, 0, 0, 0, none⟩

/-- The loop of `packet_id_add` up to the id `target`, for a number of rounds. -/
def advance (target : PacketId) :
    Nat → PacketId → CircularList Nat → PacketId × CircularList Nat
  | 0, id, seq_list => (id, seq_list)
  | rounds + 1, id, seq_list =>
      if id < target then advance target rounds (id + 1) (seq_list.push SEQ_UNSEEN)
      else (id, seq_list)

/-- The part of `packet_id_add` that starts a new sequence when it has to. -/
def restart (p : PacketIdRec) (pin : PacketIdNet) (seq_list : CircularList Nat) :
    Nat × PacketId × CircularList Nat :=
  let seq_backtrack : PacketId := .ofNat seq_list.cap
  if seq_list.size = 0 ∨ p.time < pin.time ∨
      (seq_backtrack ≤ pin.id ∧ p.id < pin.id - seq_backtrack) then
    (pin.time, if seq_backtrack < pin.id then pin.id - seq_backtrack else 0, seq_list.reset)
  else (p.time, p.id, seq_list)

/-- The clock value goes to the place of the id. -/
def mark (now : Nat) (id : PacketId) (pin : PacketIdNet) (seq_list : CircularList Nat) :
    CircularList Nat :=
  if (id - pin.id).toNat < seq_list.size ∧ SEQ_EXPIRED < now then
    seq_list.setItem (id - pin.id).toNat now
  else seq_list

/-- `packet_id_add` -/
def add (now : Nat) (p : PacketIdRec) (pin : PacketIdNet) : PacketIdRec :=
  match p.seq_list with
  | none => { p with time := pin.time, id := pin.id }
  | some seq_list =>
      let (time, id, seq_list) := p.restart pin seq_list
      let (id, seq_list) := advance pin.id (pin.id.toNat - id.toNat) id seq_list
      { p with time := time, id := id, seq_list := some (mark now id pin seq_list) }

/-- The loop of `packet_id_reap` from the item `i` on, for so many items. -/
def reapFrom (time_backtrack now : Nat) : Nat → Nat → Bool → CircularList Nat → CircularList Nat
  | 0, _, _, seq_list => seq_list
  | items + 1, i, expire, seq_list =>
      match seq_list.item i with
      | none => seq_list
      | some t =>
          if t = SEQ_EXPIRED then seq_list
          else if expire || (t != 0 && decide (t + time_backtrack < now)) then
            reapFrom time_backtrack now items (i + 1) true (seq_list.setItem i SEQ_EXPIRED)
          else reapFrom time_backtrack now items (i + 1) false seq_list

/-- `packet_id_reap` -/
def reap (now : Nat) (p : PacketIdRec) : PacketIdRec :=
  { p with
    last_reap := now
    seq_list :=
      if p.time_backtrack = 0 then p.seq_list
      else p.seq_list.map fun seq_list => reapFrom p.time_backtrack now seq_list.size 0 false seq_list }

/-- `packet_id_reap_test` -/
def reapTest (now : Nat) (p : PacketIdRec) : PacketIdRec :=
  if p.last_reap + SEQ_REAP_INTERVAL ≤ now then p.reap now else p

/-- `packet_id_test` -/
def test (p : PacketIdRec) (pin : PacketIdNet) : Bool :=
  if pin.id = 0 then false
  else
    match p.seq_list with
    | some seq_list =>
        if pin.time = p.time then
          if p.id < pin.id then true
          else if seq_list.size ≤ (p.id - pin.id).toNat then false
          else seq_list.item (p.id - pin.id).toNat == some 0
        else if pin.time < p.time then false
        else true
    | none =>
        if pin.time = p.time then p.id == 0 || pin.id == p.id + 1
        else if pin.time < p.time then false
        else pin.id == 1

/-- `crypto_check_replay` -/
def checkReplay (now : Nat) (p : PacketIdRec) (pin : PacketIdNet) : Bool × PacketIdRec :=
  let p := p.reapTest now
  if p.test pin then (true, p.add now pin) else (false, p)

end PacketIdRec

end OpenVpnAndroid
