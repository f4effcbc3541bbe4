import RpcFramework.Codec.ReceiveLoop
import RpcFramework.Lib.FramedLink

/-!
# The receive loop on a part of a stream

A message callback is called after every read, with whatever part of the stream
has arrived.  Messages that fit into the input buffer together with one more
read are handled one by one, in their order, each by the read that completes
it; the callback leaves less than one packet behind.
-/

namespace RpcFramework.Codec

open Framing

variable {World : Type}

/-- A message that can be read in portions of at most `room` bytes: it is within the
limits, and its packet and one more portion fit into the input buffer. -/
structure Message.Carriable (pb : Protobuf) (room : Nat) (m : Message) : Prop where
  limits : m.WithinLimits
  inverted : m.Inverted pb
  fits : (m.encode pb).length + room ≤ kMaxBufferSize

namespace Message.Carriable

variable {pb : Protobuf} {room : Nat} {m : Message}

theorem encode_eq_pack (carriable : m.Carriable pb room) :
    m.encode pb = pack m.msgType m.reqId (m.body pb) :=
  m.encode_of_body (m.body_of_limits carriable.limits carriable.inverted)

theorem of_body (limits : m.WithinLimits) (inverted : m.Inverted pb)
    (fits : kFixedHeaderSize + (m.body pb).length + kChecksumSize + room ≤ kMaxBufferSize) :
    m.Carriable pb room := by
  refine ⟨limits, inverted, ?_⟩
  rw [m.encode_of_body (m.body_of_limits limits inverted), length_pack]
  exact fits

theorem length_body_le (carriable : m.Carriable pb room) :
    (m.body pb).length ≤ kMaxBodyLen := by
  have fits := carriable.fits
  rw [carriable.encode_eq_pack, length_pack] at fits
  unfold kMaxBodyLen
  unfold kMaxBufferSize at fits
  omega

theorem encode_ne_nil (carriable : m.Carriable pb room) : m.encode pb ≠ [] := by
  rw [carriable.encode_eq_pack, ← List.length_pos_iff, length_pack, kFixedHeaderSize]
  omega

end Message.Carriable

section Loop

variable {pb : Protobuf} {handle : DecodedPacket → World → World} {room : Nat}

theorem receiver_of_refused {buf : Buffer} {packet after : DecodedPacket} {rest : Bytes}
    (failed : decodeBytes pb buf.readable packet = (false, rest, after)) (world : World) :
    ((receiver pb handle).decode (buf, packet, world)).1 = none ∧
      ((receiver pb handle).decode (buf, packet, world)).2.1.readable = rest := by
  rw [receiver_of_failed failed handle world]
  rw [decode_view] at failed
  exact ⟨rfl, (Prod.mk.inj (Prod.mk.inj failed).2).1⟩

theorem receiver_idle : Idle (receiver pb handle) := by
  rintro ⟨buf, packet, world⟩ empty
  change buf.readable = [] at empty
  have short : decodeBytes pb buf.readable packet = (false, [], packet) := by
    rw [empty]
    rfl
  exact receiver_of_refused short world

/-- The loop tells carriable messages apart. -/
theorem receiver_presents {m : Message} (carriable : m.Carriable pb room) :
    Presents (receiver pb handle)
      (fun state => ((receiver pb handle).unread state).length ≤ kMaxBufferSize)
      (Message.encode pb) Message.ShownBy m := by
  have small := carriable.length_body_le
  constructor
  · rintro ⟨buf, packet, world⟩ rest fits buffered
    change buf.readable = _ at buffered
    change buf.readable.length ≤ _ at fits
    rw [carriable.encode_eq_pack] at buffered
    rw [buffered] at fits
    have called := decodeBytes_pack pb m.msgType m.reqId small fits packet
    obtain ⟨accepted, shown⟩ :=
      m.bodyOutcome_shown carriable.limits carriable.inverted small packet
    rw [accepted, ← buffered] at called
    have yields := receiver_of_accepted called handle world
    rw [decode_view] at called
    refine ⟨_, congrArg Prod.fst yields, shown, ?_⟩
    rw [yields]
    exact (Prod.mk.inj (Prod.mk.inj called).2).1
  · rintro ⟨buf, packet, world⟩ missing fits proper part
    change buf.readable ++ missing = _ at part
    rw [carriable.encode_eq_pack] at part
    have called := decodeBytes_waits pb m.msgType m.reqId small proper part fits packet
    exact receiver_of_refused called world

/-- The rest of the program after the loop: its body was run for every packet. -/
theorem onMessage_world (pb : Protobuf) (handle : DecodedPacket → World → World)
    (state : Buffer × DecodedPacket × World) :
    (drain (receiver pb handle) state).2.2.2 =
      (decoded (drain (receiver pb handle) state).1).foldl
        (fun world packet => handle packet world) state.2.2 := by
  induction state using drain_induction (receiver pb handle) with
  | ends state next called =>
      rw [drain_of_none called]
      change (if (decode pb state.1 state.2.1).1 then _ else _) = _ at called
      split at called
      · cases called
      · cases called
        rfl
  | goes state message next called ih =>
      rw [drain_of_some called]
      have handled : next.2.2 = handle message state.2.2 := by
        change (if (decode pb state.1 state.2.1).1 then _ else _) = _ at called
        split at called
        · cases called
          rfl
        · cases called
      rw [ih, handled]
      rfl

/--
A read of a part of the stream: the callback handles a first part of the messages
that have not been handled, in their order, and the rest stays on the link.
-/
theorem onMessage_delivers (handle : DecodedPacket → World → World) {msgs : List Message}
    {buf : Buffer} {inFlight : Bytes}
    (carries : Carries (Message.encode pb) buf.readable inFlight msgs)
    (carriable : ∀ m ∈ msgs, m.Carriable pb room) {count : Nat} (portion : count ≤ room)
    (packet : DecodedPacket) (world : World) :
    ∃ settled later packets, msgs = settled ++ later ∧
      List.Forall₂ Message.ShownBy settled packets ∧
      (onMessage pb handle (buf.append (inFlight.take count)) packet world).2 =
        packets.foldl (fun world packet => handle packet world) world ∧
      Carries (Message.encode pb)
        (onMessage pb handle (buf.append (inFlight.take count)) packet world).1.readable
        (inFlight.drop count) later := by
  have read : (receiver pb handle).unread (buf.append (inFlight.take count), packet, world) =
      buf.readable ++ inFlight.take count := buf.readable_append _
  have fits : ((receiver pb handle).unread
      (buf.append (inFlight.take count), packet, world)).length ≤ kMaxBufferSize := by
    rw [read, List.length_append, List.length_take]
    cases msgs with
    | nil =>
        obtain ⟨empty, ended⟩ := List.append_eq_nil_iff.mp carries.inStep
        rw [empty, ended, List.length_nil, Nat.min_zero]
        exact Nat.zero_le _
    | cons m msgs =>
        have first := (carriable m (List.mem_cons_self ..)).fits
        have held := carries.length_buffered_le fun other member =>
          Nat.le_sub_of_add_le (carriable other member).fits
        omega
  obtain ⟨settled, later, split, shown, left⟩ := carries.deliver receiver_idle
    (fun m member => receiver_presents (carriable m member)) read fits
  refine ⟨settled, later, _, split, shown, ?_, left⟩
  exact onMessage_world pb handle (buf.append (inFlight.take count), packet, world)

end Loop

end RpcFramework.Codec
