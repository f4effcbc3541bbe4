import RpcFramework.Codec.Frames

/-!
# Progress of the decoder

A call of `decode` leaves the buffer alone, clears it, skips to the next magic,
or takes a whole frame.  The first of these needs bytes that are still to come.
A caller that repeats the call until one fails and changes nothing is therefore
done after at most one call more than there are readable bytes.
-/

namespace RpcFramework.Codec

/-- The bytes start with a header that passes all checks, and with a part of its packet. -/
structure PartialFrame (bytes : Bytes) : Prop where
  header : kFixedHeaderSize ≤ bytes.length
  magic : checkMagic (decodeU32 (load bytes 0 4)) = true
  version : byteAt bytes 4 = kVersion
  bodyLen : declaredLen bytes ≤ kMaxBodyLen
  missing : bytes.length < totalLen bytes

/-- More bytes are needed before the first packet can be settled. -/
def AwaitsMore (bytes : Bytes) : Prop :=
  bytes.length < kFixedHeaderSize ∨ PartialFrame bytes

/-- What a call returns, and what it does to the buffer. -/
inductive Outcome (buf : Buffer) : Bool → Buffer → Prop
  | waits (waiting : AwaitsMore buf.readable) : Outcome buf false buf
  | clears (header : kFixedHeaderSize ≤ buf.readableBytes) : Outcome buf false buf.retrieveAll
  | skips (i : Nat) (positive : 0 < i) (within : i < buf.readableBytes) :
      Outcome buf false (buf.retrieve i)
  | takes (accepted : Bool) (complete : totalLen buf.readable ≤ buf.readableBytes) :
      Outcome buf accepted (buf.retrieve (totalLen buf.readable))

theorem scanMagic_bounds {data : Bytes} {scanLimit i : Nat}
    (found : scanMagic data scanLimit = some i) : 0 < i ∧ i < scanLimit := by
  have bounds := List.mem_range'_1.mp (List.mem_of_find?_eq_some found)
  omega

theorem decode_outcome (pb : Protobuf) (buf : Buffer) (packet : DecodedPacket) :
    Outcome buf (decode pb buf packet).1 (decode pb buf packet).2.1 := by
  have size := buf.length_readable
  by_cases short : buf.readableBytes < kFixedHeaderSize
  · rw [decode, if_pos short]
    exact .waits (Or.inl (by rw [size]; exact short))
  have header : kFixedHeaderSize ≤ buf.readableBytes := Nat.le_of_not_lt short
  have room : 18 ≤ buf.readableBytes := header
  have magic : load buf.peek 0 4 = load buf.readable 0 4 := load_peek (by omega)
  have version : byteAt buf.peek 4 = byteAt buf.readable 4 := byteAt_peek (by omega)
  have bodyLen : load buf.peek 6 4 = load buf.readable 6 4 := load_peek (by omega)
  simp only [decode, short, if_false, magic, version, bodyLen, ← declaredLen.eq_1,
    ← totalLen.eq_1]
  split
  · exact .clears header
  split
  · cases found : scanMagic buf.peek (min buf.readableBytes kMaxScanBytes) with
    | none => exact .clears header
    | some i =>
        obtain ⟨positive, within⟩ := scanMagic_bounds found
        exact .skips i positive (Nat.lt_of_lt_of_le within (Nat.min_le_left _ _))
  next good =>
  split
  · exact .clears header
  next current =>
  split
  · exact .clears header
  next small =>
  split
  · next missing =>
      refine .waits (Or.inr ⟨?_, ?_, not_not.mp current, Nat.le_of_not_lt small, ?_⟩)
      · rw [size]
        exact header
      · simpa using good
      · rw [size]
        exact missing
  next whole =>
  have complete : totalLen buf.readable ≤ buf.readableBytes := Nat.le_of_not_lt whole
  -- From here on every exit takes the announced length, whatever it returns.
  split
  · exact .takes false complete
  · generalize decodeBody pb _ _ _ packet = decoded
    rcases decoded with _ | ⟨_ | _, after⟩
    · exact .takes false complete
    · exact .takes false complete
    · exact .takes true complete

/-! ## What one call removes -/

namespace Outcome

variable {buf next : Buffer} {accepted : Bool}

theorem suffix (outcome : Outcome buf accepted next) : next.readable <:+ buf.readable := by
  cases outcome with
  | waits => exact List.suffix_rfl
  | clears =>
      rw [Buffer.readable_retrieveAll]
      exact List.nil_suffix
  | skips i =>
      rw [Buffer.readable_retrieve]
      exact List.drop_suffix i _
  | takes _ =>
      rw [Buffer.readable_retrieve]
      exact List.drop_suffix _ _

/-- An accepted packet has at least a header and a checksum. -/
theorem removes_packet (outcome : Outcome buf true next) :
    next.readableBytes + 22 ≤ buf.readableBytes := by
  cases outcome with
  | takes _ complete =>
      have least : 22 ≤ totalLen buf.readable := by
        unfold totalLen kFixedHeaderSize kChecksumSize
        omega
      rw [Buffer.readableBytes_retrieve]
      omega

/-- A call either fails for want of bytes and changes nothing, or removes something. -/
theorem waits_or_removes (outcome : Outcome buf accepted next) :
    (accepted = false ∧ next = buf ∧ AwaitsMore buf.readable) ∨
      next.readableBytes < buf.readableBytes := by
  cases outcome with
  | waits waiting => exact Or.inl ⟨rfl, rfl, waiting⟩
  | clears header =>
      have some_bytes : 0 < buf.readableBytes := Nat.lt_of_lt_of_le (by decide) header
      rw [Buffer.readableBytes_retrieveAll]
      exact Or.inr some_bytes
  | skips i positive within =>
      rw [Buffer.readableBytes_retrieve]
      exact Or.inr (by omega)
  | takes _ complete =>
      have positive : 0 < totalLen buf.readable := Nat.lt_of_lt_of_le (by decide) header_le_totalLen
      rw [Buffer.readableBytes_retrieve]
      exact Or.inr (by omega)

end Outcome

/-! ## Repeated calls -/

/-- `decode` is called until a call fails and leaves the buffer as it was, each
time with a packet of the caller's choice; `none` if that takes more than the
given number of calls. -/
def decodeUntilIdle (pb : Protobuf) : Nat → (Nat → DecodedPacket) → Buffer → Option Buffer
  | 0, _, _ => none
  | calls + 1, packets, buf =>
      let called := decode pb buf (packets 0)
      if called.1 = false ∧ called.2.1 = buf then some buf
      else decodeUntilIdle pb calls (fun n => packets (n + 1)) called.2.1

/-- Every call but the last removes a byte, so the readable bytes bound their number. -/
theorem decodeUntilIdle_ends (pb : Protobuf) {calls : Nat} (packets : Nat → DecodedPacket)
    {buf : Buffer} (enough : buf.readableBytes < calls) :
    ∃ final, decodeUntilIdle pb calls packets buf = some final ∧
      final.readable <:+ buf.readable ∧ AwaitsMore final.readable := by
  induction calls generalizing packets buf with
  | zero => exact absurd enough (Nat.not_lt_zero _)
  | succ calls ih =>
      have outcome := decode_outcome pb buf (packets 0)
      unfold decodeUntilIdle
      rcases outcome.waits_or_removes with ⟨failed, same, waiting⟩ | removed
      · exact ⟨buf, if_pos ⟨failed, same⟩, List.suffix_rfl, waiting⟩
      · have changed : ¬ ((decode pb buf (packets 0)).1 = false ∧
            (decode pb buf (packets 0)).2.1 = buf) := by
          rintro ⟨_, same⟩
          rw [same] at removed
          exact Nat.lt_irrefl _ removed
        obtain ⟨final, ended, behind, waiting⟩ :=
          ih (fun n => packets (n + 1)) (Nat.lt_of_lt_of_le removed (Nat.le_of_lt_succ enough))
        exact ⟨final, (if_neg changed).trans ended, behind.trans outcome.suffix, waiting⟩

/-- Every call leaves a suffix, and removes bytes unless more are needed; the
repeated calls end, whatever the buffer holds. -/
theorem decode_progress (pb : Protobuf) (buf : Buffer) :
    (∀ packet,
      (decode pb buf packet).2.1.readable <:+ buf.readable ∧
      ((decode pb buf packet).1 = true →
        (decode pb buf packet).2.1.readableBytes + 22 ≤ buf.readableBytes) ∧
      ((decode pb buf packet).1 = false → ¬ AwaitsMore buf.readable →
        (decode pb buf packet).2.1.readableBytes + 1 ≤ buf.readableBytes)) ∧
    ∀ packets, ∃ final,
      decodeUntilIdle pb (buf.readableBytes + 1) packets buf = some final ∧
        final.readable <:+ buf.readable ∧ AwaitsMore final.readable := by
  constructor
  · intro packet
    have outcome := decode_outcome pb buf packet
    refine ⟨outcome.suffix, ?_, ?_⟩
    · intro accepted
      rw [accepted] at outcome
      exact outcome.removes_packet
    · intro _ settled
      rcases outcome.waits_or_removes with ⟨_, _, waiting⟩ | removed
      · exact absurd waiting settled
      · exact removed
  · intro packets
    exact decodeUntilIdle_ends pb packets (Nat.lt_succ_self _)

end RpcFramework.Codec
