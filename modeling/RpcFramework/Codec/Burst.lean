import Mathlib.Data.Fintype.EquivFin
import Mathlib.Data.Nat.Bitwise
import RpcFramework.Codec.Packets
import RpcFramework.Lib.ShiftRegister
import RpcFramework.Protocol.Wire

/-!
# Bursts of errors in a packet

The register of the checksum holds four bytes.  A step shifts it by one byte and
adds a word of the table.  No two words of the table have the same leading byte, so
the leading byte of the register tells which word was added last, and a step can be
traced back.  A packet in which at most four consecutive bytes have been changed is
refused, unless the change hits the length of the body.
-/

namespace RpcFramework.Codec

open ShiftRegister

/-! ## The register -/

/-- The leading byte of a register. -/
def lead (crc : Nat) : Nat := crc >>> 24

theorem lead_lt (crc : UInt32) : lead crc.toNat < 256 := by
  rw [lead, Nat.shiftRight_eq_div_pow]
  have bound : crc.toNat < 2 ^ 32 := crc.toNat_lt
  omega

/-- The set of the leading bytes of some words, as a bit mask. -/
def leadMask (words : List UInt32) : Nat :=
  words.foldl (fun mask word => mask ||| 2 ^ lead word.toNat) 0

theorem testBit_leadMask {words : List UInt32} {byte : Nat}
    (member : (leadMask words).testBit byte = true) : ∃ word ∈ words, lead word.toNat = byte := by
  suffices either : ∀ mask : Nat, (words.foldl (fun mask word => mask ||| 2 ^ lead word.toNat)
      mask).testBit byte = true →
        mask.testBit byte = true ∨ ∃ word ∈ words, lead word.toNat = byte by
    refine (either 0 member).resolve_left ?_
    rw [Nat.zero_testBit]
    exact Bool.false_ne_true
  clear member
  induction words with
  | nil => exact fun mask inside => Or.inl inside
  | cons word words ih =>
      intro mask inside
      rcases ih _ inside with here | ⟨later, member, same⟩
      · rw [Nat.testBit_or, Bool.or_eq_true, Nat.testBit_two_pow, decide_eq_true_iff] at here
        exact here.imp id fun same => ⟨word, List.mem_cons_self .., same⟩
      · exact Or.inr ⟨later, List.mem_cons_of_mem _ member, same⟩

theorem leadMask_table : leadMask kCrc32Table.toList = 2 ^ 256 - 1 := by decide +kernel

/-- All 256 leading bytes occur in the table, so each of its 256 words has its own. -/
theorem crcWord_lead_injective {i j : Nat} (first : i < 256) (second : j < 256)
    (same : lead (crcWord i) = lead (crcWord j)) : i = j := by
  have size : kCrc32Table.toList.length = 256 := by decide +kernel
  let leads : Fin 256 → Fin 256 := fun index => ⟨lead (crcWord index), lead_lt _⟩
  have onto : Function.Surjective leads := by
    intro byte
    have inside : (leadMask kCrc32Table.toList).testBit byte = true := by
      rw [leadMask_table, Nat.testBit_two_pow_sub_one, decide_eq_true_iff]
      exact byte.isLt
    obtain ⟨word, member, found⟩ := testBit_leadMask inside
    obtain ⟨index, within, rfl⟩ := List.mem_iff_getElem.mp member
    refine ⟨⟨index, size ▸ within⟩, Fin.ext ?_⟩
    rw [← found]
    change lead (kCrc32Table.getD index 0).toNat = _
    rw [Array.getD_eq_getD_getElem?, ← Array.getElem?_toList, List.getElem?_eq_getElem within]
    rfl
  have one : leads ⟨i, first⟩ = leads ⟨j, second⟩ := Fin.ext same
  exact congrArg Fin.val (Finite.injective_iff_surjective.mpr onto one)

/-- A step leaves the leading byte of the word that it adds. -/
theorem lead_crc32Step (crc : UInt32) (byte : UInt8) :
    lead (crc32Step crc byte).toNat = lead (crcWord ((crc.toNat ^^^ byte.toNat) % 256)) := by
  have gone : crc.toNat >>> 8 >>> 24 = 0 := by
    rw [← Nat.shiftRight_add]
    exact Nat.shiftRight_eq_zero _ _ crc.toNat_lt
  rw [toNat_crc32Step, lead, Nat.shiftRight_xor_distrib, gone, Nat.xor_zero]
  rfl

/-- The states agree but for their `k` lowest bytes. -/
def AgreeAbove (k : Nat) (first second : UInt32) : Prop :=
  first.toNat >>> (8 * k) = second.toNat >>> (8 * k)

section Step

variable {k : Nat} {crc other : UInt32} {byte also : UInt8}

/-- If registers with the same leading byte come out of a step, the same word was added. -/
theorem AgreeAbove.index_eq (agree : AgreeAbove k (crc32Step crc byte) (crc32Step other also))
    (within : k < 4) :
    (crc.toNat ^^^ byte.toNat) % 256 = (other.toNat ^^^ also.toNat) % 256 := by
  apply crcWord_lead_injective (Nat.mod_lt _ (by decide)) (Nat.mod_lt _ (by decide))
  rw [← lead_crc32Step, ← lead_crc32Step, lead, lead,
    show 24 = 8 * k + (24 - 8 * k) by omega, Nat.shiftRight_add, Nat.shiftRight_add, agree]

theorem AgreeAbove.back (agree : AgreeAbove k (crc32Step crc byte) (crc32Step other also))
    (within : k < 4) : AgreeAbove (k + 1) crc other := by
  have index := agree.index_eq within
  rw [AgreeAbove, toNat_crc32Step, toNat_crc32Step, index, Nat.shiftRight_xor_distrib,
    Nat.shiftRight_xor_distrib] at agree
  have shifted := Nat.xor_right_inj.mp agree
  rw [← Nat.shiftRight_add, ← Nat.shiftRight_add] at shifted
  rw [AgreeAbove, Nat.mul_succ, Nat.add_comm]
  exact shifted

theorem xor_mod_byte (crc : Nat) (byte : UInt8) :
    (crc ^^^ byte.toNat) % 256 = (crc % 256) ^^^ byte.toNat := by
  have bound : byte.toNat % 2 ^ 8 = byte.toNat := Nat.mod_eq_of_lt byte.toNat_lt
  rw [show 256 = 2 ^ 8 by rfl, Nat.xor_mod_two_pow, bound]

theorem AgreeAbove.byte_eq (agree : AgreeAbove k (crc32Step crc byte) (crc32Step crc also))
    (within : k < 4) : byte = also := by
  have index := agree.index_eq within
  rw [xor_mod_byte, xor_mod_byte] at index
  exact UInt8.toNat_inj.mp (Nat.xor_right_inj.mp index)

theorem crc32Step_injective (same : crc32Step crc byte = crc32Step other byte) : crc = other := by
  have agree : AgreeAbove 0 (crc32Step crc byte) (crc32Step other byte) := by
    rw [same]
    rfl
  have low := agree.index_eq (by decide)
  rw [xor_mod_byte, xor_mod_byte] at low
  have lowest := Nat.xor_left_inj.mp low
  have high : crc.toNat >>> 8 = other.toNat >>> 8 := agree.back (by decide)
  rw [Nat.shiftRight_eq_div_pow, Nat.shiftRight_eq_div_pow] at high
  apply UInt32.toNat_inj.mp
  omega

end Step

/-- The checksum register: four places, one byte each. -/
def crcRegister : Register UInt32 UInt8 where
  step := crc32Step
  places := 4
  Agree := AgreeAbove
  agree_of_eq _ := rfl
  agree_back _ _ _ _ _ within agree := agree.back within
  symbol_eq _ _ _ _ within agree := agree.byte_eq within
  state_eq _ _ _ same := crc32Step_injective same

theorem crc32_eq_run (data : Bytes) :
    crc32 data data.length = run crcRegister 0xFFFFFFFF data ^^^ 0xFFFFFFFF := by
  rw [crc32, List.take_length]
  rfl

/-- Bytes that differ only within a window of four have different checksums. -/
theorem crc32_detects {first second : Bytes} {start width : Nat}
    (sameLength : first.length = second.length) (narrow : width ≤ 4)
    (outside : ∀ i, i < start ∨ start + width ≤ i → first[i]? = second[i]?)
    (same : crc32 first first.length = crc32 second second.length) : first = second := by
  rw [crc32_eq_run, crc32_eq_run] at same
  exact eq_of_run_of_window crcRegister sameLength narrow outside ((UInt32.xor_left_inj _).mp same)

/-! ## Changed packets -/

/-- At most four bytes, in the header and the body beside the length of the body, or
in the checksum. -/
structure BurstWindow (bodyLen start width : Nat) : Prop where
  narrow : width ≤ 4
  place : (start + width ≤ kFixedHeaderSize + bodyLen ∧ (start + width ≤ 6 ∨ 10 ≤ start)) ∨
    (kFixedHeaderSize + bodyLen ≤ start ∧
      start + width ≤ kFixedHeaderSize + bodyLen + kChecksumSize)

/-- The two byte strings differ only within the window. -/
def SameOutside (start width : Nat) (first second : Bytes) : Prop :=
  ∀ i, i < start ∨ start + width ≤ i → first[i]? = second[i]?

section Changed

variable {first second : Bytes} {start width : Nat}

theorem SameOutside.load (same : SameOutside start width first second) {pos len : Nat}
    (beside : pos + len ≤ start ∨ start + width ≤ pos) :
    load first pos len = load second pos len := by
  apply List.ext_getElem?
  intro i
  rw [Codec.load, Codec.load, List.getElem?_take, List.getElem?_take]
  split
  · next inside =>
      rw [List.getElem?_drop, List.getElem?_drop]
      exact same (pos + i) (by omega)
  · rfl

theorem SameOutside.drop (same : SameOutside start width first second) {pos : Nat}
    (behind : start + width ≤ pos) : first.drop pos = second.drop pos := by
  apply List.ext_getElem?
  intro i
  rw [List.getElem?_drop, List.getElem?_drop]
  exact same (pos + i) (by omega)

theorem SameOutside.take (same : SameOutside start width first second) (len : Nat) :
    SameOutside start width (first.take len) (second.take len) := by
  intro i beside
  rw [List.getElem?_take, List.getElem?_take, same i beside]

/-- Only bytes with the right checksum are accepted. -/
theorem checksum_of_accepted {pb : Protobuf} {bytes : Bytes} {packet : DecodedPacket}
    (accepted : (decodeBytes pb bytes packet).1 = true) :
    crc32 bytes (kFixedHeaderSize + declaredLen bytes) =
      decodeU32 (load bytes (kFixedHeaderSize + declaredLen bytes) 4) := by
  by_cases frame : CompleteFrame bytes
  · rw [decodeBytes_complete pb packet frame, frameOutcome] at accepted
    by_contra wrong
    rw [if_pos wrong] at accepted
    cases accepted
  · obtain ⟨rest, called, _⟩ := decodeBytes_incomplete pb packet frame
    rw [called] at accepted
    cases accepted

/-- Bytes with a checksum behind them are determined by what a burst leaves of them: it
spares either the checksum or the bytes that the checksum covers. -/
theorem eq_of_checksum {front bytes : Bytes} (size : bytes.length = front.length + 4)
    (checked : crc32 bytes front.length = decodeU32 (load bytes front.length 4))
    (narrow : width ≤ 4) (place : start + width ≤ front.length ∨ front.length ≤ start)
    (outside : SameOutside start width bytes (front ++ encodeU32 (crc32 front front.length))) :
    bytes = front ++ encodeU32 (crc32 front front.length) := by
  have cut : bytes.take front.length ++ bytes.drop front.length = bytes :=
    List.take_append_drop ..
  have takeLength : (bytes.take front.length).length = front.length := by
    rw [List.length_take]
    omega
  have dropLength : (bytes.drop front.length).length = 4 := by
    rw [List.length_drop]
    omega
  have summed : crc32 (bytes.take front.length) (bytes.take front.length).length =
      decodeU32 (bytes.drop front.length) := by
    rw [takeLength, ← crc32_append_of_le (Nat.le_of_eq takeLength.symm) (bytes.drop front.length),
      cut, checked, load, List.take_of_length_le (Nat.le_of_eq dropLength)]
  rcases place with inside | behind
  · have tail : bytes.drop front.length = encodeU32 (crc32 front front.length) := by
      rw [outside.drop inside, List.drop_left]
    have same := outside.take front.length
    rw [List.take_left] at same
    rw [tail, decodeU32_encodeU32] at summed
    have head : bytes.take front.length = front :=
      crc32_detects takeLength narrow same summed
    rw [← cut, head, tail]
  · have head : bytes.take front.length = front := by
      have same := @SameOutside.load _ _ start width outside 0 front.length (by omega)
      rw [load, load, List.drop_zero, List.drop_zero, List.take_left] at same
      exact same
    have tail := encodeU32_decodeU32 dropLength
    rw [← summed, head] at tail
    rw [← cut, head, tail]

/-- A burst leaves the declared length of the body alone. -/
theorem declaredLen_of_burst {msgType : MsgType} {reqId : UInt64} {body bytes : Bytes}
    (fits : (pack msgType reqId body).length ≤ kMaxBufferSize)
    (window : BurstWindow body.length start width)
    (outside : SameOutside start width bytes (pack msgType reqId body)) :
    declaredLen bytes = body.length := by
  have small : body.length < 2 ^ 32 := by
    rw [length_pack] at fits
    unfold kMaxBufferSize at fits
    omega
  have header : StartsWithHeader msgType reqId body.length (pack msgType reqId body) := by
    rw [pack, List.append_assoc]
    exact startsWithHeader small _
  have field : load bytes 6 4 = load (pack msgType reqId body) 6 4 := by
    have place := window.place
    unfold kFixedHeaderSize at place
    exact outside.load (by omega)
  rw [declaredLen, field]
  exact header.bodyLen

/--
A packet in which some of at most four consecutive bytes have been changed, beside
the length of the body, is refused.
-/
theorem decode_refuses_burst (pb : Protobuf) {msgType : MsgType} {reqId : UInt64}
    {body bytes : Bytes} (fits : (pack msgType reqId body).length ≤ kMaxBufferSize)
    (sameLength : bytes.length = (pack msgType reqId body).length)
    (changed : bytes ≠ pack msgType reqId body)
    (window : BurstWindow body.length start width)
    (outside : SameOutside start width bytes (pack msgType reqId body)) {buf : Buffer}
    (buffered : buf.readable = bytes) (packet : DecodedPacket) :
    (decode pb buf packet).1 = false := by
  have view := congrArg Prod.fst (decode_view pb buf packet)
  rw [buffered] at view
  rw [← view, ← Bool.not_eq_true]
  intro accepted
  have checked := checksum_of_accepted accepted
  have size := length_pack msgType reqId body
  have front : (fixedHeader msgType reqId body.length ++ body).length =
      kFixedHeaderSize + body.length := by
    rw [List.length_append, length_fixedHeader]
  rw [declaredLen_of_burst fits window outside, ← front] at checked
  rw [size, ← front] at sameLength
  refine changed (eq_of_checksum sameLength checked window.narrow ?_ outside)
  rw [front]
  exact window.place.imp And.left And.left

end Changed

/-- A packet whose request id has been changed in one byte. -/
def changedId : Bytes := (pack .request 1 [0x61]).set 17 0

theorem decode_refuses_burst_changedId :
    (decode Wire.wireProtobuf (Buffer.empty.append changedId) (.fresh .request 0)).1 = false := by
  have outside : SameOutside 17 1 changedId (pack .request 1 [0x61]) := by
    intro i beside
    exact List.getElem?_set_ne (by omega)
  have buffered : (Buffer.empty.append changedId).readable = changedId :=
    Buffer.readable_empty_append _
  exact decode_refuses_burst Wire.wireProtobuf (by decide +kernel) List.length_set
    (by decide +kernel) ⟨by decide, Or.inl (by decide)⟩ outside buffered _

end RpcFramework.Codec
