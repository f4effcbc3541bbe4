import RpcFramework.Codec.Crc32
import RpcFramework.Lib.BitSerial

/-!
# The checksum bit by bit

`docs/protocol.md` names the checksum of a packet CRC-32 as in IEEE 802.3.  Its
definition is a bit-serial register of 32 places that takes every byte from its
lowest bit on.  The table-driven loop of the codec computes the same checksum: a word
of the table is what eight moves leave of its index.
-/

namespace RpcFramework.Codec

open BitSerial

/-! ## The definition of the checksum -/

/-- The polynomial of IEEE 802.3, its lowest power at the highest bit. -/
def crcPolynomial : UInt32 := 0xEDB88320

/-- One bit enters, and the register moves down by one place. -/
def feedBit (crc : UInt32) (bit : Bool) : UInt32 :=
  let moved := crc >>> 1
  if (crc &&& 1 == 1) != bit then moved ^^^ crcPolynomial else moved

/-- The bits of a byte in the order of transmission. -/
def bitsOfByte (byte : UInt8) : List Bool := lowBits 8 byte.toNat

def bitwiseCrc32 (message : Bytes) : UInt32 :=
  (message.flatMap bitsOfByte).foldl feedBit 0xFFFFFFFF ^^^ 0xFFFFFFFF

/-! ## The table -/

theorem toNat_feedBit (crc : UInt32) (bit : Bool) :
    (feedBit crc bit).toNat = feed crcPolynomial.toNat crc.toNat bit := by
  have low : (crc &&& 1 == 1) = crc.toNat.testBit 0 := by
    rw [Nat.testBit_zero, beq_eq_decide]
    apply decide_eq_decide.mpr
    rw [← UInt32.toNat_inj, UInt32.toNat_and, UInt32.toNat_one, Nat.and_one_is_mod]
  have moved : (crc >>> 1).toNat = crc.toNat >>> 1 := UInt32.toNat_shiftRight crc 1
  rw [feedBit, feed, low]
  split
  · rw [UInt32.toNat_xor, moved]
  · rw [moved, Nat.xor_zero]

/-- Every word of the table is what eight moves leave of its index. -/
theorem crcWord_eq_iterate :
    ∀ index < 256, crcWord index = (shift crcPolynomial.toNat)^[8] index := by
  decide +kernel

/-- A step of the table-driven loop takes the eight bits of its byte. -/
theorem crc32Step_eq (crc : UInt32) (byte : UInt8) :
    crc32Step crc byte = (bitsOfByte byte).foldl feedBit crc := by
  have bound : byte.toNat < 2 ^ 8 := byte.toNat_lt
  have gone : byte.toNat >>> 8 = 0 := Nat.shiftRight_eq_zero _ _ bound
  have word := crcWord_eq_iterate ((crc.toNat ^^^ byte.toNat) % 256) (Nat.mod_lt _ (by decide))
  apply UInt32.toNat_inj.mp
  calc (crc32Step crc byte).toNat
      = (shift crcPolynomial.toNat)^[8] (crc.toNat ^^^ byte.toNat) := by
        rw [toNat_crc32Step, word, iterate_shift_eq _ 8 (crc.toNat ^^^ byte.toNat),
          Nat.shiftRight_xor_distrib, gone, Nat.xor_zero]
        rfl
    _ = (bitsOfByte byte).foldl (feed crcPolynomial.toNat) crc.toNat :=
        (foldl_feed_lowBits _ bound).symm
    _ = ((bitsOfByte byte).foldl feedBit crc).toNat :=
        List.foldl_hom UInt32.toNat fun crc bit => (toNat_feedBit crc bit).symm

/-- The checksum of the codec is the bit-by-bit CRC-32 of the bytes it is asked for. -/
theorem crc32_eq_bitwiseCrc32 (data : Bytes) (len : Nat) :
    crc32 data len = bitwiseCrc32 (data.take len) := by
  rw [crc32, bitwiseCrc32, List.foldl_flatMap]
  congr 2
  funext crc byte
  exact crc32Step_eq crc byte

end RpcFramework.Codec
