import RpcFramework.LoadBalance.ConsistentHash

/-!
# The default hash function of the ring

`defaultHash` is written after MurmurHash2: it takes the key in words of four bytes,
adds the one to three bytes that are left over, and mixes the result.  The left-over
bytes go through plain `char`, which is promoted to `int` before it is shifted.  Where
`char` is signed, a byte of the upper half is extended by ones, and the hash differs
from MurmurHash2 exactly for the keys that have such a byte among the last ones.
-/

namespace RpcFramework.ConsistentHash

/-- Whether plain `char` is signed on the platform. -/
inductive PlainChar where
  | signed
  | unsigned
  deriving DecidableEq, Repr

/-- The promotion of a `char` to `int`. -/
def PlainChar.promote : PlainChar → UInt8 → Int32
  | .signed, byte => byte.toInt8.toInt32
  | .unsigned, byte => byte.toUInt32.toInt32

/-- The word that a little-endian machine copies out of the bytes. -/
def littleEndian : Bytes → UInt32
  | [] => 0
  | byte :: rest => byte.toUInt32 ||| littleEndian rest <<< 8

def hashSeed : UInt32 := 0x9747b28c

def hashFactor : UInt32 := 0x5bd1e995

/-- The body of the loop over the words. -/
def mixWord (h k : UInt32) : UInt32 :=
  let k := k * hashFactor
  let k := k ^^^ k >>> 24
  let k := k * hashFactor
  h * hashFactor ^^^ k

/-- The loop over the words with its body: the length, the data and the hash behind it. -/
def hashWords (body : UInt32 → UInt32 → UInt32) : Nat → Bytes → UInt32 → Nat × Bytes × UInt32
  | len + 4, data, h => hashWords body len (data.drop 4) (body h (littleEndian (data.take 4)))
  | len, data, h => (len, data, h)

/-- `h ^= data[i] << bits`. -/
def addChar (char : PlainChar) (data : Bytes) (i : Nat) (bits : Int32) (h : UInt32) : UInt32 :=
  h ^^^ (char.promote (data.getD i 0) <<< bits).toUInt32

/-- The `switch` over the bytes that are left over; every case falls through. -/
def hashRest (char : PlainChar) (len : Nat) (data : Bytes) (h : UInt32) : UInt32 :=
  let case1 h := (h ^^^ (char.promote (data.getD 0 0)).toUInt32) * hashFactor
  let case2 h := case1 (addChar char data 1 8 h)
  let case3 h := case2 (addChar char data 2 16 h)
  match len with
  | 3 => case3 h
  | 2 => case2 h
  | 1 => case1 h
  | _ => h

def finishHash (h : UInt32) : UInt32 :=
  let h := h ^^^ h >>> 13
  let h := h * hashFactor
  h ^^^ h >>> 15

/-- `ConsistentHash::defaultHash`; `len` is a `uint32_t`. -/
def defaultHash (char : PlainChar) (key : Bytes) : UInt32 :=
  let len := UInt32.ofNat key.length
  let (rest, data, h) := hashWords mixWord len.toNat key (hashSeed ^^^ len)
  finishHash (hashRest char rest data h)

/-! ## The reference -/

/-- The words of a key and the bytes, less than four, that are left over. -/
def splitWords : Bytes → List UInt32 × Bytes
  | b₀ :: b₁ :: b₂ :: b₃ :: rest =>
      (littleEndian [b₀, b₁, b₂, b₃] :: (splitWords rest).1, (splitWords rest).2)
  | rest => ([], rest)

/-- The bytes that are left over, taken as unsigned. -/
def murmurRest : Bytes → UInt32 → UInt32
  | [b₀, b₁, b₂], h =>
      (h ^^^ b₂.toUInt32 <<< 16 ^^^ b₁.toUInt32 <<< 8 ^^^ b₀.toUInt32) * hashFactor
  | [b₀, b₁], h => (h ^^^ b₁.toUInt32 <<< 8 ^^^ b₀.toUInt32) * hashFactor
  | [b₀], h => (h ^^^ b₀.toUInt32) * hashFactor
  | _, h => h

/-- MurmurHash2 with 32 bits. -/
def murmurHash2 (seed : UInt32) (key : Bytes) : UInt32 :=
  let (words, rest) := splitWords key
  finishHash (murmurRest rest (words.foldl mixWord (seed ^^^ UInt32.ofNat key.length)))

/-! ## The words -/

theorem splitWords_of_short {rest : Bytes} (short : rest.length < 4) :
    splitWords rest = ([], rest) := by
  match rest with
  | [] => rfl
  | [_] => rfl
  | [_, _] => rfl
  | [_, _, _] => rfl

theorem splitWords_rest (key : Bytes) :
    (splitWords key).2 = key.drop (key.length - key.length % 4) := by
  induction key using splitWords.induct with
  | case1 b₀ b₁ b₂ b₃ rest ih =>
      have length : (b₀ :: b₁ :: b₂ :: b₃ :: rest).length = rest.length + 4 := rfl
      have start : rest.length + 4 - (rest.length + 4) % 4 = rest.length - rest.length % 4 + 4 := by
        omega
      rw [splitWords, length, start, ih]
      rfl
  | case2 rest short =>
      have few : rest.length < 4 := by
        match rest with
        | [] => decide
        | [_] => exact Nat.lt_add_of_pos_right (Nat.succ_pos 2)
        | [_, _] => exact Nat.lt_add_of_pos_right Nat.two_pos
        | [_, _, _] => exact Nat.lt_succ_self 3
        | b₀ :: b₁ :: b₂ :: b₃ :: rest => exact absurd rfl (short b₀ b₁ b₂ b₃ rest)
      rw [splitWords_of_short few, Nat.mod_eq_of_lt few, Nat.sub_self, List.drop_zero]

theorem length_rest_lt (key : Bytes) : (splitWords key).2.length < 4 := by
  rw [splitWords_rest, List.length_drop]
  omega

/-- The loop of the source goes over the words of the key. -/
theorem hashWords_eq (body : UInt32 → UInt32 → UInt32) (key : Bytes) (h : UInt32) :
    hashWords body key.length key h =
      ((splitWords key).2.length, (splitWords key).2, (splitWords key).1.foldl body h) := by
  induction key using splitWords.induct generalizing h with
  | case1 b₀ b₁ b₂ b₃ rest ih =>
      have length : (b₀ :: b₁ :: b₂ :: b₃ :: rest).length = rest.length + 4 := rfl
      have front : (b₀ :: b₁ :: b₂ :: b₃ :: rest).take 4 = [b₀, b₁, b₂, b₃] := rfl
      have behind : (b₀ :: b₁ :: b₂ :: b₃ :: rest).drop 4 = rest := rfl
      rw [length, hashWords, front, behind, ih, splitWords, List.foldl_cons]
  | case2 rest short =>
      match rest with
      | [] => rfl
      | [_] => rfl
      | [_, _] => rfl
      | [_, _, _] => rfl
      | b₀ :: b₁ :: b₂ :: b₃ :: rest => exact absurd rfl (short b₀ b₁ b₂ b₃ rest)

/-! ## Mixing loses nothing -/

theorem mul_hashFactor_inj {first second : UInt32} :
    first * hashFactor = second * hashFactor ↔ first = second := by
  refine ⟨fun same => ?_, congrArg (· * hashFactor)⟩
  have inverse : hashFactor * 0xe59b19bd = 1 := by decide
  have both := congrArg (· * (0xe59b19bd : UInt32)) same
  simpa only [UInt32.mul_assoc, inverse, UInt32.mul_one] using both

/-- What tells two words apart would have to equal its own shift. -/
theorem xor_shiftRight_inj {bits : UInt32} (moves : 0 < bits.toNat % 32)
    {first second : UInt32} :
    first ^^^ first >>> bits = second ^^^ second >>> bits ↔ first = second := by
  refine ⟨fun same => ?_, congrArg fun h => h ^^^ h >>> bits⟩
  have moved : (first ^^^ second) >>> bits = first ^^^ second :=
    calc (first ^^^ second) >>> bits
        = first >>> bits ^^^ second >>> bits := UInt32.shiftRight_xor
      _ = first ^^^ (first ^^^ first >>> bits) ^^^ second >>> bits := by
          rw [← UInt32.xor_assoc, UInt32.xor_self, UInt32.zero_xor]
      _ = first ^^^ second := by
          rw [same, UInt32.xor_assoc, UInt32.xor_assoc, UInt32.xor_self, UInt32.xor_zero]
  have none : (first ^^^ second).toNat = 0 := by
    have shrunk := congrArg UInt32.toNat moved
    rw [UInt32.toNat_shiftRight, Nat.shiftRight_eq_div_pow] at shrunk
    by_contra some_bit
    refine Nat.ne_of_lt (Nat.div_lt_self (Nat.pos_of_ne_zero some_bit) ?_) shrunk
    exact Nat.one_lt_two_pow (Nat.ne_of_gt moves)
  exact UInt32.xor_eq_zero_iff.mp (UInt32.toNat_inj.mp none)

theorem finishHash_inj {first second : UInt32} :
    finishHash first = finishHash second ↔ first = second := by
  unfold finishHash
  rw [xor_shiftRight_inj (by decide), mul_hashFactor_inj, xor_shiftRight_inj (by decide)]

/-! ## The bytes that are left over -/

/-- The promotion extends bytes of the upper half by ones. -/
def PlainChar.extends (char : PlainChar) (byte : UInt8) : Bool :=
  char == .signed && decide (0x80 ≤ byte)

def signBits (extended : Bool) (bits : UInt32) : UInt32 :=
  if extended then 0xFFFFFF00 <<< bits else 0

/-- The ones that are added to some bytes, the first of them at the given place. -/
def restSigns (char : PlainChar) : Bytes → UInt32 → UInt32
  | [], _ => 0
  | byte :: rest, bits => signBits (char.extends byte) bits ^^^ restSigns char rest (bits + 8)

/-- A fact about all bytes is checked byte by byte. -/
theorem forall_byte {p : UInt8 → Prop} (all : ∀ n < 256, p (UInt8.ofNat n)) (byte : UInt8) :
    p byte := by
  have here := all byte.toNat byte.toNat_lt
  rwa [UInt8.ofNat_toNat] at here

theorem promote_eq (char : PlainChar) (byte : UInt8) :
    (char.promote byte).toUInt32 = byte.toUInt32 ^^^ signBits (char.extends byte) 0 ∧
      (char.promote byte <<< 8).toUInt32 = byte.toUInt32 <<< 8 ^^^ signBits (char.extends byte) 8 ∧
      (char.promote byte <<< 16).toUInt32 =
        byte.toUInt32 <<< 16 ^^^ signBits (char.extends byte) 16 := by
  revert byte
  apply forall_byte
  cases char with
  | signed => decide +kernel
  | unsigned => decide +kernel

theorem xor_left_comm (first second third : UInt32) :
    first ^^^ (second ^^^ third) = second ^^^ (first ^^^ third) := by
  rw [← UInt32.xor_assoc, UInt32.xor_comm first, UInt32.xor_assoc]

/-- The bytes enter as in the reference, with the ones of the promotion beside them. -/
theorem hashRest_eq (char : PlainChar) {rest : Bytes} (few : rest.length < 4) (h : UInt32) :
    hashRest char rest.length rest h = murmurRest rest (h ^^^ restSigns char rest 0) := by
  have promoted := promote_eq char
  match rest with
  | [] =>
      rw [restSigns, UInt32.xor_zero]
      rfl
  | [b₀] =>
      simp [hashRest, murmurRest, restSigns, promoted, UInt32.xor_comm, xor_left_comm]
  | [b₀, b₁] =>
      simp [hashRest, addChar, murmurRest, restSigns, promoted, UInt32.xor_assoc,
        UInt32.xor_comm, xor_left_comm]
  | [b₀, b₁, b₂] =>
      simp [hashRest, addChar, murmurRest, restSigns, promoted, UInt32.xor_assoc,
        UInt32.xor_comm, xor_left_comm]

theorem murmurRest_inj {rest : Bytes} (few : rest.length < 4) {first second : UInt32} :
    murmurRest rest first = murmurRest rest second ↔ first = second := by
  match rest with
  | [] => exact Iff.rfl
  | [b₀] => simp only [murmurRest, mul_hashFactor_inj, UInt32.xor_left_inj]
  | [b₀, b₁] => simp only [murmurRest, mul_hashFactor_inj, UInt32.xor_left_inj]
  | [b₀, b₁, b₂] => simp only [murmurRest, mul_hashFactor_inj, UInt32.xor_left_inj]

/-- The ones of different places never cancel. -/
theorem signBits_apart : ∀ s₀ s₁ s₂ : Bool,
    signBits s₀ 0 ^^^ (signBits s₁ 8 ^^^ signBits s₂ 16) = 0 ↔
      s₀ = false ∧ s₁ = false ∧ s₂ = false := by
  decide

theorem restSigns_eq_zero_iff {rest : Bytes} (few : rest.length < 4) :
    restSigns .signed rest 0 = 0 ↔ ∀ byte ∈ rest, byte < 0x80 := by
  have upper : ∀ byte : UInt8, PlainChar.signed.extends byte = false ↔ byte < 0x80 := by
    intro byte
    simp [PlainChar.extends]
  match rest with
  | [] => exact iff_of_true rfl (List.forall_mem_nil _)
  | [b₀] =>
      simp [restSigns, signBits, upper]
  | [b₀, b₁] =>
      have two := signBits_apart (PlainChar.signed.extends b₀) (PlainChar.signed.extends b₁) false
      simpa [restSigns, signBits, upper] using two
  | [b₀, b₁, b₂] =>
      have three := signBits_apart (PlainChar.signed.extends b₀) (PlainChar.signed.extends b₁)
        (PlainChar.signed.extends b₂)
      simpa [restSigns, upper] using three

theorem restSigns_unsigned (rest : Bytes) (bits : UInt32) : restSigns .unsigned rest bits = 0 := by
  induction rest generalizing bits with
  | nil => rfl
  | cons byte rest ih =>
      rw [restSigns, ih, UInt32.xor_zero]
      rfl

/-- The hash differs from MurmurHash2 by the ones of the promotion. -/
theorem defaultHash_eq_iff (char : PlainChar) {key : Bytes} (short : key.length < 2 ^ 32) :
    defaultHash char key = murmurHash2 hashSeed key ↔ restSigns char (splitWords key).2 0 = 0 := by
  have len : (UInt32.ofNat key.length).toNat = key.length := UInt32.toNat_ofNat_of_lt' short
  have few := length_rest_lt key
  rw [defaultHash, murmurHash2]
  dsimp only
  rw [len, hashWords_eq, finishHash_inj, hashRest_eq char few, murmurRest_inj few]
  conv_lhs => rhs; rw [← @UInt32.xor_zero (List.foldl _ _ _)]
  exact UInt32.xor_right_inj _

/--
With unsigned `char`, the default hash is MurmurHash2.  With signed `char` it is so
exactly for the keys whose bytes behind the last whole word are all below 128.
-/
theorem defaultHash_murmurHash2 {key : Bytes} (short : key.length < 2 ^ 32) :
    defaultHash .unsigned key = murmurHash2 hashSeed key ∧
      (defaultHash .signed key = murmurHash2 hashSeed key ↔
        ∀ byte ∈ key.drop (key.length - key.length % 4), byte < 0x80) := by
  have few := length_rest_lt key
  refine ⟨(defaultHash_eq_iff .unsigned short).mpr (restSigns_unsigned _ _), ?_⟩
  rw [defaultHash_eq_iff .signed short, restSigns_eq_zero_iff few, splitWords_rest]

/-- A key with bytes of the upper half in its first word only. -/
theorem defaultHash_murmurHash2_umlaut :
    defaultHash .signed [0xc3, 0xa4, 0x23, 0x31, 0x30] =
      murmurHash2 hashSeed [0xc3, 0xa4, 0x23, 0x31, 0x30] :=
  (defaultHash_murmurHash2 (by decide)).2.mpr (by decide +kernel)

/-- The one-byte key 0x80 is hashed differently. -/
theorem upper_byte_hashed_differently :
    defaultHash .signed [0x80] ≠ murmurHash2 hashSeed [0x80] ∧
      defaultHash .signed [0x80] ≠ defaultHash .unsigned [0x80] := by
  decide +kernel

end RpcFramework.ConsistentHash
