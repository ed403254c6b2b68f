import FalconSmartAccount.Client.JavaScript

/-!
What the client uses of ethers, which is not part of the repository. Byte strings stand for their hex
strings, and where a function throws there is no result.
-/

/-- What ethers takes for an integer. A `number` is one that a double represents exactly, and `bigint` also
stands for a `BigNumber`. -/
inductive BigNumberish where
  | number (n : Int)
  | bigint (n : Int)
  | hex (bytes : Bytes)

/-- A value with its type. -/
inductive AbiValue where
  | bytes32 (hex : Bytes)
  | address (a : Address)
  | uint256 (value : BigNumberish)
  /-- Of type `uint256[length]`. -/
  | uint256s (length : Nat) (values : List BigNumberish)
  | bytes (hex : Bytes)

class Ethers where
  /-- `BigNumber.from(value)`. -/
  bigNumberFrom : BigNumberish → Option Int
  /-- `hexlify(value, { hexPad: 'left' })` or `value.toHexString()` of a `BigNumber`. -/
  hexlify : Nat → Bytes
  hexZeroPad : Bytes → Nat → Option Bytes
  hexConcat : List Bytes → Bytes
  hexDataSlice : Bytes → Nat → Option Nat → Bytes
  /-- `defaultAbiCoder.encode(types, values)`. -/
  encode : List AbiValue → Option Bytes

/-! ## The ABI -/

namespace Abi

/-- A member of a tuple stands in its head, or in its tail with its offset in the head. -/
inductive Part where
  | static (head : Bytes)
  | dynamic (tail : Bytes)

def Part.headLength : Part → Nat
  | .static head => head.length
  | .dynamic _ => 32

/-- `offset` is where the next tail starts. -/
def heads : Nat → List Part → Bytes
  | _, [] => []
  | offset, .static head :: parts => head ++ heads offset parts
  | offset, .dynamic tail :: parts => wordBytes offset ++ heads (offset + tail.length) parts

def tails : List Part → Bytes
  | [] => []
  | .static _ :: parts => tails parts
  | .dynamic tail :: parts => tail ++ tails parts

def assemble (parts : List Part) : Bytes :=
  heads (parts.map Part.headLength).sum parts ++ tails parts

end Abi

section

variable (bigNumberFrom : BigNumberish → Option Int)

/-- The word of an unsigned number. Others throw. -/
def BigNumberish.word (value : BigNumberish) : Option Bytes := do
  let n ← bigNumberFrom value
  if 0 ≤ n ∧ n < 2 ^ 256 then some (Abi.wordBytes n.toNat) else none

def AbiValue.part : AbiValue → Option Abi.Part
  | .bytes32 hex => if hex.length = 32 then some (.static hex) else none
  | .address a => some (.static (Abi.wordBytes a.toNat))
  | .uint256 value => (value.word bigNumberFrom).map .static
  | .uint256s length values =>
    if values.length = length then
      (values.mapM (BigNumberish.word bigNumberFrom)).map fun ws => .static ws.flatten
    else
      none
  | .bytes hex => some (.dynamic (Abi.bytesTail hex))

def Abi.encode (values : List AbiValue) : Option Bytes :=
  (values.mapM (AbiValue.part bigNumberFrom)).map Abi.assemble

end

/-! ## What is documented -/

/-- A `number` has to be less than this. -/
def MAX_SAFE : Int := 2 ^ 53 - 1

class LawfulEthers [Ethers] : Prop where
  bigNumberFrom_number : ∀ n, |n| < MAX_SAFE → Ethers.bigNumberFrom (.number n) = some n
  bigNumberFrom_unsafe : ∀ n, MAX_SAFE ≤ |n| → Ethers.bigNumberFrom (.number n) = none
  bigNumberFrom_bigint : ∀ n, Ethers.bigNumberFrom (.bigint n) = some n
  bigNumberFrom_hex : ∀ bytes, bytes ≠ [] →
    Ethers.bigNumberFrom (.hex bytes) = some (Abi.uintAt bytes 0 bytes.length : Int)
  /-- As few bytes as possible, but at least one. -/
  hexlify : ∀ value, Ethers.hexlify value = Abi.uintBytes (value.log2 / 8 + 1) value
  hexZeroPad : ∀ bytes length, bytes.length ≤ length →
    Ethers.hexZeroPad bytes length = some (List.replicate (length - bytes.length) 0 ++ bytes)
  hexConcat : ∀ items, Ethers.hexConcat items = items.flatten
  hexDataSlice : ∀ bytes start stop, start ≤ stop → stop ≤ bytes.length →
    Ethers.hexDataSlice bytes start (some stop) = (bytes.take stop).drop start
  hexDataSlice_end : ∀ bytes start, start ≤ bytes.length →
    Ethers.hexDataSlice bytes start none = bytes.drop start
  encode : ∀ values, Ethers.encode values = Abi.encode Ethers.bigNumberFrom values

namespace Ethers

def sampleFrom : BigNumberish → Option Int
  | .number n => if |n| < MAX_SAFE then some n else none
  | .bigint n => some n
  | .hex [] => none
  | .hex bytes => some (Abi.uintAt bytes 0 bytes.length : Int)

/-- An implementation. -/
@[reducible]
def sample : Ethers where
  bigNumberFrom := sampleFrom
  hexlify value := Abi.uintBytes (value.log2 / 8 + 1) value
  hexZeroPad bytes length :=
    if bytes.length ≤ length then some (List.replicate (length - bytes.length) 0 ++ bytes) else none
  hexConcat := List.flatten
  hexDataSlice bytes start stop := (bytes.take (stop.getD bytes.length)).drop start
  encode := Abi.encode sampleFrom

theorem sample_lawful : @LawfulEthers sample :=
  letI := sample
  { bigNumberFrom_number := fun _ h => if_pos h
    bigNumberFrom_unsafe := fun _ h => if_neg (not_lt.mpr h)
    bigNumberFrom_bigint := fun _ => rfl
    bigNumberFrom_hex := fun bytes h => by
      cases bytes with
      | nil => exact absurd rfl h
      | cons => rfl
    hexlify := fun _ => rfl
    hexZeroPad := fun _ _ h => if_pos h
    hexConcat := fun _ => rfl
    hexDataSlice := fun _ _ _ _ _ => rfl
    hexDataSlice_end := fun bytes start _ => by
      change (bytes.take bytes.length).drop start = _
      rw [List.take_length]
    encode := fun _ => rfl }

/-! ## Numbers -/

variable [Ethers] [LawfulEthers]

theorem hexZeroPad_hexlify {value length : Nat} (hlength : 0 < length) (h : value < 256 ^ length)
    : Ethers.hexZeroPad (Ethers.hexlify value) length = some (Abi.uintBytes length value) := by
  have hpow (n : Nat) : 256 ^ n = 2 ^ (8 * n) := (Nat.pow_mul 2 8 n).symm
  have hle : value.log2 / 8 + 1 ≤ length := by
    by_cases hzero : value = 0
    . rw [hzero]
      rw [Nat.log2_zero]
      omega
    . rw [hpow] at h
      have hlog := (Nat.log2_lt hzero).mpr h
      omega
  have hlt : value < 256 ^ (value.log2 / 8 + 1) := by
    rw [hpow]
    exact Nat.lt_of_lt_of_le Nat.lt_log2_self (Nat.pow_le_pow_right (by decide) (by omega))
  rw [LawfulEthers.hexlify]
  rw [LawfulEthers.hexZeroPad _ _ (by rw [Abi.uintBytes_length]; exact hle)]
  rw [Abi.uintBytes_length]
  rw [Abi.replicate_append_uintBytes hlt]
  rw [Nat.sub_add_cancel hle]

/-! ## Words -/

omit [LawfulEthers] in
theorem word_of_from {value : BigNumberish} {n : Nat} (h : Ethers.bigNumberFrom value = some (n : Int))
    (hlt : n < Yul.wordSize)
    : value.word Ethers.bigNumberFrom = some (Abi.wordBytes n) := by
  have hrange : (0 : Int) ≤ n ∧ (n : Int) < 2 ^ 256 := by
    unfold Yul.wordSize at hlt
    omega
  unfold BigNumberish.word
  rw [h]
  rw [Option.bind_eq_bind, Option.bind_some]
  rw [if_pos hrange]
  rw [Int.toNat_natCast]

theorem bigint_word {n : Nat} (h : n < Yul.wordSize)
    : (BigNumberish.bigint n).word Ethers.bigNumberFrom = some (Abi.wordBytes n) :=
  word_of_from (LawfulEthers.bigNumberFrom_bigint n) h

theorem number_word {n : Nat} (h : n < 2 ^ 53 - 1)
    : (BigNumberish.number n).word Ethers.bigNumberFrom = some (Abi.wordBytes n) := by
  apply word_of_from
  . apply LawfulEthers.bigNumberFrom_number
    unfold MAX_SAFE
    rw [abs_of_nonneg (Int.natCast_nonneg n)]
    omega
  . unfold Yul.wordSize
    omega

theorem number_word_unsafe {n : Nat} (h : 2 ^ 53 - 1 ≤ n)
    : (BigNumberish.number n).word Ethers.bigNumberFrom = none := by
  have hunsafe : MAX_SAFE ≤ |(n : Int)| := by
    unfold MAX_SAFE
    rw [abs_of_nonneg (Int.natCast_nonneg n)]
    omega
  unfold BigNumberish.word
  rw [LawfulEthers.bigNumberFrom_unsafe _ hunsafe]
  rfl

end Ethers
