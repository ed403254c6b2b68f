import FalconSmartAccount.EntryPoint.Interface

/-!
The pure functions of `UserOperationLib`, `Helpers` and `EntryPoint`.
-/

namespace UserOperationLib

def PAYMASTER_VALIDATION_GAS_OFFSET : Nat := 20

def PAYMASTER_POSTOP_GAS_OFFSET : Nat := 36

def PAYMASTER_DATA_OFFSET : Nat := 52

/-- The high and the low 128 bits. -/
def unpackUints (packed : Word) : Nat × Nat := (packed.toNat >>> 128, packed.toNat % 2 ^ 128)

def unpackPaymasterStaticFields (paymasterAndData : Bytes) : Address × Nat × Nat :=
  (Abi.addressAt paymasterAndData 0,
    Abi.uintAt paymasterAndData PAYMASTER_VALIDATION_GAS_OFFSET 16,
    Abi.uintAt paymasterAndData PAYMASTER_POSTOP_GAS_OFFSET 16)

section

variable (keccak256 : Bytes → Word)

def PACKED_USEROP_TYPEHASH : Word :=
  keccak256 (
    "PackedUserOperation(address sender,uint256 nonce,bytes initCode,bytes callData,bytes32 accountGasLimits,uint256 preVerificationGas,bytes32 gasFees,bytes paymasterAndData)"
    : String).toUTF8.toList

def encode (userOp : PackedUserOperation) : Bytes :=
  [(PACKED_USEROP_TYPEHASH keccak256).toNat,
    userOp.sender.toNat, userOp.nonce.toNat,
    (keccak256 userOp.initCode).toNat, (keccak256 userOp.callData).toNat,
    userOp.accountGasLimits.toNat, userOp.preVerificationGas.toNat, userOp.gasFees.toNat,
    (keccak256 userOp.paymasterAndData).toNat].flatMap Abi.wordBytes

def hash (userOp : PackedUserOperation) : Word := keccak256 (encode keccak256 userOp)

end

end UserOperationLib

structure ValidationData where
  aggregator : Address
  validAfter : Nat
  validUntil : Nat

def parseValidationData (validationData : Nat) : ValidationData :=
  let validUntil := (validationData >>> 160) % 2 ^ 48
  { aggregator := BitVec.ofNat 160 validationData
    validAfter := (validationData >>> 208) % 2 ^ 48
    validUntil := if validUntil = 0 then 2 ^ 48 - 1 else validUntil }

namespace EntryPoint

/-- The aggregator of the validation data and whether the time is outside of its range. -/
def getValidationData (timestamp validationData : Nat) : Address × Bool :=
  if validationData = 0 then
    (0, false)
  else
    let data := parseValidationData validationData
    (data.aggregator, decide (timestamp > data.validUntil ∨ timestamp < data.validAfter))

/-- `none` if `paymasterAndData` is too short. -/
def copyUserOpToMemory (userOp : PackedUserOperation) : Option MemoryUserOp :=
  let accountGasLimits := UserOperationLib.unpackUints userOp.accountGasLimits
  let gasFees := UserOperationLib.unpackUints userOp.gasFees
  let mUserOp : MemoryUserOp := {
    sender := userOp.sender
    nonce := userOp.nonce
    verificationGasLimit := accountGasLimits.1
    callGasLimit := accountGasLimits.2
    paymasterVerificationGasLimit := 0
    paymasterPostOpGasLimit := 0
    preVerificationGas := userOp.preVerificationGas.toNat
    paymaster := 0
    maxFeePerGas := gasFees.2
    maxPriorityFeePerGas := gasFees.1 }
  if userOp.paymasterAndData.length = 0 then
    some mUserOp
  else if userOp.paymasterAndData.length < UserOperationLib.PAYMASTER_DATA_OFFSET then
    none
  else
    let fields := UserOperationLib.unpackPaymasterStaticFields userOp.paymasterAndData
    some { mUserOp with
      paymaster := fields.1
      paymasterVerificationGasLimit := fields.2.1
      paymasterPostOpGasLimit := fields.2.2 }

theorem copyUserOpToMemory_eq {userOp : PackedUserOperation} {mUserOp : MemoryUserOp}
    (h : copyUserOpToMemory userOp = some mUserOp)
    : mUserOp.sender = userOp.sender ∧ mUserOp.nonce = userOp.nonce := by
  unfold copyUserOpToMemory at h
  dsimp only at h
  split at h
  . cases h
    exact ⟨rfl, rfl⟩
  . split at h
    . cases h
    . cases h
      exact ⟨rfl, rfl⟩

open Yul in
def getRequiredPrefund (mUserOp : MemoryUserOp) : Nat :=
  let requiredGas := add (add (add (add mUserOp.verificationGasLimit mUserOp.callGasLimit)
    mUserOp.paymasterVerificationGasLimit) mUserOp.paymasterPostOpGasLimit)
    mUserOp.preVerificationGas
  mul requiredGas mUserOp.maxFeePerGas

/-- All the gas values and fees or-ed together, which must stay below 120 bits. -/
def maxGasValues (mUserOp : MemoryUserOp) : Nat :=
  mUserOp.preVerificationGas ||| mUserOp.verificationGasLimit ||| mUserOp.callGasLimit
    ||| mUserOp.paymasterVerificationGasLimit ||| mUserOp.paymasterPostOpGasLimit
    ||| mUserOp.maxFeePerGas ||| mUserOp.maxPriorityFeePerGas

theorem le_of_or_le {a b n : Nat} (h : a ||| b ≤ n) : a ≤ n ∧ b ≤ n :=
  ⟨Nat.left_le_or.trans h, Nat.right_le_or.trans h⟩

/-- The check of all values together bounds each of them. -/
theorem le_of_maxGasValues_le {mUserOp : MemoryUserOp} {n : Nat} (h : maxGasValues mUserOp ≤ n)
    : mUserOp.preVerificationGas ≤ n ∧ mUserOp.verificationGasLimit ≤ n ∧ mUserOp.callGasLimit ≤ n
      ∧ mUserOp.paymasterVerificationGasLimit ≤ n ∧ mUserOp.paymasterPostOpGasLimit ≤ n
      ∧ mUserOp.maxFeePerGas ≤ n ∧ mUserOp.maxPriorityFeePerGas ≤ n := by
  obtain ⟨h, hpriority⟩ := le_of_or_le h
  obtain ⟨h, hfee⟩ := le_of_or_le h
  obtain ⟨h, hpostOp⟩ := le_of_or_le h
  obtain ⟨h, hpaymaster⟩ := le_of_or_le h
  obtain ⟨h, hcall⟩ := le_of_or_le h
  obtain ⟨hpre, hverification⟩ := le_of_or_le h
  exact ⟨hpre, hverification, hcall, hpaymaster, hpostOp, hfee, hpriority⟩

def getUserOpGasPrice (basefee : Nat) (mUserOp : MemoryUserOp) : Nat :=
  if mUserOp.maxFeePerGas = mUserOp.maxPriorityFeePerGas then
    mUserOp.maxFeePerGas
  else
    min mUserOp.maxFeePerGas (Yul.add mUserOp.maxPriorityFeePerGas basefee)

def PENALTY_PERCENT : Nat := 10

/-- The gas to pay for, with the penalty for execution gas that was asked for and not used. -/
def addUnusedGasPenalty (opInfo : UserOpInfo) (actualGas : Nat) : Nat :=
  let executionGasLimit := Yul.add opInfo.mUserOp.callGasLimit opInfo.mUserOp.paymasterPostOpGasLimit
  let executionGasUsed := Yul.sub actualGas opInfo.preOpGas
  if executionGasLimit > executionGasUsed then
    let unusedGas := Yul.sub executionGasLimit executionGasUsed
    let unusedGasPenalty := Yul.mul unusedGas PENALTY_PERCENT / 100
    Yul.add actualGas unusedGasPenalty
  else
    actualGas

end EntryPoint

/-- What must not be used twice. -/
def noncePair (userOp : PackedUserOperation) : Address × Word := (userOp.sender, userOp.nonce)

/-- The operations of all groups in order, each with the aggregator of its group. -/
def UserOpsPerAggregator.flatten (opas : List UserOpsPerAggregator)
    : List (Address × PackedUserOperation) :=
  opas.flatMap fun opa => opa.userOps.map fun op => (opa.aggregator, op)

/-- The nonces of all groups. -/
def UserOpsPerAggregator.noncePairs (opas : List UserOpsPerAggregator) : List (Address × Word) :=
  opas.flatMap fun opa => opa.userOps.map noncePair

/-- Who pays for the operation and gets back what is left. -/
def MemoryUserOp.payer (mUserOp : MemoryUserOp) : Address :=
  if mUserOp.paymaster = 0 then mUserOp.sender else mUserOp.paymaster
