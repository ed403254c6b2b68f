import FalconSmartAccount.Evm.Abi
import FalconSmartAccount.Evm.Contract
import FalconSmartAccount.Evm.Solidity
import FalconSmartAccount.Falcon.ZknoxFalcon

/-!
What the contracts of the account abstraction send to each other: user operations, calls, returned
and reverted data, and logs.
-/

structure PackedUserOperation where
  sender : Address
  nonce : Word
  initCode : Bytes
  callData : Bytes
  accountGasLimits : Word
  preVerificationGas : Word
  gasFees : Word
  paymasterAndData : Bytes
  signature : Bytes
  deriving DecidableEq, Inhabited

structure UserOpsPerAggregator where
  userOps : List PackedUserOperation
  aggregator : Address
  signature : Bytes
  deriving DecidableEq, Inhabited

/-- A memory copy of the static fields, with the paymaster in place of `paymasterAndData`. -/
structure MemoryUserOp where
  sender : Address
  nonce : Word
  verificationGasLimit : Nat
  callGasLimit : Nat
  paymasterVerificationGasLimit : Nat
  paymasterPostOpGasLimit : Nat
  preVerificationGas : Nat
  paymaster : Address
  maxFeePerGas : Nat
  maxPriorityFeePerGas : Nat
  deriving DecidableEq, Inhabited

/-- `context` stands for the bytes in memory at `contextOffset`. -/
structure UserOpInfo where
  mUserOp : MemoryUserOp
  userOpHash : Word
  prefund : Nat
  context : Bytes
  preOpGas : Nat
  deriving DecidableEq, Inhabited

inductive PostOpMode where
  | opSucceeded
  | opReverted
  | postOpReverted
  deriving DecidableEq

/-- The `callData` argument of `innerHandleOp`: that of the operation, or the encoded call of
`IAccountExecute.executeUserOp`. -/
inductive CallData where
  | bytes (data : Bytes)
  | executeUserOp (userOp : PackedUserOperation) (userOpHash : Word)
  deriving DecidableEq

/-- The functions of `FalconSimpleAccount`, those that it inherits included. -/
inductive AccountMessage where
  | execute (dest : Address) (value : Nat) (func : Bytes)
  | executeBatch (dest : List Address) (value : List Nat) (func : List Bytes)
  | initializeAccount (anOwner : Address) (aPublicKey : List Nat) (falconVerifier : Address)
  | withdrawDepositTo (withdrawAddress : Address) (amount : Nat)
  | addDeposit
  | getDeposit
  | getNonce
  | entryPoint
  | owner
  | publicKey (i : Nat)
  | upgradeToAndCall (newImplementation : Address) (data : Bytes)
  | proxiableUUID
  | onERC721Received
  | onERC1155Received
  | onERC1155BatchReceived
  | supportsInterface (interfaceId : BitVec 32)

/-- The functions of `EntryPoint` that only return values. -/
inductive EntryPointView where
  | balanceOf (account : Address)
  | getDepositInfo (account : Address)
  | deposits (account : Address)
  | getNonce (sender : Address) (key : BitVec 192)
  | nonceSequenceNumber (sender : Address) (key : BitVec 192)
  | getUserOpHash (userOp : PackedUserOperation)
  | getDomainSeparatorV4
  | getPackedUserOpTypeHash
  | senderCreator

inductive Message where
  /-- Calldata that is not yet decoded. -/
  | bytes (data : Bytes)
  -- EntryPoint
  | receive
  | depositTo (account : Address)
  | addStake (unstakeDelaySec : BitVec 32)
  | unlockStake
  | withdrawStake (withdrawAddress : Address)
  | withdrawTo (withdrawAddress : Address) (withdrawAmount : Nat)
  | incrementNonce (key : BitVec 192)
  | entryPointView (view : EntryPointView)
  | handleOps (ops : List PackedUserOperation) (beneficiary : Address)
  | handleAggregatedOps (opsPerAggregator : List UserOpsPerAggregator) (beneficiary : Address)
  | innerHandleOp (callData : CallData) (opInfo : UserOpInfo) (context : Bytes)
  | getSenderAddress (initCode : Bytes)
  | delegateAndRevert (target : Address) (data : Bytes)
  -- SenderCreator
  | createSender (initCode : Bytes)
  -- IAccount, IAccountExecute, IPaymaster, IAggregator
  | validateUserOp (userOp : PackedUserOperation) (userOpHash : Word) (missingAccountFunds : Nat)
  | executeUserOp (userOp : PackedUserOperation) (userOpHash : Word)
  | validatePaymasterUserOp (userOp : PackedUserOperation) (userOpHash : Word) (maxCost : Nat)
  | postOp (mode : PostOpMode) (context : Bytes) (actualGasCost actualUserOpFeePerGas : Nat)
  | validateSignatures (userOps : List PackedUserOperation) (signature : Bytes)
  -- FalconSimpleAccount and its verifier
  | account (message : AccountMessage)
  | verify (msgs : Bytes) (signature : ZKNOX_falcon.Signature) (h : List Nat)

namespace CallData

def isEmpty : CallData → Bool
  | .bytes data => data.isEmpty
  | .executeUserOp _ _ => false

def message : CallData → Message
  | .bytes data => .bytes data
  | .executeUserOp userOp userOpHash => .executeUserOp userOp userOpHash

end CallData

/-! ## Returned and reverted data -/

inductive ReturnData where
  | bytes (data : Bytes)
  | words (values : List Nat)
  | error (reason : String)
  | panic (code : Nat)
  | failedOp (opIndex : Nat) (reason : String)
  | failedOpWithRevert (opIndex : Nat) (reason : String) (inner : Bytes)
  | postOpReverted (returnData : Bytes)
  | signatureValidationFailed (aggregator : Address)
  | senderAddressResult (sender : Address)
  | delegateAndRevert (success : Bool) (ret : Bytes)

namespace ReturnData

instance : Inhabited ReturnData := ⟨.bytes []⟩

def ofRevert : Revert → ReturnData
  | .panic code => .panic code
  | .error reason => .error reason
  | .outOfGas => .bytes []

def selector (s : Nat) : Bytes := (Abi.wordBytes s).drop 28

def string (s : String) : Bytes := Abi.bytesTail s.toUTF8.toList

/-- The encoding that the caller finds in its return data buffer. -/
def toBytes : ReturnData → Bytes
  | .bytes data => data
  | .words values => values.flatMap Abi.wordBytes
  | .error reason => selector 0x08c379a0 ++ Abi.wordBytes 32 ++ string reason
  | .panic code => selector 0x4e487b71 ++ Abi.wordBytes code
  | .failedOp opIndex reason =>
    selector 0x220266b6 ++ Abi.wordBytes opIndex ++ Abi.wordBytes 64 ++ string reason
  | .failedOpWithRevert opIndex reason inner =>
    selector 0x65c8fd4d ++ Abi.wordBytes opIndex ++ Abi.wordBytes 96
      ++ Abi.wordBytes (96 + (string reason).length) ++ string reason ++ Abi.bytesTail inner
  | .postOpReverted returnData => selector 0xad7954bc ++ Abi.wordBytes 32 ++ Abi.bytesTail returnData
  | .signatureValidationFailed aggregator => selector 0x86a9f750 ++ Abi.wordBytes aggregator.toNat
  | .senderAddressResult sender => selector 0x6ca7b806 ++ Abi.wordBytes sender.toNat
  | .delegateAndRevert success ret =>
    selector 0x99410554 ++ Abi.wordBytes success.toNat ++ Abi.wordBytes 64 ++ Abi.bytesTail ret

/-- `abi.decode(.., (uint256))`. -/
def decodeWord (data : ReturnData) : Option Nat :=
  if 32 ≤ data.toBytes.length then some (Abi.wordAt data.toBytes 0) else none

def decodeAddress (data : ReturnData) : Option Address :=
  match data.decodeWord with
  | some w => if w < 2 ^ 160 then some (BitVec.ofNat 160 w) else none
  | none => none

def decodeBool (data : ReturnData) : Option Bool :=
  match data.decodeWord with
  | some w => if w = 0 then some false else if w = 1 then some true else none
  | none => none

/-- What `abi.decode` reverts with if there is no byte string at `offset`, behind `head` bytes. Its memory is
allocated before anything checks where it ends. -/
def decodeRevert (buffer : Bytes) (head offset : Nat) : ReturnData :=
  if head ≤ buffer.length ∧ offset < 2 ^ 64 ∧ offset + 32 ≤ buffer.length
      ∧ 2 ^ 64 ≤ Abi.wordAt buffer offset then
    .ofRevert .allocation
  else
    default

/-- `abi.decode(.., (bytes, uint256))`. -/
def decodeContext (data : ReturnData) : Option (Bytes × Nat) :=
  let buffer := data.toBytes
  let offset := Abi.wordAt buffer 0
  let length := Abi.wordAt buffer offset
  if 64 ≤ buffer.length ∧ offset < 2 ^ 64 ∧ length < 2 ^ 64 ∧ offset + 32 + length ≤ buffer.length then
    some ((buffer.drop (offset + 32)).take length, Abi.wordAt buffer 32)
  else
    none

def REVERT_REASON_MAX_LEN : Nat := 2048

/-- `Exec.getReturnData(REVERT_REASON_MAX_LEN)`. -/
def getReturnData (data : ReturnData) : Bytes := data.toBytes.take REVERT_REASON_MAX_LEN

end ReturnData

/-! ## Logs -/

inductive Log where
  | deposited (account : Address) (totalDeposit : Nat)
  | withdrawn (account withdrawAddress : Address) (amount : Nat)
  | stakeLocked (account : Address) (totalStaked unstakeDelaySec : Nat)
  | stakeUnlocked (account : Address) (withdrawTime : Nat)
  | stakeWithdrawn (account withdrawAddress : Address) (amount : Nat)
  | beforeExecution
  | signatureAggregatorChanged (aggregator : Address)
  | accountDeployed (userOpHash : Word) (sender factory paymaster : Address)
  | userOperationEvent (userOpHash : Word) (sender paymaster : Address) (nonce : Word)
      (success : Bool) (actualGasCost actualGasUsed : Nat)
  | userOperationRevertReason (userOpHash : Word) (sender : Address) (nonce : Word)
      (revertReason : Bytes)
  | postOpRevertReason (userOpHash : Word) (sender : Address) (nonce : Word) (revertReason : Bytes)
  | userOperationPrefundTooLow (userOpHash : Word) (sender : Address) (nonce : Word)
  | falconSimpleAccountInitialized (entryPoint owner : Address)
  /-- A log of another contract. -/
  | other (topic : Word) (data : Bytes)
