import FalconSmartAccount.EntryPoint.StakeManager

/-!
The contract `EntryPoint`. What it takes from OpenZeppelin (the reentrancy guard and typed data
hashing), the hash function and the decoding of calldata are parameters.
-/

namespace EntryPoint

open Evm

structure Config where
  senderCreator : Address
  keccak256 : Bytes → Word
  domainSeparatorV4 : Word
  toTypedDataHash : Word → Word → Word
  /-- `none` if the function must not be entered. -/
  nonReentrantBefore : Bool → Option Bool
  nonReentrantAfter : Bool → Bool
  /-- The function call that calldata stands for, if its selector is known and its arguments decode. -/
  abiDecode : Bytes → Option Message

def INNER_GAS_OVERHEAD : Nat := 10000

def INNER_OUT_OF_GAS : Nat := 0xdeaddead <<< 224

def INNER_REVERT_LOW_PREFUND : Nat := 0xdeadaa51 <<< 224

/-- `IAccountExecute.executeUserOp.selector`. -/
def executeUserOpSelector : Nat := 0x8dd7712f

/-- `if (!c) revert FailedOp(opIndex, reason)`. -/
def failUnless (c : Bool) (opIndex : Nat) (reason : String) : Code Unit :=
  Prog.require c (.failedOp opIndex reason)

def getOrRevert (data : ReturnData) : Option α → Code α
  | some a => pure a
  | none => .revert data

/-- A return value that does not decode reverts the caller. -/
def decoded (value : Option α) : Code α := getOrRevert default value

/-- Solidity's check before a call without return values. -/
def requireCode (target : Address) : Code Unit := do
  let length ← Prog.codeLength target
  Prog.require (length != 0) default

section

variable (cfg : Config) (msg : Frame Message)

def getUserOpHash (userOp : PackedUserOperation) : Word :=
  cfg.toTypedDataHash cfg.domainSeparatorV4 (UserOperationLib.hash cfg.keccak256 userOp)

/-! ## Validation -/

def createSenderIfNeeded (opIndex : Nat) (opInfo : UserOpInfo) (initCode : Bytes) : Code Unit :=
  if initCode.length = 0 then
    pure ()
  else do
    let sender := opInfo.mUserOp.sender
    failUnless ((← Prog.codeLength sender) == 0) opIndex "AA10 sender already constructed"
    let (success, ret) ← Prog.call
      ⟨cfg.senderCreator, 0, some opInfo.mUserOp.verificationGasLimit, .createSender initCode⟩
    Prog.require success ret
    let sender1 ← decoded ret.decodeAddress
    failUnless (sender1 != 0) opIndex "AA13 initCode failed or OOG"
    failUnless (sender1 == sender) opIndex "AA14 initCode must return sender"
    failUnless ((← Prog.codeLength sender1) != 0) opIndex "AA15 initCode must create sender"
    Prog.emit (.accountDeployed opInfo.userOpHash sender (Abi.addressAt initCode 0)
      opInfo.mUserOp.paymaster)

def missingAccountFunds (mUserOp : MemoryUserOp) (requiredPrefund : Nat) : Code Nat :=
  if mUserOp.paymaster = 0 then do
    let bal ← balanceOf mUserOp.sender
    return if bal > requiredPrefund then 0 else requiredPrefund - bal
  else
    pure 0

/-- Without a paymaster the sender's deposit, as the account left it, pays for the operation. -/
def deductAccountPrefund (opIndex : Nat) (mUserOp : MemoryUserOp) (requiredPrefund : Nat) : Code Unit :=
  if mUserOp.paymaster = 0 then do
    let deposit ← balanceOf mUserOp.sender
    failUnless (requiredPrefund ≤ deposit) opIndex "AA21 didn't pay prefund"
    Prog.sstore fun s =>
      (s.setDeposit mUserOp.sender (deposit - requiredPrefund)).note (Books.lock requiredPrefund)
  else
    pure ()

def validateAccountPrepayment (opIndex : Nat) (op : PackedUserOperation) (opInfo : UserOpInfo)
    (requiredPrefund verificationGasLimit : Nat) : Code Nat := do
  let mUserOp := opInfo.mUserOp
  createSenderIfNeeded cfg opIndex opInfo op.initCode
  let missing ← missingAccountFunds mUserOp requiredPrefund
  let (success, ret) ← Prog.call
    ⟨mUserOp.sender, 0, some verificationGasLimit, .validateUserOp op opInfo.userOpHash missing⟩
  Prog.require success (.failedOpWithRevert opIndex "AA23 reverted" ret.getReturnData)
  let validationData ← decoded ret.decodeWord
  deductAccountPrefund opIndex mUserOp requiredPrefund
  return validationData

def validateAccountAndPaymasterValidationData (opIndex validationData paymasterValidationData : Nat)
    (expectedAggregator : Address) : Code Unit := do
  let (aggregator, outOfTimeRange) := getValidationData msg.env.timestamp validationData
  failUnless (expectedAggregator == aggregator) opIndex "AA24 signature error"
  failUnless (!outOfTimeRange) opIndex "AA22 expired or not due"
  let (pmAggregator, outOfTimeRange) := getValidationData msg.env.timestamp paymasterValidationData
  failUnless (pmAggregator == 0) opIndex "AA34 signature error"
  failUnless (!outOfTimeRange) opIndex "AA32 paymaster expired or not due"

def getVerificationGasLimit (verificationGasLimit : Nat) : Checked Nat := .ok verificationGasLimit

section

/- The functions that call `_getVerificationGasLimit`, which is virtual. -/
variable (getVerificationGasLimit : Nat → Checked Nat)

def validatePaymasterPrepaymentWith (opIndex : Nat) (op : PackedUserOperation) (opInfo : UserOpInfo)
    (requiredPreFund : Nat) : Code (Bytes × Nat) := do
  let preGas ← Prog.gasleft
  let mUserOp := opInfo.mUserOp
  let paymaster := mUserOp.paymaster
  let deposit ← balanceOf paymaster
  failUnless (requiredPreFund ≤ deposit) opIndex "AA31 paymaster deposit too low"
  Prog.sstore fun s =>
    (s.setDeposit paymaster (deposit - requiredPreFund)).note (Books.lock requiredPreFund)
  let pmVerificationGasLimit := mUserOp.paymasterVerificationGasLimit
  let (success, ret) ← Prog.call ⟨paymaster, 0, some pmVerificationGasLimit,
    .validatePaymasterUserOp op opInfo.userOpHash requiredPreFund⟩
  Prog.require success (.failedOpWithRevert opIndex "AA33 reverted" ret.getReturnData)
  let buffer := ret.toBytes
  let (context, validationData) ← getOrRevert (.decodeRevert buffer 64 (Abi.wordAt buffer 0)) ret.decodeContext
  let gas ← Prog.gasleft
  let limit ← lift (getVerificationGasLimit pmVerificationGasLimit)
  failUnless (Yul.sub preGas gas ≤ limit) opIndex "AA36 over paymasterVerificationGasLimit"
  return (context, validationData)

/-- Returns what is to be written to the operation's `UserOpInfo`, and both validation data. -/
def validatePrepaymentWith (opIndex : Nat) (userOp : PackedUserOperation) (outOpInfo : UserOpInfo)
    : Code (UserOpInfo × Nat × Nat) := do
  let preGas ← Prog.gasleft
  let mUserOp ← getOrRevert (.error "AA93 invalid paymasterAndData") (copyUserOpToMemory userOp)
  let outOpInfo := { outOpInfo with mUserOp := mUserOp, userOpHash := getUserOpHash cfg userOp }
  let verificationGasLimit := mUserOp.verificationGasLimit
  require (maxGasValues mUserOp ≤ 2 ^ 120 - 1) "AA94 gas values overflow"
  let requiredPreFund := getRequiredPrefund mUserOp
  let validationData ← validateAccountPrepayment cfg opIndex userOp outOpInfo requiredPreFund
    verificationGasLimit
  failUnless (← validateAndUpdateNonce mUserOp.sender mUserOp.nonce) opIndex
    "AA25 invalid account nonce"
  let gas ← Prog.gasleft
  let limit ← lift (getVerificationGasLimit verificationGasLimit)
  failUnless (Yul.sub preGas gas ≤ limit) opIndex "AA26 over verificationGasLimit"
  let (context, paymasterValidationData) ← (
    if mUserOp.paymaster = 0 then
      pure ([], 0)
    else
      validatePaymasterPrepaymentWith getVerificationGasLimit opIndex userOp outOpInfo requiredPreFund)
  let preOpGas := Yul.add (Yul.sub preGas (← Prog.gasleft)) userOp.preVerificationGas.toNat
  return ({ outOpInfo with prefund := requiredPreFund, context := context, preOpGas := preOpGas },
    validationData, paymasterValidationData)

end

def validatePaymasterPrepayment (opIndex : Nat) (op : PackedUserOperation) (opInfo : UserOpInfo)
    (requiredPreFund : Nat) : Code (Bytes × Nat) :=
  validatePaymasterPrepaymentWith getVerificationGasLimit opIndex op opInfo requiredPreFund

def validatePrepayment (opIndex : Nat) (userOp : PackedUserOperation) (outOpInfo : UserOpInfo)
    : Code (UserOpInfo × Nat × Nat) :=
  validatePrepaymentWith cfg getVerificationGasLimit opIndex userOp outOpInfo

/-! ## Execution -/

def emitUserOperationEvent (opInfo : UserOpInfo) (success : Bool) (actualGasCost actualGas : Nat)
    : Code Unit :=
  Prog.emit (.userOperationEvent opInfo.userOpHash opInfo.mUserOp.sender opInfo.mUserOp.paymaster
    opInfo.mUserOp.nonce success actualGasCost actualGas)

def emitPrefundTooLow (opInfo : UserOpInfo) : Code Unit :=
  Prog.emit (.userOperationPrefundTooLow opInfo.userOpHash opInfo.mUserOp.sender
    opInfo.mUserOp.nonce)

/-- The operation pays its whole prefund. -/
def chargePrefund (opInfo : UserOpInfo) (actualGas : Nat) : Code Nat := do
  Prog.sstore fun s => s.note (Books.settle opInfo.prefund opInfo.prefund)
  emitPrefundTooLow opInfo
  emitUserOperationEvent opInfo false opInfo.prefund actualGas
  return opInfo.prefund

def callPostOp (mode : PostOpMode) (mUserOp : MemoryUserOp) (context : Bytes)
    (actualGasCost gasPrice : Nat) : Code Unit :=
  if mUserOp.paymaster = 0 ∨ context.length = 0 ∨ mode = .postOpReverted then
    pure ()
  else do
    requireCode mUserOp.paymaster
    let (success, ret) ← Prog.call ⟨mUserOp.paymaster, 0, some mUserOp.paymasterPostOpGasLimit,
      .postOp mode context actualGasCost gasPrice⟩
    Prog.require success (.postOpReverted ret.getReturnData)

def postExecution (mode : PostOpMode) (opInfo : UserOpInfo) (context : Bytes) (actualGas : Nat)
    : Code Nat := do
  let preGas ← Prog.gasleft
  let mUserOp := opInfo.mUserOp
  let gasPrice := getUserOpGasPrice msg.env.basefee mUserOp
  callPostOp mode mUserOp context (Yul.mul actualGas gasPrice) gasPrice
  let actualGas := Yul.add actualGas (Yul.sub preGas (← Prog.gasleft))
  let actualGas := addUnusedGasPenalty opInfo actualGas
  let actualGasCost := Yul.mul actualGas gasPrice
  let prefund := opInfo.prefund
  if prefund < actualGasCost then
    if mode = .postOpReverted then
      chargePrefund opInfo actualGas
    else
      .revert (.words [INNER_REVERT_LOW_PREFUND])
  else do
    let refund := prefund - actualGasCost
    let _ ← incrementDeposit mUserOp.payer refund (Books.settle prefund actualGasCost)
    emitUserOperationEvent opInfo (mode == .opSucceeded) actualGasCost actualGas
    return actualGasCost

/-- The call of the account, and whether it succeeded. -/
def callAccount (callData : CallData) (opInfo : UserOpInfo) : Code PostOpMode :=
  if callData.isEmpty then
    pure .opSucceeded
  else do
    let mUserOp := opInfo.mUserOp
    let (success, ret) ← Prog.call ⟨mUserOp.sender, 0, some mUserOp.callGasLimit, callData.message⟩
    if success then
      pure .opSucceeded
    else do
      let result := ret.getReturnData
      if result.length > 0 then
        Prog.emit (.userOperationRevertReason opInfo.userOpHash mUserOp.sender mUserOp.nonce result)
        pure .opReverted
      else
        pure .opReverted

def innerHandleOp (callData : CallData) (opInfo : UserOpInfo) (context : Bytes) : Code ReturnData := do
  let preGas ← Prog.gasleft
  require (msg.caller == msg.self) "AA92 internal call only"
  let mUserOp := opInfo.mUserOp
  let gas ← Prog.gasleft
  Prog.require
    (Yul.add (Yul.add mUserOp.callGasLimit mUserOp.paymasterPostOpGasLimit) INNER_GAS_OVERHEAD
      ≤ Yul.mul gas 63 / 64)
    (.words [INNER_OUT_OF_GAS])
  let mode ← callAccount callData opInfo
  let actualGas := Yul.add (Yul.sub preGas (← Prog.gasleft)) opInfo.preOpGas
  let actualGasCost ← postExecution msg mode opInfo context actualGas
  return .words [actualGasCost]

/-- `preGas - gasleft() + opInfo.preOpGas`, checked. -/
def gasSince (preGas : Nat) (opInfo : UserOpInfo) : Code Nat := do
  let used ← lift (Solidity.sub preGas (← Prog.gasleft))
  lift (Solidity.add used opInfo.preOpGas)

def innerCallData (userOp : PackedUserOperation) (opInfo : UserOpInfo) : CallData :=
  let methodSig := if userOp.callData.length > 3 then Abi.uintAt userOp.callData 0 4 else 0
  if methodSig = executeUserOpSelector then
    .executeUserOp userOp opInfo.userOpHash
  else
    .bytes userOp.callData

def innerRevertCode (ret : ReturnData) : Nat :=
  if ret.toBytes.length = 32 then Abi.wordAt ret.toBytes 0 else 0

def executeUserOp (opIndex : Nat) (userOp : PackedUserOperation) (opInfo : UserOpInfo)
    : Code Nat := do
  let preGas ← Prog.gasleft
  let context := opInfo.context
  let (success, ret) ← Prog.call
    ⟨msg.self, 0, none, .innerHandleOp (innerCallData userOp opInfo) opInfo context⟩
  if success then
    return Abi.wordAt ret.toBytes 0
  else if innerRevertCode ret = INNER_OUT_OF_GAS then
    -- the gas limit of the whole bundle was too low
    .revert (.failedOp opIndex "AA95 out of gas")
  else if innerRevertCode ret = INNER_REVERT_LOW_PREFUND then do
    let actualGas ← gasSince preGas opInfo
    chargePrefund opInfo actualGas
  else do
    Prog.emit (.postOpRevertReason opInfo.userOpHash opInfo.mUserOp.sender opInfo.mUserOp.nonce
      ret.getReturnData)
    let actualGas ← gasSince preGas opInfo
    postExecution msg .postOpReverted opInfo context actualGas

/-! ## Bundles -/

/-- Validate operations, `opIndex` being the position of the first one in `opInfos` and `i` the index
that its validation data is reported under. -/
def validateOps (aggregator : Address)
    : Nat → Nat → List PackedUserOperation → List UserOpInfo → Code (List UserOpInfo)
  | _, _, [], opInfos => pure opInfos
  | i, opIndex, op :: ops, opInfos => do
    let opInfo ← lift (getOpInfo opInfos opIndex)
    let (opInfo, validationData, pmValidationData) ← validatePrepayment cfg opIndex op opInfo
    validateAccountAndPaymasterValidationData msg i validationData pmValidationData aggregator
    validateOps aggregator (i + 1) (opIndex + 1) ops (opInfos.set opIndex opInfo)
where
  getOpInfo (opInfos : List UserOpInfo) (i : Nat) : Checked UserOpInfo :=
    match opInfos[i]? with
    | some opInfo => .ok opInfo
    | none => .error .outOfBounds

/-- Execute operations one after the other and add up what they pay. -/
def executeOps (add : Nat → Nat → Checked Nat)
    : Nat → List PackedUserOperation → List UserOpInfo → Nat → Code Nat
  | _, [], _, collected => pure collected
  | opIndex, op :: ops, opInfos, collected => do
    let opInfo ← lift (validateOps.getOpInfo opInfos opIndex)
    let paid ← executeUserOp msg opIndex op opInfo
    let collected ← lift (add collected paid)
    executeOps add (opIndex + 1) ops opInfos collected

def compensate (beneficiary : Address) (amount : Nat) : Code Unit := do
  require (beneficiary != 0) "AA90 invalid beneficiary"
  Prog.sstore fun s => s.note (Books.pay amount)
  let (success, _) ← Prog.call ⟨beneficiary, amount, none, .bytes []⟩
  require success "AA91 failed send to beneficiary"

def nonReentrant (body : Code α) : Code α := do
  let s ← Prog.sload
  let entered ← decoded (cfg.nonReentrantBefore s.entered)
  Prog.sstore fun s => { s with entered := entered }
  let a ← body
  Prog.sstore fun s => { s with entered := cfg.nonReentrantAfter s.entered }
  return a

def handleOps (ops : List PackedUserOperation) (beneficiary : Address) : Code ReturnData :=
  nonReentrant cfg do
    let opInfos ← validateOps cfg msg 0 0 0 ops (List.replicate ops.length default)
    Prog.emit .beforeExecution
    let collected ← executeOps msg (fun a b => .ok (Yul.add a b)) 0 ops opInfos 0
    compensate beneficiary collected
    return default

/-- The first loop of `handleAggregatedOps`: the aggregators' signatures. -/
def validateAggregators : List UserOpsPerAggregator → Code Unit
  | [] => pure ()
  | opa :: opas => do
    require (opa.aggregator != 1) "AA96 invalid aggregator"
    validateSignatures opa
    validateAggregators opas
where
  validateSignatures (opa : UserOpsPerAggregator) : Code Unit :=
    if opa.aggregator = 0 then
      pure ()
    else do
      requireCode opa.aggregator
      let (success, _) ← Prog.call
        ⟨opa.aggregator, 0, none, .validateSignatures opa.userOps opa.signature⟩
      Prog.require success (.signatureValidationFailed opa.aggregator)

def validateGroups : Nat → List UserOpsPerAggregator → List UserOpInfo → Code (List UserOpInfo)
  | _, [], opInfos => pure opInfos
  | opIndex, opa :: opas, opInfos => do
    let opInfos ← validateOps cfg msg opa.aggregator 0 opIndex opa.userOps opInfos
    validateGroups (opIndex + opa.userOps.length) opas opInfos

def executeGroups : Nat → List UserOpsPerAggregator → List UserOpInfo → Nat → Code Nat
  | _, [], _, collected => pure collected
  | opIndex, opa :: opas, opInfos, collected => do
    Prog.emit (.signatureAggregatorChanged opa.aggregator)
    let collected ← executeOps msg Solidity.add opIndex opa.userOps opInfos collected
    executeGroups (opIndex + opa.userOps.length) opas opInfos collected

def totalOps (opsPerAggregator : List UserOpsPerAggregator) : Nat :=
  (opsPerAggregator.map fun opa => opa.userOps.length).sum

def handleAggregatedOps (opsPerAggregator : List UserOpsPerAggregator) (beneficiary : Address)
    : Code ReturnData :=
  nonReentrant cfg do
    validateAggregators opsPerAggregator
    let opInfos ← validateGroups cfg msg 0 opsPerAggregator
      (List.replicate (totalOps opsPerAggregator) default)
    Prog.emit .beforeExecution
    let collected ← executeGroups msg 0 opsPerAggregator opInfos 0
    Prog.emit (.signatureAggregatorChanged 0)
    compensate beneficiary collected
    return default

/-! ## The contract -/

def getSenderAddress (initCode : Bytes) : Code ReturnData := do
  let (success, ret) ← Prog.call ⟨cfg.senderCreator, 0, none, .createSender initCode⟩
  Prog.require success ret
  let sender ← decoded ret.decodeAddress
  .revert (.senderAddressResult sender)

def delegateAndRevert (target : Address) (data : Bytes) : Code ReturnData := do
  let (success, ret) ← Prog.delegatecall target (.bytes data)
  .revert (.delegateAndRevert success ret.toBytes)

def viewWords (s : Storage) : EntryPointView → List Nat
  | .balanceOf account => [(s.deposits account).deposit]
  | .getDepositInfo account | .deposits account => DepositInfo.words (s.deposits account)
  | .getNonce sender key => [s.getNonce sender key]
  | .nonceSequenceNumber sender key => [s.nonceSequenceNumber sender key]
  | .getUserOpHash userOp => [(getUserOpHash cfg userOp).toNat]
  | .getDomainSeparatorV4 => [cfg.domainSeparatorV4.toNat]
  | .getPackedUserOpTypeHash => [(UserOperationLib.PACKED_USEROP_TYPEHASH cfg.keccak256).toNat]
  | .senderCreator => [cfg.senderCreator.toNat]

/-- Functions that are not payable reject any value. -/
def nonpayable (body : Code α) : Code α := do
  Prog.require (msg.value == 0) default
  body

/-- Empty calldata is received; other calldata is decoded. -/
def decodeMessage : Message → Message
  | .bytes [] => .receive
  | .bytes data => (cfg.abiDecode data).getD (.bytes data)
  | message => message

def dispatch : Code ReturnData :=
  match decodeMessage cfg msg.message with
  | .receive => depositTo msg msg.caller
  | .depositTo account => depositTo msg account
  | .addStake unstakeDelaySec => addStake msg unstakeDelaySec
  | .unlockStake => nonpayable msg (unlockStake msg)
  | .withdrawStake withdrawAddress => nonpayable msg (withdrawStake msg withdrawAddress)
  | .withdrawTo withdrawAddress withdrawAmount =>
    nonpayable msg (withdrawTo msg withdrawAddress withdrawAmount)
  | .incrementNonce key => nonpayable msg (incrementNonce msg key)
  | .entryPointView view => nonpayable msg do return .words (viewWords cfg (← Prog.sload) view)
  | .handleOps ops beneficiary => nonpayable msg (handleOps cfg msg ops beneficiary)
  | .handleAggregatedOps opsPerAggregator beneficiary =>
    nonpayable msg (handleAggregatedOps cfg msg opsPerAggregator beneficiary)
  | .innerHandleOp callData opInfo context => nonpayable msg (innerHandleOp msg callData opInfo context)
  | .getSenderAddress initCode => nonpayable msg (getSenderAddress cfg initCode)
  | .delegateAndRevert target data => nonpayable msg (delegateAndRevert target data)
  | _ => .revert default

end

end EntryPoint

namespace SenderCreator

open Evm

abbrev Code := Prog Unit Message ReturnData Log

def createSender (entryPoint : Address) (msg : Frame Message) (initCode : Bytes) : Code ReturnData := do
  Prog.require (msg.caller == entryPoint) (.error "AA97 should call from EntryPoint")
  Prog.require (20 ≤ initCode.length) default
  let factory := Abi.addressAt initCode 0
  let initCallData := initCode.drop 20
  let (success, ret) ← Prog.call ⟨factory, 0, none, .bytes initCallData⟩
  let sender := if success then Abi.wordAt ret.toBytes 0 % 2 ^ 160 else 0
  return .words [sender]

def dispatch (entryPoint : Address) (abiDecode : Bytes → Option Message) (msg : Frame Message)
    : Code ReturnData := do
  Prog.require (msg.value == 0) default
  match (match msg.message with | .bytes data => (abiDecode data).getD (.bytes data) | m => m) with
  | .createSender initCode => createSender entryPoint msg initCode
  | _ => .revert default

end SenderCreator
