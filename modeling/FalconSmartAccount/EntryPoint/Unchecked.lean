import FalconSmartAccount.Evm.Replay
import FalconSmartAccount.EntryPoint.GasCharge

/-!
No unchecked operation wraps: for a bundle, the code does the same as if every operation were checked.
-/

open Evm

namespace EntryPoint

/-! ## The code with every operation checked -/

namespace Strict

open Solidity (add sub mul)

def getRequiredPrefund (mUserOp : MemoryUserOp) : Checked Nat := do
  let limits ← add mUserOp.verificationGasLimit mUserOp.callGasLimit
  let limits ← add limits mUserOp.paymasterVerificationGasLimit
  let limits ← add limits mUserOp.paymasterPostOpGasLimit
  let requiredGas ← add limits mUserOp.preVerificationGas
  mul requiredGas mUserOp.maxFeePerGas

def getUserOpGasPrice (basefee : Nat) (mUserOp : MemoryUserOp) : Checked Nat :=
  if mUserOp.maxFeePerGas = mUserOp.maxPriorityFeePerGas then
    .ok mUserOp.maxFeePerGas
  else do
    let fee ← add mUserOp.maxPriorityFeePerGas basefee
    return min mUserOp.maxFeePerGas fee

def addUnusedGasPenalty (opInfo : UserOpInfo) (actualGas : Nat) : Checked Nat := do
  let executionGasLimit ← add opInfo.mUserOp.callGasLimit opInfo.mUserOp.paymasterPostOpGasLimit
  let executionGasUsed ← sub actualGas opInfo.preOpGas
  if executionGasLimit > executionGasUsed then
    let unusedGas ← sub executionGasLimit executionGasUsed
    let unusedGasPenalty ← mul unusedGas PENALTY_PERCENT
    add actualGas (unusedGasPenalty / 100)
  else
    return actualGas

section

variable (cfg : Config) (msg : Frame Message) (wrapped : ReturnData)

/-- Revert with `wrapped` where the unchecked operation would wrap. -/
def check : Checked α → Code α
  | .ok a => pure a
  | .error _ => .revert wrapped

/-- `preGas - gasleft()`. -/
def gasUsed (preGas : Nat) : Code Nat := do
  check wrapped (sub preGas (← Prog.gasleft))

def missingAccountFunds (mUserOp : MemoryUserOp) (requiredPrefund : Nat) : Code Nat :=
  if mUserOp.paymaster = 0 then do
    let bal ← balanceOf mUserOp.sender
    if bal > requiredPrefund then
      return 0
    else
      check wrapped (sub requiredPrefund bal)
  else
    pure 0

def deductAccountPrefund (opIndex : Nat) (mUserOp : MemoryUserOp) (requiredPrefund : Nat) : Code Unit :=
  if mUserOp.paymaster = 0 then do
    let deposit ← balanceOf mUserOp.sender
    failUnless (requiredPrefund ≤ deposit) opIndex "AA21 didn't pay prefund"
    let deposit ← check wrapped (sub deposit requiredPrefund)
    Prog.sstore fun s => (s.setDeposit mUserOp.sender deposit).note (Books.lock requiredPrefund)
  else
    pure ()

def validateAccountPrepayment (opIndex : Nat) (op : PackedUserOperation) (opInfo : UserOpInfo)
    (requiredPrefund verificationGasLimit : Nat) : Code Nat := do
  let mUserOp := opInfo.mUserOp
  createSenderIfNeeded cfg opIndex opInfo op.initCode
  let missing ← missingAccountFunds wrapped mUserOp requiredPrefund
  let (success, ret) ← Prog.call
    ⟨mUserOp.sender, 0, some verificationGasLimit, .validateUserOp op opInfo.userOpHash missing⟩
  Prog.require success (.failedOpWithRevert opIndex "AA23 reverted" ret.getReturnData)
  let validationData ← decoded ret.decodeWord
  deductAccountPrefund wrapped opIndex mUserOp requiredPrefund
  return validationData

def validatePaymasterPrepayment (opIndex : Nat) (op : PackedUserOperation) (opInfo : UserOpInfo)
    (requiredPreFund : Nat) : Code (Bytes × Nat) := do
  let preGas ← Prog.gasleft
  let mUserOp := opInfo.mUserOp
  let paymaster := mUserOp.paymaster
  let deposit ← balanceOf paymaster
  failUnless (requiredPreFund ≤ deposit) opIndex "AA31 paymaster deposit too low"
  let deposit ← check wrapped (sub deposit requiredPreFund)
  Prog.sstore fun s => (s.setDeposit paymaster deposit).note (Books.lock requiredPreFund)
  let pmVerificationGasLimit := mUserOp.paymasterVerificationGasLimit
  let (success, ret) ← Prog.call ⟨paymaster, 0, some pmVerificationGasLimit,
    .validatePaymasterUserOp op opInfo.userOpHash requiredPreFund⟩
  Prog.require success (.failedOpWithRevert opIndex "AA33 reverted" ret.getReturnData)
  let buffer := ret.toBytes
  let (context, validationData) ← getOrRevert (.decodeRevert buffer 64 (Abi.wordAt buffer 0)) ret.decodeContext
  failUnless ((← gasUsed wrapped preGas) ≤ pmVerificationGasLimit) opIndex
    "AA36 over paymasterVerificationGasLimit"
  return (context, validationData)

def validatePrepayment (opIndex : Nat) (userOp : PackedUserOperation) (outOpInfo : UserOpInfo)
    : Code (UserOpInfo × Nat × Nat) := do
  let preGas ← Prog.gasleft
  let mUserOp ← getOrRevert (.error "AA93 invalid paymasterAndData") (copyUserOpToMemory userOp)
  let outOpInfo := { outOpInfo with mUserOp := mUserOp, userOpHash := getUserOpHash cfg userOp }
  let verificationGasLimit := mUserOp.verificationGasLimit
  require (maxGasValues mUserOp ≤ 2 ^ 120 - 1) "AA94 gas values overflow"
  let requiredPreFund ← check wrapped (getRequiredPrefund mUserOp)
  let validationData ← validateAccountPrepayment cfg wrapped opIndex userOp outOpInfo requiredPreFund
    verificationGasLimit
  failUnless (← validateAndUpdateNonce mUserOp.sender mUserOp.nonce) opIndex
    "AA25 invalid account nonce"
  failUnless ((← gasUsed wrapped preGas) ≤ verificationGasLimit) opIndex
    "AA26 over verificationGasLimit"
  let (context, paymasterValidationData) ← (
    if mUserOp.paymaster = 0 then
      pure ([], 0)
    else
      validatePaymasterPrepayment wrapped opIndex userOp outOpInfo requiredPreFund)
  let used ← gasUsed wrapped preGas
  let preOpGas ← check wrapped (add used userOp.preVerificationGas.toNat)
  return ({ outOpInfo with prefund := requiredPreFund, context := context, preOpGas := preOpGas },
    validationData, paymasterValidationData)

/-- The cost so far is computed even if no paymaster is told about it. -/
def postExecution (mode : PostOpMode) (opInfo : UserOpInfo) (context : Bytes) (actualGas : Nat)
    : Code Nat := do
  let preGas ← Prog.gasleft
  let mUserOp := opInfo.mUserOp
  let gasPrice ← check wrapped (getUserOpGasPrice msg.env.basefee mUserOp)
  let actualGasCost ← check wrapped (mul actualGas gasPrice)
  callPostOp mode mUserOp context actualGasCost gasPrice
  let used ← gasUsed wrapped preGas
  let actualGas ← check wrapped (add actualGas used)
  let actualGas ← check wrapped (addUnusedGasPenalty opInfo actualGas)
  let actualGasCost ← check wrapped (mul actualGas gasPrice)
  let prefund := opInfo.prefund
  if prefund < actualGasCost then
    if mode = .postOpReverted then
      chargePrefund opInfo actualGas
    else
      .revert (.words [INNER_REVERT_LOW_PREFUND])
  else do
    let refund ← check wrapped (sub prefund actualGasCost)
    let _ ← incrementDeposit mUserOp.payer refund (Books.settle prefund actualGasCost)
    emitUserOperationEvent opInfo (mode == .opSucceeded) actualGasCost actualGas
    return actualGasCost

def innerHandleOp (callData : CallData) (opInfo : UserOpInfo) (context : Bytes) : Code ReturnData := do
  let preGas ← Prog.gasleft
  require (msg.caller == msg.self) "AA92 internal call only"
  let mUserOp := opInfo.mUserOp
  let available ← check wrapped (mul (← Prog.gasleft) 63)
  let limits ← check wrapped (add mUserOp.callGasLimit mUserOp.paymasterPostOpGasLimit)
  let limits ← check wrapped (add limits INNER_GAS_OVERHEAD)
  Prog.require (limits ≤ available / 64) (.words [INNER_OUT_OF_GAS])
  let mode ← callAccount callData opInfo
  let used ← gasUsed wrapped preGas
  let actualGas ← check wrapped (add used opInfo.preOpGas)
  let actualGasCost ← postExecution msg wrapped mode opInfo context actualGas
  return .words [actualGasCost]

/-- Up to `postExecution` this is checked as it is. -/
def executeUserOp (opIndex : Nat) (userOp : PackedUserOperation) (opInfo : UserOpInfo)
    : Code Nat := do
  let preGas ← Prog.gasleft
  let context := opInfo.context
  let (success, ret) ← Prog.call
    ⟨msg.self, 0, none, .innerHandleOp (innerCallData userOp opInfo) opInfo context⟩
  if success then
    return Abi.wordAt ret.toBytes 0
  else if innerRevertCode ret = INNER_OUT_OF_GAS then
    .revert (.failedOp opIndex "AA95 out of gas")
  else if innerRevertCode ret = INNER_REVERT_LOW_PREFUND then do
    let actualGas ← gasSince preGas opInfo
    chargePrefund opInfo actualGas
  else do
    Prog.emit (.postOpRevertReason opInfo.userOpHash opInfo.mUserOp.sender opInfo.mUserOp.nonce
      ret.getReturnData)
    let actualGas ← gasSince preGas opInfo
    postExecution msg wrapped .postOpReverted opInfo context actualGas

/-- One turn of a bundle, whichever entry point function runs it. -/
def run (p : Progress) : Turn → Code Progress
  | .prepayment position op => do
    let opInfo ← lift (validateOps.getOpInfo p.opInfos position)
    let r ← validatePrepayment cfg wrapped position op opInfo
    return ⟨p.opInfos.set position r.1, r.2.1, r.2.2, p.collected⟩
  | .execution position op => do
    let opInfo ← lift (validateOps.getOpInfo p.opInfos position)
    let paid ← executeUserOp msg wrapped position op opInfo
    let collected ← check wrapped (add p.collected paid)
    return { p with collected := collected }
  | turn => turn.run cfg msg add p

end

/-! ## The checks pass -/

section

variable {mUserOp : MemoryUserOp} (h : maxGasValues mUserOp ≤ 2 ^ 120 - 1)

include h

theorem getRequiredPrefund_ok
    : getRequiredPrefund mUserOp = .ok (EntryPoint.getRequiredPrefund mUserOp) := by
  obtain ⟨hsum, hmul⟩ := requiredPrefund_bounds h
  have hsize : Yul.wordSize = 2 ^ 256 := rfl
  rw [getRequiredPrefund_eq h]
  unfold getRequiredPrefund
  rw [Solidity.add_ok (by omega), Checked.ok_bind]
  rw [Solidity.add_ok (by omega), Checked.ok_bind]
  rw [Solidity.add_ok (by omega), Checked.ok_bind]
  rw [Solidity.add_ok (by omega), Checked.ok_bind]
  exact Solidity.mul_ok hmul

theorem getUserOpGasPrice_ok {basefee : Nat} (hbasefee : basefee < 2 ^ 64)
    : getUserOpGasPrice basefee mUserOp = .ok (EntryPoint.getUserOpGasPrice basefee mUserOp) := by
  obtain ⟨_, _, _, _, _, _, hpriority⟩ := le_of_maxGasValues_le h
  have hfits : mUserOp.maxPriorityFeePerGas + basefee < Yul.wordSize := by
    unfold Yul.wordSize
    omega
  unfold getUserOpGasPrice EntryPoint.getUserOpGasPrice
  rw [Solidity.add_ok hfits, Yul.add_eq hfits]
  split <;> rfl

omit h in
/-- The gas used so far counts from the beginning of the operation. -/
theorem addUnusedGasPenalty_ok {opInfo : UserOpInfo} {actualGas : Nat}
    (h : maxGasValues opInfo.mUserOp ≤ 2 ^ 120 - 1) (hge : opInfo.preOpGas ≤ actualGas)
    (hlt : actualGas < 2 ^ 122)
    : addUnusedGasPenalty opInfo actualGas = .ok (EntryPoint.addUnusedGasPenalty opInfo actualGas)
      ∧ EntryPoint.addUnusedGasPenalty opInfo actualGas < 2 ^ 123 := by
  obtain ⟨_, _, hcall, _, hpostOp, _⟩ := le_of_maxGasValues_le h
  have hsize : Yul.wordSize = 2 ^ 256 := rfl
  have hlimit : opInfo.mUserOp.callGasLimit + opInfo.mUserOp.paymasterPostOpGasLimit < 2 ^ 121 := by
    omega
  unfold addUnusedGasPenalty EntryPoint.addUnusedGasPenalty PENALTY_PERCENT
  dsimp only
  rw [Solidity.add_ok (by omega), Yul.add_eq (by omega)]
  rw [Solidity.sub_ok hge, Yul.sub_eq hge (by omega)]
  generalize opInfo.mUserOp.callGasLimit + opInfo.mUserOp.paymasterPostOpGasLimit = limit at hlimit ⊢
  rw [Checked.ok_bind, Checked.ok_bind]
  by_cases hunused : limit > actualGas - opInfo.preOpGas
  . rw [if_pos hunused, if_pos hunused]
    rw [Solidity.sub_ok hunused.le, Yul.sub_eq hunused.le (by omega), Checked.ok_bind]
    rw [Solidity.mul_ok (by omega), Yul.mul_eq (by omega), Checked.ok_bind]
    rw [Solidity.add_ok (by omega), Yul.add_eq (by omega)]
    exact ⟨rfl, by omega⟩
  . rw [if_neg hunused, if_neg hunused]
    exact ⟨rfl, by omega⟩

/-- The price of an amount of gas fits a word. -/
theorem mul_gasPrice_lt {gas : Nat} (hgas : gas < 2 ^ 123) (basefee : Nat)
    : gas * EntryPoint.getUserOpGasPrice basefee mUserOp < Yul.wordSize := by
  obtain ⟨_, _, _, _, _, hfee, _⟩ := le_of_maxGasValues_le h
  have hprice : EntryPoint.getUserOpGasPrice basefee mUserOp < 2 ^ 120 := by
    have := getUserOpGasPrice_le basefee mUserOp
    omega
  apply (Nat.mul_lt_mul'' hgas hprice).trans_le
  norm_num [Yul.wordSize]

end

section

variable (wrapped : ReturnData)

theorem check_ok (a : α) : check wrapped (.ok a) = pure a := rfl

theorem missingAccountFunds_eq : missingAccountFunds wrapped = EntryPoint.missingAccountFunds := by
  funext mUserOp requiredPrefund
  unfold missingAccountFunds EntryPoint.missingAccountFunds
  split
  . refine bind_congr fun bal => ?_
    split
    . rfl
    . next hle =>
      rw [Solidity.sub_ok (by omega)]
      rfl
  . rfl

theorem failUnless_congr {c : Bool} {opIndex : Nat} {reason : String} {f g : Unit → Code α}
    (h : c = true → f () = g ())
    : (failUnless c opIndex reason >>= f) = (failUnless c opIndex reason >>= g) := by
  cases c with
  | true => exact h rfl
  | false => rfl

theorem deductAccountPrefund_eq : deductAccountPrefund wrapped = EntryPoint.deductAccountPrefund := by
  funext opIndex mUserOp requiredPrefund
  unfold deductAccountPrefund EntryPoint.deductAccountPrefund
  split
  . refine bind_congr fun deposit => failUnless_congr fun hle => ?_
    rw [Solidity.sub_ok (of_decide_eq_true hle)]
    rfl
  . rfl

theorem validateAccountPrepayment_eq (cfg : Config)
    : validateAccountPrepayment cfg wrapped = EntryPoint.validateAccountPrepayment cfg := by
  funext opIndex op opInfo requiredPrefund verificationGasLimit
  unfold validateAccountPrepayment EntryPoint.validateAccountPrepayment
  rw [missingAccountFunds_eq, deductAccountPrefund_eq]

end

end Strict

end EntryPoint

namespace Deployment

open EntryPoint

variable {X : Type} {d : Deployment X} {msg : Frame Message} {s s' : State (Chain X)}
  {t : Chain.Trace X} {op : PackedUserOperation} {opInfo : UserOpInfo} {m opIndex : Nat}
  {wrapped : ReturnData}

/-! ## The same runs -/

/-- For runs of the entry point. -/
abbrev EntryPointSame (d : Deployment X)
    (inv : Frame Message → State (Chain X) → Reply (Chain X) Message ReturnData Log)
    (msg : Frame Message) {α : Type} (p q : EntryPoint.Code α) (s : State (Chain X)) : Prop :=
  Same d.system inv msg Chain.entryPointPart p q s

/-- A measurement of gas, as the difference to an earlier one. -/
theorem gasUsed_same {β : Type} {preGas : Nat} {f g : Nat → EntryPoint.Code β}
    {inv : Frame Message → State (Chain X) → Reply (Chain X) Message ReturnData Log}
    (hle : s.gas ≤ preGas)
    (h : ∀ s1 : State (Chain X), s1.gas ≤ s.gas → s1.gas ≤ preGas →
      d.EntryPointSame inv msg (f s1.gas) (g (preGas - s1.gas)) s1)
    : d.EntryPointSame inv msg (Prog.gasleft >>= f) (Strict.gasUsed wrapped preGas >>= g) s := by
  unfold Strict.gasUsed
  rw [bind_assoc]
  refine .next fun gas s1 t1 h1 => ?_
  obtain ⟨rfl, hle1, _⟩ := gasleft_returns h1
  rw [Solidity.sub_ok (hle1.trans hle)]
  exact h s1 hle1 (hle1.trans hle)

theorem validatePaymasterPrepayment_same {requiredPreFund : Nat} (hgas : s.gas < 2 ^ 64)
    : d.EntryPointSame (invoke d.system m) msg
        (EntryPoint.validatePaymasterPrepayment opIndex op opInfo requiredPreFund)
        (Strict.validatePaymasterPrepayment wrapped opIndex op opInfo requiredPreFund) s := by
  have hinv := invoke_gas_le d.system m
  have hsize : Yul.wordSize = 2 ^ 256 := rfl
  unfold EntryPoint.validatePaymasterPrepayment validatePaymasterPrepaymentWith
    Strict.validatePaymasterPrepayment
  refine .next fun preGas s1 t1 h1 => .next fun deposit s2 t2 h2 => .next_require fun hdeposit => ?_
  obtain ⟨rfl, hle1, _⟩ := gasleft_returns h1
  have hle2 := h2.gas_le hinv
  rw [Solidity.sub_ok (of_decide_eq_true hdeposit)]
  refine .next fun _ s3 t3 h3 => .next fun r s4 t4 h4 => .next_require fun _ => ?_
  have hle3 := h3.gas_le hinv
  have hle4 := h4.gas_le hinv
  refine .next fun r s5 t5 h5 => ?_
  have hle5 := h5.gas_le hinv
  refine gasUsed_same (by omega) fun s6 _ hle6 => ?_
  rw [Yul.sub_eq hle6 (by omega)]
  exact .refl _

theorem validatePrepayment_same {outOpInfo : UserOpInfo} (hgas : s.gas < 2 ^ 64)
    : d.EntryPointSame (invoke d.system m) msg
        (EntryPoint.validatePrepayment d.cfg opIndex op outOpInfo)
        (Strict.validatePrepayment d.cfg wrapped opIndex op outOpInfo) s := by
  have hinv := invoke_gas_le d.system m
  have hsize : Yul.wordSize = 2 ^ 256 := rfl
  unfold EntryPoint.validatePrepayment validatePrepaymentWith Strict.validatePrepayment
  refine .next fun preGas s1 t1 h1 => ?_
  obtain ⟨rfl, hle1, _⟩ := gasleft_returns h1
  cases hcopy : copyUserOpToMemory op with
  | none => exact .refl _
  | some mUserOp =>
    refine .next_require fun hvalues => ?_
    have hvalues := of_decide_eq_true hvalues
    rw [Strict.getRequiredPrefund_ok hvalues, Strict.validateAccountPrepayment_eq]
    refine .next fun validationData s2 t2 h2 => .next fun accepted s3 t3 h3 => .next_require fun _ => ?_
    have hle2 := h2.gas_le hinv
    have hle3 := h3.gas_le hinv
    refine gasUsed_same (by omega) fun s4 _ hle4 => ?_
    rw [Yul.sub_eq hle4 (by omega)]
    refine .next_require fun _ => .bind ?_ fun r s5 t5 h5 => ?_
    . split
      . exact .refl _
      . exact validatePaymasterPrepayment_same (by omega)
    . have hle5 := h5.gas_le hinv
      obtain ⟨hpreVerificationGas, _⟩ := le_of_maxGasValues_le hvalues
      rw [copyUserOpToMemory_preVerificationGas hcopy] at hpreVerificationGas
      refine gasUsed_same (by omega) fun s6 _ hle6 => ?_
      rw [Yul.sub_eq hle6 (by omega), Yul.add_eq (by omega), Solidity.add_ok (by omega)]
      exact .refl _

/-- `actualGas` is the gas used before, and no less than the gas of the validation. -/
theorem postExecution_same {mode : PostOpMode} {context : Bytes} {actualGas : Nat} (hgas : s.gas < 2 ^ 64)
    (hbasefee : msg.env.basefee < 2 ^ 64) (hvalues : maxGasValues opInfo.mUserOp ≤ 2 ^ 120 - 1)
    (hge : opInfo.preOpGas ≤ actualGas) (hlt : actualGas + s.gas < 2 ^ 122)
    : d.EntryPointSame (invoke d.system m) msg
        (EntryPoint.postExecution msg mode opInfo context actualGas)
        (Strict.postExecution msg wrapped mode opInfo context actualGas) s := by
  have hinv := invoke_gas_le d.system m
  have hsize : Yul.wordSize = 2 ^ 256 := rfl
  have hmul {gas : Nat} (hgas : gas < 2 ^ 123) := Strict.mul_gasPrice_lt hvalues hgas msg.env.basefee
  unfold EntryPoint.postExecution Strict.postExecution
  refine .next fun preGas s1 t1 h1 => ?_
  obtain ⟨rfl, hle1, _⟩ := gasleft_returns h1
  dsimp only
  rw [Strict.getUserOpGasPrice_ok hvalues hbasefee]
  rw [Strict.check_ok, pure_bind]
  rw [Solidity.mul_ok (hmul (by omega)), Yul.mul_eq (hmul (by omega))]
  refine .next fun _ s2 t2 h2 => ?_
  have hle2 := h2.gas_le hinv
  refine gasUsed_same (by omega) fun s3 _ hle3 => ?_
  rw [Yul.sub_eq hle3 (by omega), Yul.add_eq (by omega), Solidity.add_ok (by omega)]
  rw [Strict.check_ok, pure_bind]
  obtain ⟨hpenalty, hlt'⟩ := @Strict.addUnusedGasPenalty_ok opInfo (actualGas + (s1.gas - s3.gas)) hvalues
    (by omega) (by omega)
  rw [hpenalty, Strict.check_ok, pure_bind]
  rw [Solidity.mul_ok (hmul hlt'), Yul.mul_eq (hmul hlt')]
  rw [Strict.check_ok, pure_bind]
  split
  . exact .refl _
  . next hcost =>
    rw [Solidity.sub_ok (Nat.le_of_not_lt hcost)]
    exact .refl _

theorem innerHandleOp_same {callData : CallData} {context : Bytes} (hgas : s.gas < 2 ^ 64)
    (hbasefee : msg.env.basefee < 2 ^ 64) (hbounded : Bounded s.gas opInfo)
    : d.EntryPointSame (invoke d.system m) msg
        (EntryPoint.innerHandleOp msg callData opInfo context)
        (Strict.innerHandleOp msg wrapped callData opInfo context) s := by
  have hinv := invoke_gas_le d.system m
  have hsize : Yul.wordSize = 2 ^ 256 := rfl
  have hoverhead : INNER_GAS_OVERHEAD = 10000 := rfl
  obtain ⟨_, _, hcall, _, hpostOp, _⟩ := le_of_maxGasValues_le hbounded.maxGasValues
  have hpreOpGas := hbounded.preOpGas
  unfold EntryPoint.innerHandleOp Strict.innerHandleOp
  refine .next fun preGas s1 t1 h1 => .next_require fun _ => .next fun gas s2 t2 h2 => ?_
  obtain ⟨rfl, hle1, _⟩ := gasleft_returns h1
  obtain ⟨rfl, hle2, _⟩ := gasleft_returns h2
  dsimp only
  have hlimits : Yul.add opInfo.mUserOp.callGasLimit opInfo.mUserOp.paymasterPostOpGasLimit
      = opInfo.mUserOp.callGasLimit + opInfo.mUserOp.paymasterPostOpGasLimit :=
    Yul.add_eq (by omega)
  rw [Solidity.mul_ok (by omega), Yul.mul_eq (by omega), Strict.check_ok, pure_bind]
  rw [Solidity.add_ok (by omega), hlimits, Strict.check_ok, pure_bind]
  rw [Solidity.add_ok (by omega), Yul.add_eq (by omega), Strict.check_ok, pure_bind]
  refine .next_require fun _ => .next fun mode s3 t3 h3 => ?_
  have hle3 := h3.gas_le hinv
  refine gasUsed_same (by omega) fun s4 _ hle4 => ?_
  rw [Yul.sub_eq hle4 (by omega), Yul.add_eq (by omega), Solidity.add_ok (by omega)]
  rw [Strict.check_ok, pure_bind]
  exact .bind (postExecution_same (by omega) hbasefee hbounded.maxGasValues (by omega) (by omega))
    fun _ _ _ _ => .refl _

theorem executeUserOp_same (hgas : s.gas < 2 ^ 64) (hbasefee : msg.env.basefee < 2 ^ 64)
    (hbounded : Bounded s.gas opInfo)
    : d.EntryPointSame (invoke d.system m) msg
        (EntryPoint.executeUserOp msg opIndex op opInfo)
        (Strict.executeUserOp msg wrapped opIndex op opInfo) s := by
  have hinv := invoke_gas_le d.system m
  have hpreOpGas := hbounded.preOpGas
  unfold EntryPoint.executeUserOp Strict.executeUserOp
  refine .next fun preGas s1 t1 h1 => .next fun ⟨success, ret⟩ s2 t2 h2 => ?_
  obtain ⟨rfl, hle1, _⟩ := gasleft_returns h1
  have hle2 := h2.gas_le hinv
  dsimp only
  split
  . exact .refl _
  . split
    . exact .refl _
    . split
      . exact .refl _
      . refine .next fun _ s3 t3 h3 => .next fun actualGas s4 t4 h4 => ?_
        have hle3 := h3.gas_le hinv
        have hle4 := h4.gas_le hinv
        obtain ⟨_, hge, hle⟩ := gasSince_returns h4
        exact postExecution_same (by omega) hbasefee hbounded.maxGasValues hge (by omega)

/-! ## Bundles -/

variable {locked collected validated executed : Nat} {p : Progress}

/-- The execution of an operation, with what it adds to what is collected. -/
theorem Midway.execution_same {b : Schedule} {position : Nat} (hself : msg.self = d.entryPoint)
    (hbasefee : msg.env.basefee < 2 ^ 64)
    (hadd : ∀ x y z, x + y < 2 ^ 256 → (b.add x y = .ok z ↔ z = x + y))
    (h : d.Midway locked collected validated position p s) (hlt : position < validated)
    (hget : p.opInfos[position]? = some opInfo)
    : d.EntryPointSame (invoke d.system m) msg (Turn.run d.cfg msg b.add p (.execution position op))
        (Strict.run d.cfg msg wrapped p (.execution position op)) s := by
  have hpending := pending_cons hlt hget
  have hbounded := h.bounded opInfo (by rw [hpending]; exact List.mem_cons_self)
  have hsender := h.sender opInfo (by rw [hpending]; exact List.mem_cons_self)
  obtain ⟨used, hholds⟩ := h.holds
  rw [hpending, List.map_cons, List.sum_cons, Nat.add_comm opInfo.prefund, ← Nat.add_assoc] at hholds
  refine .next fun opInfo' s1 t1 h1 => ?_
  obtain ⟨opInfo'', hget', h1⟩ := Returns.bind_lift (f := pure) (by rw [bind_pure]; exact h1)
  obtain ⟨rfl, rfl, _⟩ := h1.pure
  have hsame : opInfo' = opInfo := by
    have := getOpInfo_eq hget'
    rw [hget] at this
    exact (Option.some.inj this).symm
  subst hsame
  refine .bind (executeUserOp_same h.gas hbasefee hbounded) fun paid s2 t2 h2 => ?_
  -- what is collected is covered by the balance
  have hkept := Sat.returns (executeUserOp_keeps (handles m) hself hsender) hholds h2
  have hfits := hkept.collected_lt
  have hsum : b.add p.collected paid = .ok (p.collected + paid) := (hadd _ _ _ (by omega)).mpr rfl
  rw [hsum, Solidity.add_ok (by unfold Yul.wordSize; omega)]
  exact .refl _

/-- In every turn of a bundle, and in the inner call of an execution, the code does the same as if all its
operations were checked, whatever the checks revert with. -/
theorem turns_without_wrapping {n : Nat} {b : Schedule} {turn : Turn} {s1 : State (Chain X)}
    (hself : msg.self = d.entryPoint) (hschedule : scheduleOf (decodeMessage d.cfg msg.message) = some b)
    (hpassed : d.Passed s.world) (hgas : s.gas < 2 ^ 64) (hbasefee : msg.env.basefee < 2 ^ 64)
    (hcomes : d.ComesTo n msg b s m turn p s1)
    : ∀ wrapped,
      d.EntryPointSame (invoke d.system m) msg (turn.run d.cfg msg b.add p)
        (Strict.run d.cfg msg wrapped p turn) s1
      ∧ ∀ position op, turn = .execution position op →
        ∃ opInfo, p.opInfos[position]? = some opInfo
          ∧ ∀ m' s2, s2.gas ≤ s1.gas →
            d.EntryPointSame (invoke d.system m') (innerHandleOpFrame msg op opInfo)
              (innerHandleOp (innerHandleOpFrame msg op opInfo) (innerCallData op opInfo) opInfo
                opInfo.context)
              (Strict.innerHandleOp (innerHandleOpFrame msg op opInfo) wrapped (innerCallData op opInfo)
                opInfo opInfo.context) s2 := by
  intro wrapped
  obtain ⟨locked, collected, validated, executed, post, hmidway, hordered⟩ :=
    hcomes.midway hself hschedule hpassed.safe hgas
  cases turn with
  | prepayment position op =>
    refine ⟨?_, fun _ _ h => nomatch h⟩
    refine .next fun opInfo s2 t2 h2 => .bind (validatePrepayment_same ?_) fun _ _ _ _ => .refl _
    exact Nat.lt_of_le_of_lt (h2.gas_le (invoke_gas_le d.system m)) hmidway.gas
  | execution position op =>
    obtain ⟨rfl, hlt, _⟩ := hordered
    obtain ⟨opInfo, hget⟩ : ∃ opInfo, p.opInfos[position]? = some opInfo :=
      ⟨_, List.getElem?_eq_getElem (Nat.lt_of_lt_of_le hlt hmidway.length)⟩
    refine ⟨hmidway.execution_same hself hbasefee (fun x y z => Schedule.add_eq hschedule) hlt hget, ?_⟩
    intro position' op' h
    cases h
    refine ⟨opInfo, hget, fun m' s2 hle => ?_⟩
    have hpending := pending_cons hlt hget
    have hbounded := hmidway.bounded opInfo (by rw [hpending]; exact List.mem_cons_self)
    exact innerHandleOp_same (Nat.lt_of_le_of_lt hle hmidway.gas) hbasefee (hbounded.mono hle)
  | validationData start i aggregator op => exact ⟨.refl _, fun _ _ h => nomatch h⟩
  | beforeExecution => exact ⟨.refl _, fun _ _ h => nomatch h⟩
  | changeAggregator aggregator => exact ⟨.refl _, fun _ _ h => nomatch h⟩

theorem turns_without_wrapping_mixedTx
    : ∃ p s1 opInfo,
        mixed.ComesTo 7 mixedTx.frame (.handleAggregatedOps mixedGroups) mixedStart 6
          (.execution 1 (paidOp 3 1)) p s1
        ∧ mixed.EntryPointSame (invoke mixed.system 6) mixedTx.frame
          (Turn.run mixed.cfg mixedTx.frame Solidity.add p (.execution 1 (paidOp 3 1)))
          (Strict.run mixed.cfg mixedTx.frame default p (.execution 1 (paidOp 3 1))) s1
        ∧ p.opInfos[1]? = some opInfo
        ∧ mixed.EntryPointSame (invoke mixed.system 5) (innerHandleOpFrame mixedTx.frame (paidOp 3 1) opInfo)
          (innerHandleOp (innerHandleOpFrame mixedTx.frame (paidOp 3 1) opInfo)
            (innerCallData (paidOp 3 1) opInfo) opInfo opInfo.context)
          (Strict.innerHandleOp (innerHandleOpFrame mixedTx.frame (paidOp 3 1) opInfo) default
            (innerCallData (paidOp 3 1) opInfo) opInfo opInfo.context) s1 := by
  obtain ⟨p, s1, _, _, _, hcomes, _⟩ : ∃ p s1 p' s2 t,
      mixed.ComesTo 7 mixedTx.frame (.handleAggregatedOps mixedGroups) mixedStart 6
          (.execution 1 (paidOp 3 1)) p s1
        ∧ mixed.Returns (invoke mixed.system 6) mixedTx.frame
          (Turn.run mixed.cfg mixedTx.frame Solidity.add p (.execution 1 (paidOp 3 1))) s1 p' s2 t :=
    comesTo_of_reaches (b := .handleAggregatedOps mixedGroups) (i := 9) rfl rfl rfl (by decide +kernel)
  have hpassed : mixed.Passed mixedStart.world := .start mixedWorld_reachable
  obtain ⟨hsame, hinner⟩ := turns_without_wrapping rfl rfl hpassed (by decide +kernel) (by decide +kernel)
    hcomes default
  obtain ⟨opInfo, hget, hinner⟩ := hinner 1 (paidOp 3 1) rfl
  exact ⟨p, s1, opInfo, hcomes, hsame, hget, hinner 5 s1 (Nat.le_refl _)⟩

end Deployment
