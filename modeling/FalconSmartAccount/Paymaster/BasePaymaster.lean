import FalconSmartAccount.EntryPoint.Interface
import FalconSmartAccount.Evm.Operations

/-!
The contract `BasePaymaster`. What subclasses override, OpenZeppelin's `Ownable` and the decoding of
calldata are parameters. Names drop the leading underscore of internal functions.
-/

namespace BasePaymaster

open Evm

inductive Function where
  | validatePaymasterUserOp (userOp : PackedUserOperation) (userOpHash : Word) (maxCost : Nat)
  | postOp (mode : PostOpMode) (context : Bytes) (actualGasCost actualUserOpFeePerGas : Nat)
  | deposit
  | withdrawTo (withdrawAddress : Address) (amount : Nat)
  | addStake (unstakeDelaySec : BitVec 32)
  | getDeposit
  | unlockStake
  | withdrawStake (withdrawAddress : Address)
  | entryPoint
  | owner
  | transferOwnership (newOwner : Address)
  | renounceOwnership

/-- `rest` are the variables of the subclass. -/
structure Storage (S : Type) where
  owner : Address
  rest : S

def restPart {S : Type} : Lens (Storage S) S where
  get s := s.rest
  set v s := { s with rest := v }
  get_set _ _ := rfl

/-- `bytes` in memory. -/
abbrev Context := { context : Bytes // context.length < Yul.wordSize }

structure Config (S : Type) where
  entryPoint : Address
  validatePaymasterUserOp : Frame Message → PackedUserOperation → Word → Nat →
    Prog S Message ReturnData Log (Context × Word)
  postOp : Frame Message → PostOpMode → Bytes → Nat → Nat → Prog S Message ReturnData Log Unit :=
    fun _ _ _ _ _ => .revert (.error "must override")
  /-- The error of `onlyOwner` for an owner and a caller, if there is one. -/
  checkOwner : Address → Address → Option ReturnData
  checkOwner_eq_none : ∀ owner caller, checkOwner owner caller = none → caller = owner
  /-- The owner after `transferOwnership`; `none` if it reverts. -/
  transferOwnership : Address → Option Address
  /-- The function call that calldata stands for, if its selector is known and its arguments decode. -/
  abiDecode : Bytes → Option Function

variable {S : Type}

abbrev Code (S : Type) := Prog (Storage S) Message ReturnData Log

def getOrRevert {α : Type} : Option α → Code S α
  | some a => pure a
  | none => .revert default

def callFunction (target : Address) (value : Nat) (message : Message) : Code S ReturnData := do
  let (success, ret) ← Prog.call ⟨target, value, none, message⟩
  Prog.require success ret
  return ret

/-- Solidity checks first that there is code if the function returns nothing. -/
def callProcedure (target : Address) (value : Nat) (message : Message) : Code S ReturnData := do
  let length ← Prog.codeLength target
  Prog.require (length != 0) default
  let _ ← callFunction target value message
  return default

/-- `abi.encode(context, validationData)`. -/
def encodeContext (context : Bytes) (validationData : Word) : Bytes :=
  Abi.wordBytes 64 ++ Abi.wordBytes validationData.toNat ++ Abi.bytesTail context

section

variable (cfg : Config S) (msg : Frame Message)

def requireFromEntryPoint : Code S Unit :=
  Prog.require (msg.caller == cfg.entryPoint) (.error "Sender not EntryPoint")

def onlyOwner : Code S Unit := do
  let s ← Prog.sload
  match cfg.checkOwner s.owner msg.caller with
  | some error => .revert error
  | none => pure ()

def validatePaymasterUserOp (userOp : PackedUserOperation) (userOpHash : Word) (maxCost : Nat)
    : Code S ReturnData := do
  requireFromEntryPoint cfg msg
  let (context, validationData) ←
    (cfg.validatePaymasterUserOp msg userOp userOpHash maxCost).zoom restPart.get restPart.set
  return .bytes (encodeContext context.1 validationData)

def postOp (mode : PostOpMode) (context : Bytes) (actualGasCost actualUserOpFeePerGas : Nat)
    : Code S ReturnData := do
  requireFromEntryPoint cfg msg
  (cfg.postOp msg mode context actualGasCost actualUserOpFeePerGas).zoom restPart.get restPart.set
  return default

def deposit : Code S ReturnData := callProcedure cfg.entryPoint msg.value (.depositTo msg.self)

def withdrawTo (withdrawAddress : Address) (amount : Nat) : Code S ReturnData := do
  onlyOwner cfg msg
  callProcedure cfg.entryPoint 0 (.withdrawTo withdrawAddress amount)

def addStake (unstakeDelaySec : BitVec 32) : Code S ReturnData := do
  onlyOwner cfg msg
  callProcedure cfg.entryPoint msg.value (.addStake unstakeDelaySec)

def getDeposit : Code S ReturnData := do
  let ret ← callFunction cfg.entryPoint 0 (.entryPointView (.balanceOf msg.self))
  let balance ← getOrRevert ret.decodeWord
  return .words [balance]

def unlockStake : Code S ReturnData := do
  onlyOwner cfg msg
  callProcedure cfg.entryPoint 0 .unlockStake

def withdrawStake (withdrawAddress : Address) : Code S ReturnData := do
  onlyOwner cfg msg
  callProcedure cfg.entryPoint 0 (.withdrawStake withdrawAddress)

def transferOwnership (newOwner : Address) : Code S ReturnData := do
  onlyOwner cfg msg
  let owner ← getOrRevert (cfg.transferOwnership newOwner)
  Prog.sstore fun s => { s with owner }
  return default

def renounceOwnership : Code S ReturnData := do
  onlyOwner cfg msg
  Prog.sstore fun s => { s with owner := 0 }
  return default

/-! ## The contract -/

def nonpayable (body : Code S ReturnData) : Code S ReturnData := do
  Prog.require (msg.value == 0) default
  body

/-- There is no function for empty calldata. -/
def decodeMessage : Message → Option Function
  | .bytes [] => none
  | .bytes data => cfg.abiDecode data
  | .validatePaymasterUserOp userOp userOpHash maxCost =>
    some (.validatePaymasterUserOp userOp userOpHash maxCost)
  | .postOp mode context actualGasCost actualUserOpFeePerGas =>
    some (.postOp mode context actualGasCost actualUserOpFeePerGas)
  -- the entry point has functions with the same selectors
  | .withdrawTo withdrawAddress amount => some (.withdrawTo withdrawAddress amount)
  | .addStake unstakeDelaySec => some (.addStake unstakeDelaySec)
  | .unlockStake => some .unlockStake
  | .withdrawStake withdrawAddress => some (.withdrawStake withdrawAddress)
  | .account .getDeposit => some .getDeposit
  | .account .entryPoint => some .entryPoint
  | .account .owner => some .owner
  | _ => none

def dispatchFunction : Function → Code S ReturnData
  | .validatePaymasterUserOp userOp userOpHash maxCost =>
    nonpayable msg (validatePaymasterUserOp cfg msg userOp userOpHash maxCost)
  | .postOp mode context actualGasCost actualUserOpFeePerGas =>
    nonpayable msg (postOp cfg msg mode context actualGasCost actualUserOpFeePerGas)
  | .deposit => deposit cfg msg
  | .withdrawTo withdrawAddress amount => nonpayable msg (withdrawTo cfg msg withdrawAddress amount)
  | .addStake unstakeDelaySec => addStake cfg msg unstakeDelaySec
  | .getDeposit => nonpayable msg (getDeposit cfg msg)
  | .unlockStake => nonpayable msg (unlockStake cfg msg)
  | .withdrawStake withdrawAddress => nonpayable msg (withdrawStake cfg msg withdrawAddress)
  | .entryPoint => nonpayable msg (return .words [cfg.entryPoint.toNat])
  | .owner => nonpayable msg do return .words [(← Prog.sload).owner.toNat]
  | .transferOwnership newOwner => nonpayable msg (transferOwnership cfg msg newOwner)
  | .renounceOwnership => nonpayable msg (renounceOwnership cfg msg)

def dispatch : Code S ReturnData :=
  match decodeMessage cfg msg.message with
  | some function => dispatchFunction cfg msg function
  | none => .revert default

end

/-! ## The context -/

theorem wordAt_encodeContext {context : Bytes} {validationData : Word}
    (hcontext : context.length < Yul.wordSize)
    : Abi.wordAt (encodeContext context validationData) 0 = 64
        ∧ Abi.wordAt (encodeContext context validationData) 32 = validationData.toNat
        ∧ Abi.wordAt (encodeContext context validationData) 64 = context.length := by
  unfold encodeContext
  refine ⟨?_, ?_, ?_⟩
  . rw [Abi.wordAt_append_left (by simp), Abi.wordAt_append_left (by simp)]
    exact Abi.wordAt_wordBytes (by decide)
  . have hread := Abi.wordAt_append_right (Abi.wordBytes 64) (Abi.wordBytes validationData.toNat) 0
    rw [Abi.wordBytes_length, Abi.wordAt_wordBytes validationData.isLt] at hread
    rw [Abi.wordAt_append_left (by simp)]
    exact hread
  . have hread := (Abi.read_bytesTail (Abi.wordBytes 64 ++ Abi.wordBytes validationData.toNat) context []
      hcontext).1
    rw [List.append_nil, List.length_append, Abi.wordBytes_length, Abi.wordBytes_length] at hread
    exact hread

/-- The entry point reads what the paymaster has returned. -/
theorem decodeContext_encodeContext {context context' : Bytes} {validationData : Word}
    {validationData' : Nat} (hcontext : context.length < Yul.wordSize)
    (h : (ReturnData.bytes (encodeContext context validationData)).decodeContext
      = some (context', validationData'))
    : context' = context ∧ validationData' = validationData.toNat := by
  obtain ⟨hoffset, hdata, hlength⟩ := @wordAt_encodeContext context validationData hcontext
  have hread : ((encodeContext context validationData).drop 96).take context.length = context := by
    have hassoc : encodeContext context validationData
        = (Abi.wordBytes 64 ++ Abi.wordBytes validationData.toNat ++ Abi.wordBytes context.length)
          ++ (context ++ List.replicate ((32 - context.length % 32) % 32) 0) := by
      simp only [encodeContext, Abi.bytesTail, List.append_assoc]
    rw [hassoc, List.drop_left' (by simp), List.take_left' rfl]
  unfold ReturnData.decodeContext ReturnData.toBytes at h
  dsimp only at h
  rw [hoffset, hlength, hdata, hread] at h
  split at h
  . cases h
    exact ⟨rfl, rfl⟩
  . cases h

end BasePaymaster
