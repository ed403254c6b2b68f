import FalconSmartAccount.EntryPoint.Interface
import FalconSmartAccount.Evm.Run

/-!
The contract `FalconSimpleAccount`, as its proxy runs it, with what it inherits from `BaseAccount` and
`TokenCallbackHandler`. What it takes from OpenZeppelin (the modifier `initializer` and what upgrades
do) and the decoding of calldata are parameters. Calls of the console are left out, and calls of view
functions are calls like others. Names drop the leading underscore of internal functions.
-/

/-- The storage of OpenZeppelin's `Initializable`. -/
structure Initializable where
  initialized : Nat
  initializing : Bool
  deriving DecidableEq

namespace FalconSimpleAccount

open Evm

/-- `other` are the slots that only later implementations use. -/
structure Slots where
  owner : Address
  publicKey : List Nat
  falcon : Address
  initializable : Initializable
  other : Word → Word

/-- There is no `upgradedTo` before the first upgrade. -/
structure Storage where
  slots : Slots
  upgradedTo : Option Address

/-- The storage of an account that has been upgraded. -/
def upgradedPart : Lens Storage (Slots × Address) where
  get s := (s.slots, s.upgradedTo.getD 0)
  set v _ := ⟨v.1, some v.2⟩
  get_set _ _ := rfl

abbrev Code := Prog Storage Message ReturnData Log

structure Config where
  entryPoint : Address
  /-- What is left behind after a function with this modifier; `none` if it must not be entered. -/
  initializer : Initializable → Option Initializable
  /-- It is entered at most once. -/
  initializer_once : ∀ i i', initializer i = some i' → initializer i' = none
  /-- It writes the new implementation and may run any code of it. -/
  upgradeToAndCallUUPS : Frame Message → Address → Bytes → Prog (Slots × Address) Message ReturnData Log ReturnData
  /-- The function call that calldata stands for, if its selector is known and its arguments decode. -/
  abiDecode : Bytes → Option Message

def SIG_VALIDATION_FAILED : Nat := 1

def SIG_VALIDATION_SUCCESS : Nat := 0

def getOrRevert (data : ReturnData) : Option α → Code α
  | some a => pure a
  | none => .revert data

/-- A call of a function, which reverts as the function does. -/
def callFunction (target : Address) (value : Nat) (message : Message) : Code ReturnData := do
  let (success, ret) ← Prog.call ⟨target, value, none, message⟩
  Prog.require success ret
  return ret

/-- Solidity checks first that there is code if the function returns nothing. -/
def callProcedure (target : Address) (value : Nat) (message : Message) : Code Unit := do
  let length ← Prog.codeLength target
  Prog.require (length != 0) default
  let _ ← callFunction target value message

/-- `abi.decode(.., (uint256[512], bytes))`. -/
def decodeSignature (signature : Bytes) : Option ZKNOX_falcon.Signature :=
  let offset := Abi.wordAt signature (32 * 512)
  let length := Abi.wordAt signature offset
  if 32 * 513 ≤ signature.length ∧ offset < 2 ^ 64 ∧ length < 2 ^ 64
      ∧ offset + 32 + length ≤ signature.length then
    some
      { salt := (signature.drop (offset + 32)).take length
        s2 := Vector.ofFn fun i => Abi.wordAt signature (32 * i) }
  else
    none

section

variable (cfg : Config) (msg : Frame Message)

/-! ## Who may call -/

/-- Directly from the owner, or through the account itself. -/
def onlyOwner : Code Unit := do
  let s ← Prog.sload
  Prog.require (msg.caller == s.slots.owner || msg.caller == msg.self) (.error "only owner")

def requireFromEntryPoint : Code Unit :=
  Prog.require (msg.caller == cfg.entryPoint) (.error "account: not from EntryPoint")

def requireFromEntryPointOrOwner : Code Unit := do
  let s ← Prog.sload
  Prog.require (msg.caller == cfg.entryPoint || msg.caller == s.slots.owner)
    (.error "account: not Owner or EntryPoint")

/-! ## Execution -/

def call (target : Address) (value : Nat) (data : Bytes) : Code Unit := do
  let _ ← callFunction target value (.bytes data)

def execute (dest : Address) (value : Nat) (func : Bytes) : Code ReturnData := do
  requireFromEntryPointOrOwner cfg msg
  call dest value func
  return default

def executeBatch (dest : List Address) (value : List Nat) (func : List Bytes) : Code ReturnData := do
  requireFromEntryPointOrOwner cfg msg
  Prog.require
    (dest.length == func.length && (value.length == 0 || value.length == func.length))
    (.error "wrong array lengths")
  if value.length = 0 then
    (dest.zip func).forM fun (dest, func) => call dest 0 func
  else
    (dest.zip (value.zip func)).forM fun (dest, value, func) => call dest value func
  return default

/-! ## Validation -/

def validateSignature (userOp : PackedUserOperation) (userOpHash : Word) : Code Nat := do
  let signature := userOp.signature
  let sig ← getOrRevert (.decodeRevert signature (32 * 513) (Abi.wordAt signature (32 * 512)))
    (decodeSignature signature)
  let s ← Prog.sload
  let ret ← callFunction s.slots.falcon 0
    (.verify (Abi.wordBytes userOpHash.toNat) sig s.slots.publicKey)
  let success ← getOrRevert default ret.decodeBool
  return if success then SIG_VALIDATION_SUCCESS else SIG_VALIDATION_FAILED

/-- It is the entry point's job to find out whether this has failed. -/
def payPrefund (missingAccountFunds : Nat) : Code Unit :=
  if missingAccountFunds ≠ 0 then do
    let _ ← Prog.call ⟨msg.caller, missingAccountFunds, none, .bytes []⟩
  else
    pure ()

def validateUserOp (userOp : PackedUserOperation) (userOpHash : Word) (missingAccountFunds : Nat)
    : Code ReturnData := do
  requireFromEntryPoint cfg msg
  let validationData ← validateSignature userOp userOpHash
  payPrefund msg missingAccountFunds
  return .words [validationData]

/-! ## The owner -/

def initializeAccount (anOwner : Address) (aPublicKey : List Nat) (falconVerifier : Address)
    : Code ReturnData := do
  let s ← Prog.sload
  let initializable ← getOrRevert default (cfg.initializer s.slots.initializable)
  Prog.sstore fun s =>
    { s with slots :=
        { s.slots with
          owner := anOwner
          publicKey := aPublicKey
          falcon := falconVerifier
          initializable } }
  Prog.emit (.falconSimpleAccountInitialized cfg.entryPoint anOwner)
  return default

def withdrawDepositTo (withdrawAddress : Address) (amount : Nat) : Code ReturnData := do
  onlyOwner msg
  callProcedure cfg.entryPoint 0 (.withdrawTo withdrawAddress amount)
  return default

def authorizeUpgrade (_newImplementation : Address) : Code Unit :=
  onlyOwner msg

def upgradeToAndCall (newImplementation : Address) (data : Bytes) : Code ReturnData := do
  authorizeUpgrade msg newImplementation
  (cfg.upgradeToAndCallUUPS msg newImplementation data).zoom upgradedPart.get upgradedPart.set

/-! ## Anyone -/

def view (view : EntryPointView) : Code ReturnData := do
  let ret ← callFunction cfg.entryPoint 0 (.entryPointView view)
  let value ← getOrRevert default ret.decodeWord
  return .words [value]

def addDeposit : Code ReturnData := do
  callProcedure cfg.entryPoint msg.value (.depositTo msg.self)
  return default

def publicKey (i : Nat) : Code ReturnData := do
  let s ← Prog.sload
  let value ← getOrRevert default s.slots.publicKey[i]?
  return .words [value]

/-- A `bytes4` value. -/
def selectorWord (s : Nat) : Nat := s <<< 224

def onERC721ReceivedSelector : Nat := 0x150b7a02

def onERC1155ReceivedSelector : Nat := 0xf23a6e61

def onERC1155BatchReceivedSelector : Nat := 0xbc197c81

/-- The interfaces of the two receivers and of `IERC165`. -/
def supportsInterface (interfaceId : BitVec 32) : Bool :=
  interfaceId.toNat = onERC721ReceivedSelector
    ∨ interfaceId.toNat = onERC1155ReceivedSelector ^^^ onERC1155BatchReceivedSelector
    ∨ interfaceId.toNat = 0x01ffc9a7

/-! ## The contract -/

/-- Functions that are not payable reject any value. -/
def nonpayable (body : Code α) : Code α := do
  Prog.require (msg.value == 0) default
  body

/-- Empty calldata is received; other calldata is decoded. -/
def decodeMessage : Message → Message
  | .bytes [] => .receive
  | .bytes data => (cfg.abiDecode data).getD (.bytes data)
  | message => message

/-- `proxiableUUID` must not be called through a proxy. -/
def dispatchAccount : AccountMessage → Code ReturnData
  | .execute dest value func => nonpayable msg (execute cfg msg dest value func)
  | .executeBatch dest value func => nonpayable msg (executeBatch cfg msg dest value func)
  | .initializeAccount anOwner aPublicKey falconVerifier =>
    nonpayable msg (initializeAccount cfg anOwner aPublicKey falconVerifier)
  | .withdrawDepositTo withdrawAddress amount =>
    nonpayable msg (withdrawDepositTo cfg msg withdrawAddress amount)
  | .addDeposit => addDeposit cfg msg
  | .getDeposit => nonpayable msg (view cfg (.balanceOf msg.self))
  | .getNonce => nonpayable msg (view cfg (.getNonce msg.self 0))
  | .entryPoint => nonpayable msg (return .words [cfg.entryPoint.toNat])
  | .owner => nonpayable msg do return .words [(← Prog.sload).slots.owner.toNat]
  | .publicKey i => nonpayable msg (publicKey i)
  | .upgradeToAndCall newImplementation data => upgradeToAndCall cfg msg newImplementation data
  | .proxiableUUID => .revert default
  | .onERC721Received => nonpayable msg (return .words [selectorWord onERC721ReceivedSelector])
  | .onERC1155Received => nonpayable msg (return .words [selectorWord onERC1155ReceivedSelector])
  | .onERC1155BatchReceived =>
    nonpayable msg (return .words [selectorWord onERC1155BatchReceivedSelector])
  | .supportsInterface interfaceId =>
    nonpayable msg (return .words [(supportsInterface interfaceId).toNat])

def dispatch : Code ReturnData :=
  match decodeMessage cfg msg.message with
  | .receive => return default
  | .validateUserOp userOp userOpHash missingAccountFunds =>
    nonpayable msg (validateUserOp cfg msg userOp userOpHash missingAccountFunds)
  | .account message => dispatchAccount cfg msg message
  | _ => .revert default

end

end FalconSimpleAccount
