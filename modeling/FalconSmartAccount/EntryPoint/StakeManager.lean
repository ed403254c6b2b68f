import FalconSmartAccount.EntryPoint.UserOperation
import FalconSmartAccount.Evm.Run

/-!
The storage of the entry point and the functions that it inherits from `StakeManager` and
`NonceManager`. Names drop the leading underscore of internal functions.
-/

structure DepositInfo where
  deposit : Nat
  staked : Bool
  stake : Nat
  unstakeDelaySec : Nat
  withdrawTime : Nat
  deriving DecidableEq, Inhabited

/-- Bookkeeping that is not in the source and that no function reads: the prefunds taken from
deposits and not yet settled, what has been collected and not yet paid out, and the senders and
nonces of the operations whose nonce has been accepted. -/
structure Books where
  locked : Nat
  collected : Nat
  accepted : List (Address × Word)
  deriving DecidableEq

namespace Books

/-- The prefund of an operation is taken from a deposit. -/
def lock (prefund : Nat) (b : Books) : Books := { b with locked := b.locked + prefund }

/-- Of the prefund of an operation `cost` is collected. -/
def settle (prefund cost : Nat) (b : Books) : Books :=
  { b with locked := b.locked - prefund, collected := b.collected + cost }

def pay (amount : Nat) (b : Books) : Books := { b with collected := b.collected - amount }

def accept (sender : Address) (nonce : Word) (b : Books) : Books :=
  { b with accepted := b.accepted ++ [(sender, nonce)] }

end Books

namespace EntryPoint

open Evm

/-- `entered` is the transient slot of the reentrancy guard. -/
structure Storage where
  deposits : Address → DepositInfo
  nonceSequenceNumber : Address → BitVec 192 → Nat
  entered : Bool
  books : Books

namespace Storage

def setInfo (s : Storage) (a : Address) (info : DepositInfo) : Storage :=
  { s with deposits := Function.update s.deposits a info }

def setDeposit (s : Storage) (a : Address) (deposit : Nat) : Storage :=
  s.setInfo a { s.deposits a with deposit := deposit }

def setNonce (s : Storage) (a : Address) (key : BitVec 192) (n : Nat) : Storage :=
  { s with nonceSequenceNumber :=
      Function.update s.nonceSequenceNumber a (Function.update (s.nonceSequenceNumber a) key n) }

def note (s : Storage) (f : Books → Books) : Storage := { s with books := f s.books }

end Storage

abbrev Code := Prog Storage Message ReturnData Log

/-- Panics and failed requirements of plain Solidity. -/
def lift : Checked α → Code α
  | .ok a => pure a
  | .error e => .revert (.ofRevert e)

def require (c : Bool) (reason : String) : Code Unit := Prog.require c (.error reason)

/-! ## StakeManager -/

/-- `f` is the entry in the books. -/
def incrementDeposit (account : Address) (amount : Nat) (f : Books → Books) : Code Nat := do
  let s ← Prog.sload
  let newAmount ← lift (Solidity.add (s.deposits account).deposit amount)
  Prog.sstore fun s => (s.setDeposit account newAmount).note f
  return newAmount

section

variable (msg : Frame Message)

def depositTo (account : Address) : Code ReturnData := do
  let newDeposit ← incrementDeposit account msg.value id
  Prog.emit (.deposited account newDeposit)
  return default

def addStake (unstakeDelaySec : BitVec 32) : Code ReturnData := do
  let s ← Prog.sload
  let info := s.deposits msg.caller
  require (unstakeDelaySec.toNat > 0) "must specify unstake delay"
  require (unstakeDelaySec.toNat ≥ info.unstakeDelaySec) "cannot decrease unstake time"
  let stake ← lift (Solidity.add info.stake msg.value)
  require (stake > 0) "no stake specified"
  require (stake ≤ 2 ^ 112 - 1) "stake overflow"
  Prog.sstore fun s => s.setInfo msg.caller
    { deposit := (s.deposits msg.caller).deposit
      staked := true
      stake := stake
      unstakeDelaySec := unstakeDelaySec.toNat
      withdrawTime := 0 }
  Prog.emit (.stakeLocked msg.caller stake unstakeDelaySec.toNat)
  return default

/-- Addition of `uint48` values. -/
def addUint48 (a b : Nat) : Checked Nat := if a + b < 2 ^ 48 then .ok (a + b) else .error .arithmetic

def unlockStake : Code ReturnData := do
  let s ← Prog.sload
  let info := s.deposits msg.caller
  require (info.unstakeDelaySec != 0) "not staked"
  require info.staked "already unstaking"
  let withdrawTime ← lift (addUint48 (msg.env.timestamp % 2 ^ 48) info.unstakeDelaySec)
  Prog.sstore fun s => s.setInfo msg.caller
    { s.deposits msg.caller with withdrawTime := withdrawTime, staked := false }
  Prog.emit (.stakeUnlocked msg.caller withdrawTime)
  return default

def withdrawStake (withdrawAddress : Address) : Code ReturnData := do
  let s ← Prog.sload
  let info := s.deposits msg.caller
  let stake := info.stake
  require (stake > 0) "No stake to withdraw"
  require (info.withdrawTime > 0) "must call unlockStake() first"
  require (info.withdrawTime ≤ msg.env.timestamp) "Stake withdrawal is not due"
  Prog.sstore fun s => s.setInfo msg.caller
    { s.deposits msg.caller with unstakeDelaySec := 0, withdrawTime := 0, stake := 0 }
  Prog.emit (.stakeWithdrawn msg.caller withdrawAddress stake)
  let (success, _) ← Prog.call ⟨withdrawAddress, stake, none, .bytes []⟩
  require success "failed to withdraw stake"
  return default

def withdrawTo (withdrawAddress : Address) (withdrawAmount : Nat) : Code ReturnData := do
  let s ← Prog.sload
  let info := s.deposits msg.caller
  require (withdrawAmount ≤ info.deposit) "Withdraw amount too large"
  Prog.sstore fun s => s.setDeposit msg.caller (info.deposit - withdrawAmount)
  Prog.emit (.withdrawn msg.caller withdrawAddress withdrawAmount)
  let (success, _) ← Prog.call ⟨withdrawAddress, withdrawAmount, none, .bytes []⟩
  require success "failed to withdraw"
  return default

end

def DepositInfo.words (info : DepositInfo) : List Nat :=
  [info.deposit, info.staked.toNat, info.stake, info.unstakeDelaySec, info.withdrawTime]

def balanceOf (account : Address) : Code Nat := do
  let s ← Prog.sload
  return (s.deposits account).deposit

/-! ## NonceManager -/

def nonceKey (nonce : Word) : BitVec 192 := (nonce >>> 64).setWidth 192

def nonceSeq (nonce : Word) : Nat := nonce.toNat % 2 ^ 64

/-- The nonce that `sender` has to use next with this key. -/
def Storage.getNonce (s : Storage) (sender : Address) (key : BitVec 192) : Nat :=
  s.nonceSequenceNumber sender key ||| key.toNat <<< 64

def incrementNonce (msg : Frame Message) (key : BitVec 192) : Code ReturnData := do
  let s ← Prog.sload
  let next ← lift (Solidity.add (s.nonceSequenceNumber msg.caller key) 1)
  Prog.sstore fun s => s.setNonce msg.caller key next
  return default

/-- The sequence number goes up whether or not the nonce is accepted. -/
def validateAndUpdateNonce (sender : Address) (nonce : Word) : Code Bool := do
  let key := nonceKey nonce
  let seq := nonceSeq nonce
  let s ← Prog.sload
  let current := s.nonceSequenceNumber sender key
  let next ← lift (Solidity.add current 1)
  let f := if current = seq then Books.accept sender nonce else id
  Prog.sstore fun s => (s.setNonce sender key next).note f
  return current == seq

end EntryPoint
