import FalconSmartAccount.EntryPoint.UserOpHash
import FalconSmartAccount.Evm.Trace

/-!
The entry point among arbitrary other contracts.
-/

open Evm

/-- `rest` is the storage of all other contracts. -/
structure Chain (X : Type) where
  entryPoint : EntryPoint.Storage
  rest : X

namespace Chain

variable {X : Type}

def entryPointPart : Lens (Chain X) EntryPoint.Storage where
  get s := s.entryPoint
  set e s := { s with entryPoint := e }
  get_set _ _ := rfl

def restPart : Lens (Chain X) X where
  get s := s.rest
  set x s := { s with rest := x }
  get_set _ _ := rfl

/-- For a contract without storage. -/
def noPart : Lens (Chain X) Unit where
  get _ := ()
  set _ s := s
  get_set _ _ := rfl

end Chain

/-- The entry point, its `SenderCreator`, and other contracts with any code on their own storage.
A `delegatecall` of another contract is part of its code; by one of the entry point, `delegate` runs on the
storage of the entry point. -/
structure Deployment (X : Type) where
  cfg : EntryPoint.Config
  entryPoint : Address
  entryPoint_ne : entryPoint ≠ cfg.senderCreator
  code : X → Address → Option (Frame Message → Prog X Message ReturnData Log ReturnData)
  codeLength : X → Address → Nat
  delegate : X → Address → Option (Frame Message → EntryPoint.Code ReturnData)
  clearTransient : X → X

/-- What a frame did. -/
abbrev Chain.Trace (X : Type) := List (Event (Chain X) Message ReturnData Log)

namespace Deployment

variable {X : Type} (d : Deployment X)

def codeAt (s : Chain X) (a : Address)
    : Option (Frame Message → Prog (Chain X) Message ReturnData Log ReturnData) :=
  if a = d.entryPoint then
    some fun msg => (EntryPoint.dispatch d.cfg msg).zoom Chain.entryPointPart.get Chain.entryPointPart.set
  else if a = d.cfg.senderCreator then
    some fun msg => (SenderCreator.dispatch d.entryPoint d.cfg.abiDecode msg).zoom
      Chain.noPart.get Chain.noPart.set
  else
    (d.code s.rest a).map fun program msg => (program msg).zoom Chain.restPart.get Chain.restPart.set

/-- Without the `delegatecall` of the entry point. -/
def plainSystem : System (Chain X) Message ReturnData Log where
  code := d.codeAt
  codeLength s a := d.codeLength s.rest a
  delegate _ _ s _ _ := ⟨false, default, s, []⟩
  delegate_gas _ _ _ _ _ _ := Nat.le_refl _
  clearTransient s :=
    { s with
      entryPoint := { s.entryPoint with entered := false }
      rest := d.clearTransient s.rest }

/-- The code at `target` runs as that of the entry point, and so do the contracts that it delegates to. -/
def delegateTo (invoke : Frame Message → State (Chain X) → Reply (Chain X) Message ReturnData Log)
    (msg : Frame Message) (s : State (Chain X)) (target : Address) (message : Message)
    : Reply (Chain X) Message ReturnData Log :=
  match d.delegate s.world.storage.rest target with
  | none => ⟨true, default, s, []⟩
  | some program =>
    runDelegate d.plainSystem invoke msg
      ((program { msg with message }).zoom Chain.entryPointPart.get Chain.entryPointPart.set) s

theorem delegateTo_gas_le {invoke : Frame Message → State (Chain X) → Reply (Chain X) Message ReturnData Log}
    (hinvoke : ∀ frame s, (invoke frame s).state.gas ≤ s.gas) (msg : Frame Message)
    (s : State (Chain X)) (target : Address) (message : Message)
    : (d.delegateTo invoke msg s target message).state.gas ≤ s.gas := by
  unfold delegateTo
  split
  . exact Nat.le_refl _
  . exact runDelegate_gas_le d.plainSystem invoke msg hinvoke _ s

def system : System (Chain X) Message ReturnData Log where
  code := d.codeAt
  codeLength s a := d.codeLength s.rest a
  delegate invoke msg s target message :=
    if msg.self = d.entryPoint then d.delegateTo invoke msg s target message
    else ⟨false, default, s, []⟩
  delegate_gas invoke hinvoke msg s target message := by
    split
    . exact d.delegateTo_gas_le hinvoke msg s target message
    . exact Nat.le_refl _
  clearTransient := d.plainSystem.clearTransient

/-- Only the entry point delegates to others. -/
theorem delegate_other {msg : Frame Message} (hself : msg.self ≠ d.entryPoint)
    (invoke : Frame Message → State (Chain X) → Reply (Chain X) Message ReturnData Log)
    (s : State (Chain X)) (target : Address) (message : Message)
    : d.system.delegate invoke msg s target message = ⟨false, default, s, []⟩ :=
  if_neg hself

theorem codeAt_entryPoint (s : Chain X)
    : d.codeAt s d.entryPoint = some fun msg =>
        (EntryPoint.dispatch d.cfg msg).zoom Chain.entryPointPart.get Chain.entryPointPart.set :=
  if_pos rfl

/-- All other code leaves the storage of the entry point alone. -/
theorem codeAt_other {s : Chain X} {a : Address} (ha : a ≠ d.entryPoint)
    {program : Frame Message → Prog (Chain X) Message ReturnData Log ReturnData}
    (h : d.codeAt s a = some program) (msg : Frame Message)
    : ∃ (S : Type) (l : Lens (Chain X) S) (p : Prog S Message ReturnData Log ReturnData),
        (∀ v s, (l.set v s).entryPoint = s.entryPoint) ∧ program msg = p.zoom l.get l.set := by
  unfold codeAt at h
  rw [if_neg ha] at h
  split at h
  . cases h
    exact ⟨_, Chain.noPart, _, fun _ _ => rfl, rfl⟩
  . obtain ⟨program', _, rfl⟩ := Option.map_eq_some_iff.mp h
    exact ⟨_, Chain.restPart, program' msg, fun _ _ => rfl, rfl⟩

/-- A call of the entry point. -/
theorem invoke_entryPoint {n : Nat} {frame : Frame Message} {s : State (Chain X)}
    {I P : World (Chain X) → Prop} {Q : ReturnData → World (Chain X) → Prop}
    (hself : frame.self = d.entryPoint)
    (henter : ∀ ledger, s.world.ledger.transfer frame.caller frame.self frame.value = some ledger →
      I { s.world with ledger := ledger } ∧ P { s.world with ledger := ledger })
    (hp : ∀ m < n, Sat d.system (invoke d.system m) frame Chain.entryPointPart I P
      (EntryPoint.dispatch d.cfg frame) Q)
    : (∀ w, Outside w (invoke d.system n frame s).body → I w)
        ∧ ((invoke d.system n frame s).ok = true →
          Q (invoke d.system n frame s).data (invoke d.system n frame s).state.world) := by
  have hcode : d.codeAt s.world.storage frame.self = some fun msg =>
      (EntryPoint.dispatch d.cfg msg).zoom Chain.entryPointPart.get Chain.entryPointPart.set := by
    rw [hself]
    exact d.codeAt_entryPoint s.world.storage
  refine invoke_code d.system (fun _ _ => ⟨_, hcode, rfl⟩) (fun ledger h => (henter ledger h).1) ?_
  intro m hm ledger h
  refine (hp m hm).mono ?_ fun _ _ hw => hw
  intro w hw
  rw [hw]
  exact (henter ledger h).2

/-! ## Runs from outside -/

/-- Nobody has deposited anything, and no nonce has been used. -/
def genesis : EntryPoint.Storage where
  deposits _ := default
  nonceSequenceNumber _ _ := 0
  entered := false
  books := ⟨0, 0, []⟩

/-- The worlds between transactions. Blocks may change the balances of accounts in other ways, but do
not take anything from the entry point. -/
inductive Reachable : World (Chain X) → Prop where
  | genesis (ledger : Ledger) (rest : X) : Reachable ⟨ledger, ⟨genesis, rest⟩⟩
  | transaction {w} (depth : Nat) (tx : Transaction Message) :
      Reachable w → tx.origin ≠ d.entryPoint → Reachable (execute d.system depth tx w).state.world
  | block {w} (ledger : Ledger) :
      Reachable w → w.ledger.balance d.entryPoint ≤ ledger.balance d.entryPoint →
      Reachable { w with ledger := ledger }

/-- All that a transaction does. -/
def happens (depth : Nat) (tx : Transaction Message) (w : World (Chain X)) : Chain.Trace X :=
  [callEvent d.system depth tx.frame
    ⟨{ w with storage := d.system.clearTransient w.storage }, tx.gas, 0⟩]

variable {d} in
theorem committed_happens {depth : Nat} {tx : Transaction Message} {w : World (Chain X)}
    {e : Event (Chain X) Message ReturnData Log} (hok : (execute d.system depth tx w).ok = true)
    (he : e ∈ (execute d.system depth tx w).body)
    : Committed e (d.happens depth tx w) := by
  apply committed_callEvent
  . exact hok
  . exact .here he

/-! ## Runs of the entry point -/

abbrev Returns (d : Deployment X)
    (inv : Frame Message → State (Chain X) → Reply (Chain X) Message ReturnData Log)
    (msg : Frame Message) {α : Type} (p : EntryPoint.Code α) (s : State (Chain X)) (a : α)
    (s' : State (Chain X)) (t : Chain.Trace X) : Prop :=
  Evm.Returns d.system inv msg Chain.entryPointPart p s a s' t

variable {d} {inv : Frame Message → State (Chain X) → Reply (Chain X) Message ReturnData Log}
  {msg : Frame Message} {α β : Type} {b : β} {s s' : State (Chain X)} {t : Chain.Trace X}

namespace Returns

theorem bind_lift {c : Checked α} {f : α → EntryPoint.Code β}
    (h : d.Returns inv msg (EntryPoint.lift c >>= f) s b s' t)
    : ∃ a, c = .ok a ∧ d.Returns inv msg (f a) s b s' t := by
  obtain ⟨a, s1, t1, t2, h1, h2, rfl⟩ := h.bind
  cases c with
  | ok a' =>
    obtain ⟨rfl, rfl, rfl⟩ := h1.pure
    exact ⟨a, rfl, h2⟩
  | error e => exact absurd h1 Evm.Returns.not_revert

theorem bind_getOrRevert {data : ReturnData} {o : Option α} {f : α → EntryPoint.Code β}
    (h : d.Returns inv msg (EntryPoint.getOrRevert data o >>= f) s b s' t)
    : ∃ a, o = some a ∧ d.Returns inv msg (f a) s b s' t := by
  obtain ⟨a, s1, t1, t2, h1, h2, rfl⟩ := h.bind
  cases o with
  | some a' =>
    obtain ⟨rfl, rfl, rfl⟩ := h1.pure
    exact ⟨a, rfl, h2⟩
  | none => exact absurd h1 Evm.Returns.not_revert

theorem bind_balanceOf {account : Address} {f : Nat → EntryPoint.Code β}
    (h : d.Returns inv msg (EntryPoint.balanceOf account >>= f) s b s' t)
    : ∃ s1, s1.world = s.world
        ∧ d.Returns inv msg (f (s.world.storage.entryPoint.deposits account).deposit) s1 b s' t := by
  obtain ⟨s1, hw, h⟩ := Evm.Returns.bind_sload (f := fun s => f (s.deposits account).deposit) h
  exact ⟨s1, hw, h⟩

end Returns

/-- A call of the entry point that succeeds. -/
theorem invoke_entryPoint_ok {n : Nat} {frame : Frame Message} (hself : frame.self = d.entryPoint)
    (hok : (invoke d.system n frame s).ok = true)
    : ∃ m < n, ∃ (s1 : State (Chain X)) (t : Chain.Trace X), s1.world.storage = s.world.storage
        ∧ d.Returns (invoke d.system m) frame (EntryPoint.dispatch d.cfg frame) s1
            (invoke d.system n frame s).data (invoke d.system n frame s).state t
        ∧ (invoke d.system n frame s).body = .enter s1.world :: t := by
  have hcode : d.system.code s.world.storage frame.self = some fun msg =>
      (EntryPoint.dispatch d.cfg msg).zoom Chain.entryPointPart.get Chain.entryPointPart.set := by
    rw [hself]
    exact d.codeAt_entryPoint s.world.storage
  obtain ⟨m, hm, ledger, _, ⟨hnone, _⟩ | ⟨program, t, hprogram, hrun, hbody⟩⟩ := invoke_ok _ hok
  . rw [hcode] at hnone
    cases hnone
  . rw [hcode] at hprogram
    cases hprogram
    exact ⟨m, hm, { s with world := { s.world with ledger := ledger } }, t, rfl, hrun, hbody⟩

/-- A call of the entry point that fails with other data than none. -/
theorem invoke_entryPoint_error {n : Nat} (hself : msg.self = d.entryPoint)
    (hok : (invoke d.system n msg s).ok = false)
    : (invoke d.system n msg s).data = default
      ∨ ∃ m ledger, n = m + 1 ∧ s.world.ledger.transfer msg.caller msg.self msg.value = some ledger
        ∧ Evm.Reverts d.system (invoke d.system m) msg Chain.entryPointPart (EntryPoint.dispatch d.cfg msg)
            { s with world := { s.world with ledger := ledger } } (invoke d.system n msg s).data := by
  rcases invoke_error d.system hok with hdata | ⟨m, ledger, program, hn, htransfer, hcode, hrun⟩
  . exact .inl hdata
  . have hcode' : d.system.code s.world.storage msg.self = some fun msg =>
        (EntryPoint.dispatch d.cfg msg).zoom Chain.entryPointPart.get Chain.entryPointPart.set := by
      rw [hself]
      exact d.codeAt_entryPoint s.world.storage
    rw [hcode'] at hcode
    cases hcode
    exact .inr ⟨m, ledger, hn, htransfer, hrun⟩

/-! ## A small deployment -/

/-- An account that gives the same answer to every operation. -/
def answering (validationData : Nat) (msg : Frame Message) : Prog Unit Message ReturnData Log ReturnData :=
  match msg.message with
  | .validateUserOp _ _ _ => pure (.words [validationData])
  | _ => pure default

/-- The account at `3` agrees to everything, the one at `4` to nothing. -/
def sample : Deployment Unit where
  cfg := EntryPoint.openZeppelin 31337 1 2 fun _ => none
  entryPoint := 1
  entryPoint_ne := by decide
  code _ a := if a = 3 then some (answering 0) else if a = 4 then some (answering 1) else none
  codeLength _ a := if a = 3 ∨ a = 4 then 1 else 0
  delegate _ _ := none
  clearTransient := id

def sampleLedger : Ledger where
  balance a := if a = 6 then 2000 else 0
  bounded := by
    rw [Finset.sum_ite_eq']
    simp

def sampleWorld : World (Chain Unit) := ⟨sampleLedger, ⟨genesis, ()⟩⟩

def freeEnv (timestamp : Nat) : Env := ⟨timestamp, 0, fun _ => 0⟩

/-- Someone deposits for the account at `3`. -/
def depositTx : Transaction Message := ⟨6, 1, 1000, 1000000, .depositTo 3, freeEnv 1⟩

def fundedWorld : World (Chain Unit) := (execute sample.system 2 depositTx sampleWorld).state.world

theorem fundedWorld_reachable : sample.Reachable fundedWorld :=
  .transaction 2 depositTx (.genesis sampleLedger ()) (by decide)

def sampleStart : State (Chain Unit) :=
  ⟨{ fundedWorld with storage := sample.system.clearTransient fundedWorld.storage }, 1000000, 0⟩

/-- At a gas price of one. -/
def sampleOp (sender : Address) : PackedUserOperation where
  sender
  nonce := 0
  initCode := []
  callData := []
  accountGasLimits := 0
  preVerificationGas := 10
  gasFees := BitVec.ofNat 256 (2 ^ 128 + 1)
  paymasterAndData := []
  signature := []

/-- A transaction that sends a bundle with the beneficiary `5`. -/
def bundleTx (message : Message) : Transaction Message := ⟨6, 1, 0, 1000000, message, freeEnv 2⟩

/-! ## One with a paymaster and an aggregator -/

/-- The accounts at `3` and `7` agree to everything, the one at `7` through the aggregator at `9`. So does
the paymaster at `8`, with a context of one byte. -/
def mixed : Deployment Unit where
  cfg := sample.cfg
  entryPoint := 1
  entryPoint_ne := sample.entryPoint_ne
  code _ a :=
    match a with
    | 3 => some (answering 0)
    | 7 => some (answering 9)
    | 8 => some fun msg =>
      match msg.message with
      | .validatePaymasterUserOp _ _ _ => pure (.words [64, 0, 1, 2 ^ 255])
      | _ => pure default
    | 9 => some fun _ => pure default
    | _ => none
  codeLength _ a := if a = 3 ∨ a = 7 ∨ a = 8 ∨ a = 9 then 1 else 0
  delegate _ _ := none
  clearTransient := id

def mixedLedger : Ledger where
  balance a := if a = 6 then 20000 else 0
  bounded := by
    rw [Finset.sum_ite_eq']
    simp

/-- Someone deposits for the account at `3` and for the paymaster. -/
def depositFor (account : Address) : Transaction Message :=
  ⟨6, 1, 10000, 1000000, .depositTo account, freeEnv 1⟩

def halfFundedWorld : World (Chain Unit) :=
  (execute mixed.system 2 (depositFor 3) ⟨mixedLedger, ⟨genesis, ()⟩⟩).state.world

def mixedWorld : World (Chain Unit) :=
  (execute mixed.system 2 (depositFor 8) halfFundedWorld).state.world

theorem mixedWorld_reachable : mixed.Reachable mixedWorld :=
  .transaction 2 (depositFor 8)
    (.transaction 2 (depositFor 3) (.genesis mixedLedger ()) (by decide)) (by decide)

def mixedStart : State (Chain Unit) :=
  ⟨{ mixedWorld with storage := mixed.system.clearTransient mixedWorld.storage }, 1000000, 0⟩

/-- An operation with calldata, at most three wei a unit of gas. -/
def callOp (sender : Address) (nonce : Word) : PackedUserOperation where
  sender
  nonce
  initCode := []
  callData := [1, 2, 3, 4]
  accountGasLimits := BitVec.ofNat 256 (300 * 2 ^ 128 + 200)
  preVerificationGas := 10
  gasFees := BitVec.ofNat 256 (2 ^ 128 + 3)
  paymasterAndData := []
  signature := []

/-- One that the paymaster pays for. -/
def paidOp (sender : Address) (nonce : Word) : PackedUserOperation :=
  { callOp sender nonce with
    paymasterAndData := (Abi.wordBytes 8).drop 12 ++ Abi.uintBytes 16 50 ++ Abi.uintBytes 16 20 }

def mixedGroups : List UserOpsPerAggregator :=
  [⟨[callOp 3 0, paidOp 3 1], 0, []⟩, ⟨[paidOp 7 0], 9, [1, 2]⟩]

/-- Every step costs two units of gas. -/
def mixedTx : Transaction Message :=
  ⟨6, 1, 0, 1000000, .handleAggregatedOps mixedGroups 5, ⟨2, 1, fun _ => 2⟩⟩

end Deployment
