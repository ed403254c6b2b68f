import FalconSmartAccount.EntryPoint.Effect
import FalconSmartAccount.Evm.Operations

/-!
The reentrancy guard. While a bundle is under way no other one can start, and every call leaves the guard
as it has found it, whoever it calls in turn.
-/

open Evm

namespace EntryPoint

/-- What `ReentrancyGuardTransient` does. -/
structure Config.Guarded (cfg : Config) : Prop where
  enter : cfg.nonReentrantBefore false = some true
  locked : cfg.nonReentrantBefore true = none
  leave : ∀ entered, cfg.nonReentrantAfter entered = false

theorem openZeppelin_guarded {chainid : Word} {this senderCreator : Address}
    {abiDecode : Bytes → Option Message}
    : (openZeppelin chainid this senderCreator abiDecode).Guarded :=
  ⟨rfl, rfl, fun _ => rfl⟩

/-- The operation does not touch the guard. -/
def KeepsGuard : Op Storage Message ReturnData Log → Prop
  | .sstore f => ∀ s, (f s).entered = s.entered
  | .delegatecall _ _ => False
  | _ => True

variable {α : Type}

namespace KeepsGuard

theorem gasleft : (Prog.gasleft : Code Nat).Does KeepsGuard := .op trivial

theorem codeLength {a : Address} : (Prog.codeLength a : Code Nat).Does KeepsGuard := .op trivial

theorem sload : (Prog.sload : Code Storage).Does KeepsGuard := .op trivial

theorem sstore {f : Storage → Storage} (h : ∀ s, (f s).entered = s.entered)
    : (Prog.sstore f : Code Unit).Does KeepsGuard :=
  .op h

theorem emit {log : Log} : (Prog.emit log : Code Unit).Does KeepsGuard := .op trivial

theorem call {c : Call Message} : (Prog.call c : Code (Bool × ReturnData)).Does KeepsGuard := .op trivial

theorem lift {c : Checked α} : (EntryPoint.lift c).Does KeepsGuard := by
  cases c with
  | ok a => exact .ret
  | error e => exact .revert

theorem getOrRevert {data : ReturnData} {o : Option α} : (EntryPoint.getOrRevert data o).Does KeepsGuard := by
  cases o with
  | some a => exact .ret
  | none => exact .revert

theorem requireCode {target : Address} : (EntryPoint.requireCode target).Does KeepsGuard :=
  .bind codeLength fun _ => .require

theorem incrementDeposit {account : Address} {amount : Nat} {f : Books → Books}
    : (EntryPoint.incrementDeposit account amount f).Does KeepsGuard :=
  .bind sload fun _ => .bind lift fun _ => .bind (sstore fun _ => rfl) fun _ => .ret

theorem balanceOf {account : Address} : (EntryPoint.balanceOf account).Does KeepsGuard :=
  .bind sload fun _ => .ret

section

variable (cfg : Config) (msg : Frame Message)

/-! ### Deposits and stakes -/

theorem depositTo (account : Address) : (depositTo msg account).Does KeepsGuard :=
  .bind incrementDeposit fun _ => .bind emit fun _ => .ret

theorem addStake (unstakeDelaySec : BitVec 32) : (addStake msg unstakeDelaySec).Does KeepsGuard := by
  refine .bind sload fun _ => .bind .require fun _ => .bind .require fun _ => .bind lift fun _ => ?_
  refine .bind .require fun _ => .bind .require fun _ => .bind (sstore fun _ => rfl) fun _ => ?_
  exact .bind emit fun _ => .ret

theorem unlockStake : (unlockStake msg).Does KeepsGuard := by
  refine .bind sload fun _ => .bind .require fun _ => .bind .require fun _ => .bind lift fun _ => ?_
  exact .bind (sstore fun _ => rfl) fun _ => .bind emit fun _ => .ret

theorem withdrawStake (withdrawAddress : Address) : (withdrawStake msg withdrawAddress).Does KeepsGuard := by
  refine .bind sload fun _ => .bind .require fun _ => .bind .require fun _ => .bind .require fun _ => ?_
  refine .bind (sstore fun _ => rfl) fun _ => .bind emit fun _ => .bind call fun _ => ?_
  exact .bind .require fun _ => .ret

theorem withdrawTo (withdrawAddress : Address) (withdrawAmount : Nat)
    : (withdrawTo msg withdrawAddress withdrawAmount).Does KeepsGuard := by
  refine .bind sload fun _ => .bind .require fun _ => .bind (sstore fun _ => rfl) fun _ => ?_
  exact .bind emit fun _ => .bind call fun _ => .bind .require fun _ => .ret

theorem incrementNonce (key : BitVec 192) : (incrementNonce msg key).Does KeepsGuard :=
  .bind sload fun _ => .bind lift fun _ => .bind (sstore fun _ => rfl) fun _ => .ret

/-! ### Validation -/

theorem createSenderIfNeeded (opIndex : Nat) (opInfo : UserOpInfo) (initCode : Bytes)
    : (createSenderIfNeeded cfg opIndex opInfo initCode).Does KeepsGuard := by
  unfold EntryPoint.createSenderIfNeeded
  split
  . exact .ret
  . refine .bind codeLength fun _ => .bind .require fun _ => .bind call fun _ => .bind .require fun _ => ?_
    refine .bind getOrRevert fun _ => .bind .require fun _ => .bind .require fun _ => ?_
    exact .bind codeLength fun _ => .bind .require fun _ => emit

theorem missingAccountFunds (mUserOp : MemoryUserOp) (requiredPrefund : Nat)
    : (missingAccountFunds mUserOp requiredPrefund).Does KeepsGuard := by
  unfold EntryPoint.missingAccountFunds
  split
  . exact .bind balanceOf fun _ => .ret
  . exact .ret

theorem deductAccountPrefund (opIndex : Nat) (mUserOp : MemoryUserOp) (requiredPrefund : Nat)
    : (deductAccountPrefund opIndex mUserOp requiredPrefund).Does KeepsGuard := by
  unfold EntryPoint.deductAccountPrefund
  split
  . exact .bind balanceOf fun _ => .bind .require fun _ => sstore fun _ => rfl
  . exact .ret

theorem validateAccountPrepayment (opIndex : Nat) (op : PackedUserOperation) (opInfo : UserOpInfo)
    (requiredPrefund gasLimit : Nat)
    : (validateAccountPrepayment cfg opIndex op opInfo requiredPrefund gasLimit).Does KeepsGuard := by
  refine .bind (createSenderIfNeeded _ _ _ _) fun _ => .bind (missingAccountFunds _ _) fun _ => ?_
  refine .bind call fun _ => .bind .require fun _ => .bind getOrRevert fun _ => ?_
  exact .bind (deductAccountPrefund _ _ _) fun _ => .ret

theorem validatePaymasterPrepayment (opIndex : Nat) (op : PackedUserOperation) (opInfo : UserOpInfo)
    (requiredPreFund : Nat)
    : (validatePaymasterPrepayment opIndex op opInfo requiredPreFund).Does KeepsGuard := by
  refine .bind gasleft fun _ => .bind balanceOf fun _ => .bind .require fun _ => ?_
  refine .bind (sstore fun _ => rfl) fun _ => .bind call fun _ => .bind .require fun _ => ?_
  refine .bind getOrRevert fun _ => .bind gasleft fun _ => .bind lift fun _ => ?_
  exact .bind .require fun _ => .ret

theorem validateAndUpdateNonce (sender : Address) (nonce : Word)
    : (validateAndUpdateNonce sender nonce).Does KeepsGuard :=
  .bind sload fun _ => .bind lift fun _ => .bind (sstore fun _ => rfl) fun _ => .ret

theorem validatePrepayment (opIndex : Nat) (op : PackedUserOperation) (outOpInfo : UserOpInfo)
    : (validatePrepayment cfg opIndex op outOpInfo).Does KeepsGuard := by
  refine .bind gasleft fun _ => .bind getOrRevert fun _ => .bind .require fun _ => ?_
  refine .bind (validateAccountPrepayment _ _ _ _ _ _) fun _ => .bind (validateAndUpdateNonce _ _) fun _ => ?_
  refine .bind .require fun _ => .bind gasleft fun _ => .bind lift fun _ => ?_
  refine .bind .require fun _ => .bind ?_ fun _ => ?_
  . split
    . exact .ret
    . exact validatePaymasterPrepayment _ _ _ _
  . exact .bind gasleft fun _ => .ret

theorem validateOps (aggregator : Address) (i opIndex : Nat) (ops : List PackedUserOperation)
    (opInfos : List UserOpInfo)
    : (validateOps cfg msg aggregator i opIndex ops opInfos).Does KeepsGuard := by
  induction ops generalizing i opIndex opInfos with
  | nil => exact .ret
  | cons op ops ih =>
    refine .bind lift fun _ => .bind (validatePrepayment _ _ _ _) fun _ => .bind ?_ fun _ => ih _ _ _
    exact .bind .require fun _ => .bind .require fun _ => .bind .require fun _ => .require

theorem validateGroups (opIndex : Nat) (opas : List UserOpsPerAggregator) (opInfos : List UserOpInfo)
    : (validateGroups cfg msg opIndex opas opInfos).Does KeepsGuard := by
  induction opas generalizing opIndex opInfos with
  | nil => exact .ret
  | cons opa opas ih => exact .bind (validateOps _ _ _ _ _ _ _) fun _ => ih _ _

theorem validateAggregators (opas : List UserOpsPerAggregator) : (validateAggregators opas).Does KeepsGuard := by
  induction opas with
  | nil => exact .ret
  | cons opa opas ih =>
    refine .bind .require fun _ => .bind ?_ fun _ => ih
    unfold EntryPoint.validateAggregators.validateSignatures
    split
    . exact .ret
    . exact .bind requireCode fun _ => .bind call fun _ => .require

/-! ### Execution -/

theorem chargePrefund (opInfo : UserOpInfo) (actualGas : Nat)
    : (chargePrefund opInfo actualGas).Does KeepsGuard :=
  .bind (sstore fun _ => rfl) fun _ => .bind emit fun _ => .bind emit fun _ => .ret

theorem callPostOp (mode : PostOpMode) (mUserOp : MemoryUserOp) (context : Bytes) (actualGasCost gasPrice : Nat)
    : (callPostOp mode mUserOp context actualGasCost gasPrice).Does KeepsGuard := by
  unfold EntryPoint.callPostOp
  split
  . exact .ret
  . exact .bind requireCode fun _ => .bind call fun _ => .require

theorem postExecution (mode : PostOpMode) (opInfo : UserOpInfo) (context : Bytes) (actualGas : Nat)
    : (postExecution msg mode opInfo context actualGas).Does KeepsGuard := by
  refine .bind gasleft fun _ => .bind (callPostOp _ _ _ _ _) fun _ => .bind gasleft fun _ => ?_
  dsimp only
  split
  . split
    . exact chargePrefund _ _
    . exact .revert
  . exact .bind incrementDeposit fun _ => .bind emit fun _ => .ret

theorem callAccount (callData : CallData) (opInfo : UserOpInfo)
    : (callAccount callData opInfo).Does KeepsGuard := by
  unfold EntryPoint.callAccount
  split
  . exact .ret
  . refine .bind call fun r => ?_
    dsimp only
    split
    . exact .ret
    . split
      . exact .bind emit fun _ => .ret
      . exact .ret

theorem innerHandleOp (callData : CallData) (opInfo : UserOpInfo) (context : Bytes)
    : (innerHandleOp msg callData opInfo context).Does KeepsGuard := by
  unfold EntryPoint.innerHandleOp
  refine .bind gasleft fun _ => .bind .require fun _ => .bind gasleft fun _ => ?_
  -- the overhead is a numeral that unification would count down
  generalize Yul.add (Yul.add opInfo.mUserOp.callGasLimit opInfo.mUserOp.paymasterPostOpGasLimit)
    INNER_GAS_OVERHEAD = limit
  refine .bind .require fun _ => .bind (callAccount _ _) fun _ => .bind gasleft fun _ => ?_
  exact .bind (postExecution _ _ _ _ _) fun _ => .ret

theorem gasSince (preGas : Nat) (opInfo : UserOpInfo) : (gasSince preGas opInfo).Does KeepsGuard :=
  .bind gasleft fun _ => .bind lift fun _ => lift

theorem executeUserOp (opIndex : Nat) (op : PackedUserOperation) (opInfo : UserOpInfo)
    : (executeUserOp msg opIndex op opInfo).Does KeepsGuard := by
  refine .bind gasleft fun _ => .bind call fun r => ?_
  dsimp only
  split
  . exact .ret
  . split
    . exact .revert
    . split
      . exact .bind (gasSince _ _) fun _ => chargePrefund _ _
      . exact .bind emit fun _ => .bind (gasSince _ _) fun _ => postExecution _ _ _ _ _

theorem executeOps (add : Nat → Nat → Checked Nat) (opIndex : Nat) (ops : List PackedUserOperation)
    (opInfos : List UserOpInfo) (collected : Nat)
    : (executeOps msg add opIndex ops opInfos collected).Does KeepsGuard := by
  induction ops generalizing opIndex collected with
  | nil => exact .ret
  | cons op ops ih =>
    refine .bind lift fun _ => .bind (executeUserOp _ _ _ _) fun _ => ?_
    exact .bind lift fun _ => ih _ _

theorem executeGroups (opIndex : Nat) (opas : List UserOpsPerAggregator) (opInfos : List UserOpInfo)
    (collected : Nat)
    : (executeGroups msg opIndex opas opInfos collected).Does KeepsGuard := by
  induction opas generalizing opIndex collected with
  | nil => exact .ret
  | cons opa opas ih => exact .bind emit fun _ => .bind (executeOps _ _ _ _ _ _) fun _ => ih _ _

theorem compensate (beneficiary : Address) (amount : Nat) : (compensate beneficiary amount).Does KeepsGuard :=
  .bind .require fun _ => .bind (sstore fun _ => rfl) fun _ => .bind call fun _ => .require

theorem handleOps_body (ops : List PackedUserOperation) (beneficiary : Address)
    : Prog.Does KeepsGuard (do
        let opInfos ← EntryPoint.validateOps cfg msg 0 0 0 ops (List.replicate ops.length default)
        Prog.emit .beforeExecution
        let collected ← EntryPoint.executeOps msg (fun a b => .ok (Yul.add a b)) 0 ops opInfos 0
        EntryPoint.compensate beneficiary collected
        return (default : ReturnData)) := by
  refine .bind (validateOps _ _ _ _ _ _ _) fun _ => .bind emit fun _ => ?_
  exact .bind (executeOps _ _ _ _ _ _) fun _ => .bind (compensate _ _) fun _ => .ret

theorem handleAggregatedOps_body (opas : List UserOpsPerAggregator) (beneficiary : Address)
    : Prog.Does KeepsGuard (do
        EntryPoint.validateAggregators opas
        let opInfos ← EntryPoint.validateGroups cfg msg 0 opas (List.replicate (totalOps opas) default)
        Prog.emit .beforeExecution
        let collected ← EntryPoint.executeGroups msg 0 opas opInfos 0
        Prog.emit (.signatureAggregatorChanged 0)
        EntryPoint.compensate beneficiary collected
        return (default : ReturnData)) := by
  refine .bind (validateAggregators _) fun _ => .bind (validateGroups _ _ _ _ _) fun _ => ?_
  refine .bind emit fun _ => .bind (executeGroups _ _ _ _ _) fun _ => .bind emit fun _ => ?_
  exact .bind (compensate _ _) fun _ => .ret

/-- All functions but the bundles, and the `delegatecall` whose effects are not known. -/
theorem dispatch (hnone : Deployment.bundleOf (decodeMessage cfg msg.message) = none)
    (hdelegate : ∀ target data, decodeMessage cfg msg.message ≠ .delegateAndRevert target data)
    : (dispatch cfg msg).Does KeepsGuard := by
  unfold EntryPoint.dispatch
  cases hmessage : decodeMessage cfg msg.message with
  | receive => exact depositTo _ _
  | depositTo account => exact depositTo _ _
  | addStake unstakeDelaySec => exact addStake _ _
  | unlockStake => exact .bind .require fun _ => unlockStake _
  | withdrawStake withdrawAddress => exact .bind .require fun _ => withdrawStake _ _
  | withdrawTo withdrawAddress withdrawAmount => exact .bind .require fun _ => withdrawTo _ _ _
  | incrementNonce key => exact .bind .require fun _ => incrementNonce _ _
  | entryPointView view => exact .bind .require fun _ => .bind sload fun _ => .ret
  | innerHandleOp callData opInfo context => exact .bind .require fun _ => innerHandleOp _ _ _ _
  | getSenderAddress initCode =>
    refine .bind .require fun _ => .bind call fun _ => .bind .require fun _ => ?_
    exact .bind getOrRevert fun _ => .revert
  | delegateAndRevert target data => exact absurd hmessage (hdelegate _ _)
  | handleOps | handleAggregatedOps =>
    rw [hmessage] at hnone
    cases hnone
  | _ => exact .revert

end

end KeepsGuard

end EntryPoint

namespace Deployment

open EntryPoint

variable {X : Type} {d : Deployment X} {msg frame : Frame Message}
  {inv : Frame Message → State (Chain X) → Reply (Chain X) Message ReturnData Log}
  {s s' : State (Chain X)} {t : Chain.Trace X}

def entered (w : World (Chain X)) : Bool := w.storage.entryPoint.entered

/-- The guard is as the caller has found it, and within a bundle nobody has opened it. -/
def Returning (inv : Frame Message → State (Chain X) → Reply (Chain X) Message ReturnData Log) : Prop :=
  ∀ frame s, entered (inv frame s).state.world = entered s.world
    ∧ (entered s.world = true → ∀ w, Outside w (inv frame s).body → entered w = true)

section

variable (hinv : Returning inv)
include hinv

theorem perform_entered {T : Type} {l : Lens (Chain X) T} (o : Op T Message ReturnData Log)
    (s : State (Chain X))
    (hsstore : ∀ f, o = .sstore f → entered (s.world.write l f) = entered s.world)
    (hdelegate : ∀ target message, o = .delegatecall target message → msg.self ≠ d.entryPoint)
    : entered (perform d.system inv msg (o.zoom l.get l.set) s).2.1.world = entered s.world
      ∧ (entered s.world = true →
        ∀ w, Outside w (perform d.system inv msg (o.zoom l.get l.set) s).2.2 → entered w = true) := by
  cases o with
  | sstore f =>
    have hafter := hsstore f rfl
    refine ⟨hafter, fun hs w hw => ?_⟩
    rw [Outside.sstore_singleton hw]
    exact hafter.trans hs
  | delegatecall target message =>
    refine ⟨?_, fun _ w hw => absurd hw Outside.not_delegate⟩
    change entered
      (d.system.delegate inv msg { s with gas := callGas none s.gas } target message).state.world = _
    rw [d.delegate_other (hdelegate target message rfl)]
  | push target value =>
    simp only [Op.zoom, perform]
    split
    . refine ⟨rfl, fun hs w hw => ?_⟩
      rw [hw.push_singleton]
      exact hs
    . exact ⟨rfl, fun _ w hw => absurd hw Outside.not_nil⟩
  | call c =>
    obtain ⟨hafter, hbody⟩ := hinv ⟨c.target, msg.self, c.value, c.message, msg.env⟩
      { s with gas := callGas c.gas s.gas }
    refine ⟨hafter, fun hs w hw => ?_⟩
    rcases Outside.call_singleton hw with rfl | hw
    . exact hafter.trans hs
    . exact hbody hs w hw
  | emit log => exact ⟨rfl, fun _ w hw => absurd hw Outside.not_log⟩
  | _ => exact ⟨rfl, fun _ w hw => absurd hw Outside.not_nil⟩

/-- An operation of the entry point. -/
theorem KeepsGuard.perform {o : Op Storage Message ReturnData Log} (ho : KeepsGuard o) (s : State (Chain X))
    : entered (Evm.perform d.system inv msg (o.zoom Chain.entryPointPart.get Chain.entryPointPart.set) s).2.1.world
        = entered s.world
      ∧ (entered s.world = true → ∀ w, Outside w
          (Evm.perform d.system inv msg (o.zoom Chain.entryPointPart.get Chain.entryPointPart.set) s).2.2 →
            entered w = true) := by
  apply perform_entered hinv
  . rintro f rfl
    exact ho _
  . rintro target message rfl
    exact ho.elim

theorem KeepsGuard.sat {α : Type} {p : Code α} (hp : p.Does KeepsGuard) (b : Bool)
    : Sat d.system inv msg Chain.entryPointPart (fun w => b = true → entered w = true)
        (fun w => entered w = b) p fun _ w => entered w = b := by
  refine Sat.of_does hp fun o ho s hs => ?_
  obtain ⟨hafter, hvisited⟩ := KeepsGuard.perform hinv ho s
  exact ⟨fun w hw hb => hvisited (hs.trans hb) w hw, hafter.trans hs⟩

/-! ## Bundles -/

/-- A bundle does not start if another one is under way. Otherwise it opens the guard again. -/
theorem nonReentrant_entered {α : Type} {body : Code α} (hguard : d.cfg.Guarded)
    (hbody : body.Does KeepsGuard) (b : Bool)
    : Sat d.system inv msg Chain.entryPointPart (fun w => b = true → entered w = true)
        (fun w => entered w = b) (nonReentrant d.cfg body) fun _ w => b = false ∧ entered w = b := by
  refine Sat.bind_sload fun v => ?_
  apply Sat.of_pre (c := v.entered = b)
  . rintro w ⟨hw, rfl⟩
    exact hw
  intro hv
  rw [hv]
  cases b with
  | true =>
    rw [hguard.locked]
    exact Sat.bind_revert
  | false =>
    rw [hguard.enter]
    have hopen : Sat d.system inv msg Chain.entryPointPart (fun w => false = true → entered w = true)
        (fun w => entered w = true) body fun _ w => entered w = true :=
      fun s hs => ⟨fun w _ hb => (Bool.false_ne_true hb).elim, (KeepsGuard.sat hinv hbody true s hs).2⟩
    refine Sat.bind (Q := fun a _ => a = true) (Sat.ret fun _ _ => rfl) fun a => ?_
    apply Sat.of_pre (c := a = true) fun _ h => h
    rintro rfl
    have hleave (x : α) : Sat d.system inv msg Chain.entryPointPart (fun w => false = true → entered w = true)
        (fun w => entered w = false) (pure x) fun _ w => false = false ∧ entered w = false :=
      Sat.ret fun w hw => ⟨rfl, hw⟩
    refine Sat.bind_sstore ?_ (Sat.bind hopen fun x => Sat.bind_sstore ?_ (hleave x))
    . intro w _
      exact ⟨fun hb => (Bool.false_ne_true hb).elim, rfl⟩
    . intro w _
      exact ⟨fun hb => (Bool.false_ne_true hb).elim, hguard.leave _⟩

/-- Every function leaves the guard as it is, and bundles need it open. -/
theorem dispatch_entered (hguard : d.cfg.Guarded) (b : Bool)
    : Sat d.system inv msg Chain.entryPointPart (fun w => b = true → entered w = true)
        (fun w => entered w = b) (dispatch d.cfg msg) fun _ w =>
          ((bundleOf (decodeMessage d.cfg msg.message)).isSome = true → b = false) ∧ entered w = b := by
  have hbundle {p : Code ReturnData} (hp : p.Does KeepsGuard)
      : Sat d.system inv msg Chain.entryPointPart (fun w => b = true → entered w = true)
          (fun w => entered w = b) (nonpayable msg (nonReentrant d.cfg p)) fun _ w =>
            ((bundleOf (decodeMessage d.cfg msg.message)).isSome = true → b = false) ∧ entered w = b :=
    Sat.bind_require fun _ => (nonReentrant_entered hinv hguard hp b).mono (fun _ h => h)
      fun _ w hw => ⟨fun _ => hw.1, hw.2⟩
  have hplain (hnone : bundleOf (decodeMessage d.cfg msg.message) = none)
      (hdelegate : ∀ target data, decodeMessage d.cfg msg.message ≠ .delegateAndRevert target data)
      : Sat d.system inv msg Chain.entryPointPart (fun w => b = true → entered w = true)
          (fun w => entered w = b) (dispatch d.cfg msg) fun _ w =>
            ((bundleOf (decodeMessage d.cfg msg.message)).isSome = true → b = false) ∧ entered w = b := by
    refine (KeepsGuard.sat hinv (KeepsGuard.dispatch _ _ hnone hdelegate) b).mono (fun _ h => h)
      fun _ w hw => ⟨fun hsome => ?_, hw⟩
    rw [hnone] at hsome
    cases hsome
  unfold dispatch at hplain ⊢
  cases hmessage : decodeMessage d.cfg msg.message with
  | handleOps ops beneficiary =>
    rw [hmessage] at hbundle
    exact hbundle (KeepsGuard.handleOps_body _ _ _ _)
  | handleAggregatedOps opas beneficiary =>
    rw [hmessage] at hbundle
    exact hbundle (KeepsGuard.handleAggregatedOps_body _ _ _ _)
  | delegateAndRevert target data =>
    exact Sat.bind_require fun _ => Sat.bind Sat.delegatecall fun _ => Sat.revert
  | _ =>
    rw [hmessage] at hplain
    exact hplain rfl fun _ _ => Message.noConfusion

end

/-! ## Calls -/

theorem returning (hguard : d.cfg.Guarded) (n : Nat) : Returning (invoke d.system n) := by
  induction n using Nat.strong_induction_on with
  | _ n ih =>
    intro frame s
    have hafter (hok : (invoke d.system n frame s).ok = true →
        entered (invoke d.system n frame s).state.world = entered s.world)
        : entered (invoke d.system n frame s).state.world = entered s.world := by
      cases hr : (invoke d.system n frame s).ok with
      | true => exact hok hr
      | false => rw [invoke_failed d.system hr]
    by_cases hself : frame.self = d.entryPoint
    . obtain ⟨hvisited, hok⟩ := d.invoke_entryPoint (s := s)
        (I := fun w => entered s.world = true → entered w = true) (P := fun w => entered w = entered s.world)
        hself (fun _ _ => ⟨fun hs => hs, rfl⟩) fun m hm => dispatch_entered (ih m hm) hguard _
      exact ⟨hafter fun h => (hok h).2, fun hs w hw => hvisited w hw hs⟩
    . cases hcode : d.codeAt s.world.storage frame.self with
      | none =>
        obtain ⟨hvisited, hend⟩ : (∀ w, Outside w (invoke d.system n frame s).body → entered w = entered s.world)
            ∧ entered (invoke d.system n frame s).state.world = entered s.world :=
          invoke_no_code d.system (I := fun w => entered w = entered s.world) hcode rfl fun _ _ => rfl
        exact ⟨hend, fun hs w hw => (hvisited w hw).trans hs⟩
      | some program =>
        obtain ⟨T, l, p, hl, hp⟩ := d.codeAt_other hself hcode frame
        have hops (m : Nat) (hm : m < n) (o : Op T Message ReturnData Log) (s1 : State (Chain X)) :=
          perform_entered (l := l) (ih m hm) o s1 (fun f _ => congrArg Storage.entered (hl _ _))
            fun _ _ _ => hself
        obtain ⟨hvisited, hok⟩ : (∀ w, Outside w (invoke d.system n frame s).body →
              entered s.world = true → entered w = true)
            ∧ ((invoke d.system n frame s).ok = true →
              entered (invoke d.system n frame s).state.world = entered s.world) :=
          invoke_code d.system (I := fun w => entered s.world = true → entered w = true)
            (Q := fun _ w => entered w = entered s.world) (fun _ _ => ⟨program, hcode, hp⟩)
            (fun _ _ hs => hs) fun m hm _ _ =>
              (Sat.of_ops (J := fun w => entered w = entered s.world) p fun o s1 hs1 =>
                ⟨fun w hw hs => (hops m hm o s1).2 (hs1.trans hs) w hw, (hops m hm o s1).1.trans hs1⟩).mono
                (fun w hw => by rw [hw]; rfl) fun _ _ hw => hw
        exact ⟨hafter hok, fun hs w hw => hvisited w hw hs⟩

/-- A call that runs a bundle. -/
def HandlesOps (d : Deployment X) (frame : Frame Message) : Prop :=
  frame.self = d.entryPoint ∧ (bundleOf (decodeMessage d.cfg frame.message)).isSome = true

/-- A bundle that finds the guard closed reverts. -/
theorem HandlesOps.refused (hguard : d.cfg.Guarded) (h : d.HandlesOps frame) {n : Nat}
    (hs : entered s.world = true)
    : (invoke d.system n frame s).ok = false := by
  obtain ⟨_, hok⟩ := d.invoke_entryPoint (n := n) (s := s)
    (I := fun w => true = true → entered w = true) (P := fun w => entered w = true) h.1
    (fun _ _ => ⟨fun _ => hs, hs⟩) fun m _ => dispatch_entered (returning hguard m) hguard true
  apply Bool.eq_false_iff.mpr
  intro htrue
  cases (hok htrue).1 h.2

section

variable {callee : Frame Message} {before after : World (Chain X)} {ok : Bool} {ret : ReturnData}
  {body : Chain.Trace X}

/-- An operation that is no call leaves none in the trace. -/
theorem not_call_of_op {o : Op Storage Message ReturnData Log} (ho : ∀ c, o ≠ .call c)
    (he : .call callee before after ok ret body ∈ (run d.system inv msg
      ((.op o .ret : Code o.Reply).zoom Chain.entryPointPart.get Chain.entryPointPart.set) s).trace)
    : False := by
  obtain ⟨s1, he⟩ := mem_run_op he
  cases o with
  | call c => exact ho c rfl
  | push target value =>
    simp only [Op.zoom, perform] at he
    split at he <;> simp at he
  | _ => simp [Op.zoom, perform] at he

/-- The calls of a bundle are made behind the closed guard, also if it reverts later. -/
theorem nonReentrant_calls {α : Type} {p : Code α} (hguard : d.cfg.Guarded) (hinv : Returning inv)
    (hp : p.Does KeepsGuard)
    (he : .call callee before after ok ret body ∈ (run d.system inv msg
      ((nonReentrant d.cfg p).zoom Chain.entryPointPart.get Chain.entryPointPart.set) s).trace)
    : entered before = true := by
  rcases mem_run_bind he with he | ⟨v, s1, t1, _, he⟩
  . exact (not_call_of_op (fun _ h => by cases h) he).elim
  rcases mem_run_bind he with he | ⟨a, s2, t2, hdecoded, he⟩
  . cases hbefore : d.cfg.nonReentrantBefore v.entered with
    | none =>
      rw [hbefore] at he
      exact absurd he List.not_mem_nil
    | some a =>
      rw [hbefore] at he
      exact absurd he List.not_mem_nil
  have ha : a = true := by
    cases hbefore : d.cfg.nonReentrantBefore v.entered with
    | none =>
      rw [hbefore] at hdecoded
      exact absurd hdecoded Evm.Returns.not_revert
    | some b =>
      rw [hbefore] at hdecoded
      rw [hdecoded.pure.1]
      cases hv : v.entered with
      | false =>
        rw [hv, hguard.enter] at hbefore
        exact (Option.some.inj hbefore).symm
      | true =>
        rw [hv, hguard.locked] at hbefore
        cases hbefore
  rcases mem_run_bind he with he | ⟨_, s3, t3, hstore, he⟩
  . exact (not_call_of_op (fun _ h => by cases h) he).elim
  have hopen : entered s3.world = true := by
    rw [hstore.sstore.1]
    exact ha
  rcases mem_run_bind he with he | ⟨_, s4, t4, _, he⟩
  . exact hp.calls_from (J := fun w => entered w = true) (fun o ho s hs =>
      ((KeepsGuard.perform hinv ho s).1.trans hs)) hopen he
  rcases mem_run_bind he with he | ⟨_, s5, t5, _, he⟩
  . exact (not_call_of_op (fun _ h => by cases h) he).elim
  . exact absurd he List.not_mem_nil

theorem HandlesOps.calls {n : Nat} (hguard : d.cfg.Guarded) (h : d.HandlesOps frame)
    (he : .call callee before after ok ret body ∈ (invoke d.system n frame s).body)
    : entered before = true := by
  obtain ⟨hself, hbundle⟩ := h
  obtain ⟨m, _, ledger, _, he | ⟨program, hcode, he⟩⟩ := invoke_body_code d.system he
  . cases he
  have hcode' : d.system.code s.world.storage frame.self = some fun msg =>
      (EntryPoint.dispatch d.cfg msg).zoom Chain.entryPointPart.get Chain.entryPointPart.set := by
    rw [hself]
    exact d.codeAt_entryPoint s.world.storage
  rw [hcode'] at hcode
  cases hcode
  have hnonpayable {p : Code ReturnData} (hp : p.Does KeepsGuard)
      (he : .call callee before after ok ret body ∈ (run d.system (invoke d.system m) frame
        ((nonpayable frame (nonReentrant d.cfg p)).zoom Chain.entryPointPart.get Chain.entryPointPart.set)
        { s with world := { s.world with ledger := ledger } }).trace)
      : entered before = true := by
    rcases mem_run_bind he with he | ⟨_, s1, t1, _, he⟩
    . unfold Prog.require at he
      split at he <;> exact absurd he List.not_mem_nil
    . exact nonReentrant_calls hguard (returning hguard m) hp he
  unfold dispatch at he
  dsimp only at he
  cases hmessage : decodeMessage d.cfg frame.message with
  | handleOps ops beneficiary =>
    rw [hmessage] at he
    exact hnonpayable (KeepsGuard.handleOps_body _ _ _ _) he
  | handleAggregatedOps opas beneficiary =>
    rw [hmessage] at he
    exact hnonpayable (KeepsGuard.handleAggregatedOps_body _ _ _ _) he
  | _ =>
    rw [hmessage] at hbundle
    cases hbundle

/-! ## Transactions -/

/-- Every call leaves the guard as it has found it, and no bundle succeeds within another one, whatever
becomes of either. That leaves out the calls by the code that `delegateAndRevert` runs, which may open the
guard, but is taken back in any case. -/
theorem bundles_not_nested (hguard : d.cfg.Guarded) (depth : Nat) (tx : Transaction Message)
    (w : World (Chain X))
    : (∀ callee before after ok ret body,
        Within (.call callee before after ok ret body) (d.happens depth tx w) →
          entered after = entered before)
      ∧ ∀ outer before after ok ret body inner before' after' ok' ret' body',
        Within (.call outer before after ok ret body) (d.happens depth tx w) → d.HandlesOps outer →
        Within (.call inner before' after' ok' ret' body') body → d.HandlesOps inner → ok' = false := by
  constructor
  . intro callee before after ok ret body hcall
    obtain ⟨_, m, s1, s2, hinvoke, rfl, rfl⟩ := invoke_of_within d.system hcall
    have hafter := (returning hguard m callee s1).1
    rw [hinvoke] at hafter
    exact hafter
  . intro outer before after ok ret body inner before' after' ok' ret' body' houter hbundle hinner hbundle'
    obtain ⟨_, m, s1, s2, hinvoke, rfl, rfl⟩ := invoke_of_within d.system houter
    have hbody : (invoke d.system m outer s1).body = body := by rw [hinvoke]
    rw [← hbody] at hinner
    cases hinner with
    | here he =>
      have hopen := hbundle.calls hguard he
      obtain ⟨_, _, m', _, s3, s4, hinvoke', rfl, _⟩ := invoke_call d.system he
      have hrefused := hbundle'.refused (n := m') hguard hopen
      rw [hinvoke'] at hrefused
      exact hrefused
    | @inside frame before1 after1 ok1 ret1 body1 _ he hinside =>
      have hopen := hbundle.calls hguard he
      obtain ⟨_, _, m', _, s3, s4, hinvoke', rfl, _⟩ := invoke_call d.system he
      have hvisited := (returning hguard m' frame s3).2 hopen
      rw [hinvoke'] at hvisited
      have hbody1 : (invoke d.system m' frame s3).body = body1 := by rw [hinvoke']
      rw [← hbody1] at hinside
      obtain ⟨_, k, _, s5, s6, hinvoke5, _⟩ := invoke_within d.system hinside
      rw [hbody1] at hinside
      cases ok' with
      | false => rfl
      | true =>
        -- the world in which it has started has been passed behind the closed guard
        obtain ⟨_, _, ledger, _, hstarted⟩ := invoke_ok d.system (n := k) (s := s5) (by rw [hinvoke5])
        rw [hinvoke5] at hstarted
        have henter : .enter { s5.world with ledger := ledger } ∈ body' := by
          rcases hstarted with ⟨_, _, hbody⟩ | ⟨_, _, _, _, hbody⟩
          . rw [show body' = _ from hbody]
            exact List.mem_cons_self
          . rw [show body' = _ from hbody]
            exact List.mem_cons_self
        have hclosed := hvisited _ (Outside.of_within hinside (.enter henter))
        have hrefused := hbundle'.refused (n := k) (s := s5) hguard hclosed
        rw [hinvoke5] at hrefused
        cases hrefused

theorem bundles_not_nested_sampleOp
    : ∃ before after ok ret body,
        Within (.call (bundleTx (.handleOps [sampleOp 3] 5)).frame before after ok ret body)
          (sample.happens 5 (bundleTx (.handleOps [sampleOp 3] 5)) fundedWorld)
        ∧ entered after = entered before
        ∧ ∀ inner before' after' ok' ret' body', Within (.call inner before' after' ok' ret' body') body →
          sample.HandlesOps inner → ok' = false := by
  obtain ⟨hreturns, hnested⟩ := bundles_not_nested (d := sample) openZeppelin_guarded 5
    (bundleTx (.handleOps [sampleOp 3] 5)) fundedWorld
  have hcall := Within.here (List.mem_singleton_self (callEvent sample.system 5
    (bundleTx (.handleOps [sampleOp 3] 5)).frame
    ⟨{ fundedWorld with storage := sample.system.clearTransient fundedWorld.storage }, 1000000, 0⟩))
  exact ⟨_, _, _, _, _, hcall, hreturns _ _ _ _ _ _ hcall, fun _ _ _ _ _ _ hinner hbundle =>
    hnested _ _ _ _ _ _ _ _ _ _ _ _ hcall ⟨rfl, rfl⟩ hinner hbundle⟩

end

end Deployment
