import FalconSmartAccount.EntryPoint.EntryPointSimulations
import FalconSmartAccount.EntryPoint.Reentrancy

/-!
`simulateHandleOp`, by which a bundler learns what an operation will pay, and the bundle of that one
operation.
-/

open Evm

namespace EntryPointSimulations

open EntryPoint (Code Config nonReentrant executeUserOp)

structure ExecutionResult where
  preOpGas : Nat
  paid : Nat
  accountValidationData : Nat
  paymasterValidationData : Nat
  targetSuccess : Bool
  targetResult : Bytes

def callTarget (target : Address) (targetCallData : Bytes) : Code (Bool × Bytes) :=
  if target = 0 then
    pure (false, [])
  else do
    let (success, ret) ← Prog.call ⟨target, 0, none, .bytes targetCallData⟩
    return (success, ret.toBytes)

/-- Nothing is done with the validation data but to return it. -/
def simulateHandleOp (cfg : Config) (chainid : Word) (st : Storage) (msg : Frame Message)
    (op : PackedUserOperation) (target : Address) (targetCallData : Bytes) : Code ExecutionResult :=
  nonReentrant cfg do
    let st := initSenderCreator cfg.keccak256 chainid msg.self st
    simulationOnlyValidations op
    let (opInfo, validationData, paymasterValidationData) ←
      validatePrepayment (config cfg st) 0 op default
    let paid ← executeUserOp msg 0 op opInfo
    let (targetSuccess, targetResult) ← callTarget target targetCallData
    return ⟨opInfo.preOpGas, paid, validationData, paymasterValidationData, targetSuccess, targetResult⟩

end EntryPointSimulations

namespace EntryPoint

section

variable {cfg : Config} {msg : Frame Message}

/-- A bundle of one operation. -/
def handleOp (cfg : Config) (msg : Frame Message) (op : PackedUserOperation) (beneficiary : Address)
    : Code ReturnData := do
  let (opInfo, validationData, paymasterValidationData) ← validatePrepayment cfg 0 op default
  validateAccountAndPaymasterValidationData msg 0 validationData paymasterValidationData 0
  Prog.emit .beforeExecution
  let paid ← executeUserOp msg 0 op opInfo
  compensate beneficiary (Yul.add 0 paid)
  return default

theorem handleOps_single (op : PackedUserOperation) (beneficiary : Address)
    : handleOps cfg msg [op] beneficiary = nonReentrant cfg (handleOp cfg msg op beneficiary) := by
  have hexecute (opInfo : UserOpInfo)
      : executeOps msg (fun a b => .ok (Yul.add a b)) 0 [op] [opInfo] 0
          = executeUserOp msg 0 op opInfo >>= fun paid => pure (Yul.add 0 paid) := rfl
  unfold handleOps handleOp
  congr 1
  change (validateOps cfg msg 0 0 0 [op] [default] >>= _) = _
  rw [validateOps_single]
  simp only [bind_assoc, pure_bind, hexecute]

theorem executeUserOp_frame {msg' : Frame Message} (hself : msg'.self = msg.self)
    (henv : msg'.env = msg.env)
    : executeUserOp msg' = executeUserOp msg := by
  unfold executeUserOp postExecution
  rw [hself]
  rw [henv]

/-! ## What is paid is a word -/

theorem validatePrepayment_yields {opIndex : Nat} {op : PackedUserOperation} {outOpInfo : UserOpInfo}
    : (validatePrepayment cfg opIndex op outOpInfo).Yields fun r => r.1.prefund < Yul.wordSize := by
  have hprefund (mUserOp : MemoryUserOp) : getRequiredPrefund mUserOp < Yul.wordSize := by
    apply Nat.mod_lt
    decide
  unfold validatePrepayment validatePrepaymentWith
  apply Prog.Yields.of_bind
  intro preGas
  apply Prog.Yields.of_bind
  intro mUserOp
  apply Prog.Yields.of_bind
  intro _
  apply Prog.Yields.of_bind
  intro validationData
  apply Prog.Yields.of_bind
  intro accepted
  apply Prog.Yields.of_bind
  intro _
  apply Prog.Yields.of_bind
  intro gas
  apply Prog.Yields.of_bind
  intro limit
  apply Prog.Yields.of_bind
  intro _
  apply Prog.Yields.of_bind
  intro r
  apply Prog.Yields.of_bind
  intro gas
  apply hprefund

theorem wordAt_lt (bytes : Bytes) (offset : Nat) : Abi.wordAt bytes offset < Yul.wordSize := by
  have huint (len : Nat) : Abi.uintAt bytes offset len < 256 ^ len := by
    induction len with
    | zero => exact Nat.one_pos
    | succ len ih =>
      have hbyte := ((bytes.drop offset).getD len 0).toNat_lt
      unfold Abi.uintAt at ih ⊢
      rw [List.range_succ]
      rw [List.foldl_append]
      rw [Nat.pow_succ]
      simp only [List.foldl_cons, List.foldl_nil]
      omega
  apply huint 32

variable {opInfo : UserOpInfo} (hprefund : opInfo.prefund < Yul.wordSize)

include hprefund

theorem chargePrefund_yields {actualGas : Nat}
    : (chargePrefund opInfo actualGas).Yields fun paid => paid < Yul.wordSize := by
  unfold chargePrefund
  apply Prog.Yields.of_bind
  intro _
  apply Prog.Yields.of_bind
  intro _
  apply Prog.Yields.of_bind
  intro _
  apply hprefund

theorem postExecution_yields {mode : PostOpMode} {context : Bytes} {actualGas : Nat}
    : (postExecution msg mode opInfo context actualGas).Yields fun paid => paid < Yul.wordSize := by
  unfold postExecution
  apply Prog.Yields.of_bind
  intro preGas
  apply Prog.Yields.of_bind
  intro _
  apply Prog.Yields.of_bind
  intro gas
  dsimp only
  split
  . split
    . apply chargePrefund_yields hprefund
    . trivial
  . apply Prog.Yields.of_bind
    intro _
    apply Prog.Yields.of_bind
    intro _
    apply Nat.mod_lt
    decide

theorem executeUserOp_yields {opIndex : Nat} {op : PackedUserOperation}
    : (executeUserOp msg opIndex op opInfo).Yields fun paid => paid < Yul.wordSize := by
  unfold executeUserOp
  apply Prog.Yields.of_bind
  intro preGas
  apply Prog.Yields.of_bind
  intro r
  dsimp only
  split
  . apply wordAt_lt
  . split
    . trivial
    . split
      . apply Prog.Yields.of_bind
        intro actualGas
        apply chargePrefund_yields hprefund
      . apply Prog.Yields.of_bind
        intro _
        apply Prog.Yields.of_bind
        intro actualGas
        apply postExecution_yields hprefund

end

end EntryPoint

namespace Deployment

open EntryPoint EntryPointSimulations

variable {X : Type} {d : Deployment X} {msg sim : Frame Message} {w w' : World (Chain X)}
  {as : List (Answer (Chain X) Message ReturnData Log)} {t : Chain.Trace X} {op : PackedUserOperation}

/-! ## Replaying the parts of a bundle -/

theorem keepsGuard_own {α : Type} {p : EntryPoint.Code α} (hp : p.Does KeepsGuard)
    : (p.zoom (Chain.entryPointPart (X := X)).get Chain.entryPointPart.set).Does Op.Own := by
  apply hp.own
  intro o ho
  cases o with
  | delegatecall target message => cases ho
  | _ => trivial

theorem replays_require {α : Type} {c : Bool} {data : ReturnData} {f : Unit → EntryPoint.Code α} {a : α}
    : d.Replays msg (Prog.require c data >>= f) w as a w' t ↔ c = true ∧ d.Replays msg (f ()) w as a w' t := by
  unfold Prog.require
  cases c with
  | true =>
    constructor
    . intro h
      exact ⟨rfl, h⟩
    . intro h
      exact h.2
  | false =>
    constructor
    . intro h
      cases h
    . intro h
      cases h.1

/-- The storage when a guarded function has returned. -/
def leave (d : Deployment X) (w : World (Chain X)) : World (Chain X) :=
  w.write Chain.entryPointPart fun s => { s with entered := d.cfg.nonReentrantAfter s.entered }

theorem replays_nonReentrant {α : Type} {body : EntryPoint.Code α} {a : α}
    : d.Replays msg (nonReentrant d.cfg body) w as a w' t
        ↔ ∃ entered w1 t1, d.cfg.nonReentrantBefore w.storage.entryPoint.entered = some entered
          ∧ d.Replays msg body (w.map (enter entered)) as a w1 t1 ∧ w' = d.leave w1
          ∧ t = .sstore w (w.map (enter entered)) :: (t1 ++ [.sstore w1 w']) := by
  unfold nonReentrant
  constructor
  . intro h
    have h := Evm.Replays.bind_sload.mp h
    cases hentered : d.cfg.nonReentrantBefore w.storage.entryPoint.entered with
    | none =>
      have hdecoded : (decoded (d.cfg.nonReentrantBefore (Chain.entryPointPart.get w.storage).entered)
          : EntryPoint.Code Bool) = .revert default := congrArg decoded hentered
      rw [hdecoded] at h
      cases h
    | some entered =>
      have hdecoded : (decoded (d.cfg.nonReentrantBefore (Chain.entryPointPart.get w.storage).entered)
          : EntryPoint.Code Bool) = pure entered := congrArg decoded hentered
      rw [hdecoded] at h
      rw [pure_bind] at h
      obtain ⟨t1, rfl, hrest⟩ := Evm.Replays.bind_sstore.mp h
      obtain ⟨b, w1, as1, as2, t2, t3, hbody, hleave, rfl, rfl⟩ := Replays.bind hrest
      obtain ⟨t4, rfl, hret⟩ := Evm.Replays.bind_sstore.mp hleave
      cases hret
      rw [List.append_nil]
      exact ⟨entered, w1, t2, rfl, hbody, rfl, rfl⟩
  . rintro ⟨entered, w1, t1, hentered, hbody, rfl, rfl⟩
    have hdecoded : (decoded (d.cfg.nonReentrantBefore (Chain.entryPointPart.get w.storage).entered)
        : EntryPoint.Code Bool) = pure entered := congrArg decoded hentered
    apply Evm.Replays.bind_sload.mpr
    rw [hdecoded]
    rw [pure_bind]
    apply Evm.Replays.bind_sstore.mpr
    refine ⟨_, rfl, ?_⟩
    have hleave : d.Replays msg (Prog.sstore (fun s => { s with
        entered := d.cfg.nonReentrantAfter s.entered }) >>= fun _ => pure a) w1 [] a (d.leave w1)
          [.sstore w1 (d.leave w1)] := by
      apply Evm.Replays.bind_sstore.mpr
      exact ⟨[], rfl, .ret⟩
    have hseq := Replays.seq (f := fun a => Prog.sstore (fun s => { s with
      entered := d.cfg.nonReentrantAfter s.entered }) >>= fun _ => pure a) hbody hleave
    rw [List.append_nil] at hseq
    exact hseq

/-- What is written before the beneficiary is paid. -/
def pay (amount : Nat) (w : World (Chain X)) : World (Chain X) :=
  w.write Chain.entryPointPart fun s => s.note (Books.pay amount)

theorem replays_compensate {beneficiary : Address} {amount : Nat} {u : Unit}
    : d.Replays msg (compensate beneficiary amount) w as u w' t
        ↔ beneficiary ≠ 0 ∧ ∃ data body, as = [.call true data w' body]
          ∧ t = [.sstore w (pay amount w),
            .call ⟨beneficiary, msg.self, amount, .bytes [], msg.env⟩ (pay amount w) w' true data body] := by
  unfold compensate EntryPoint.require
  rw [replays_require]
  rw [bne_iff_ne]
  constructor
  . rintro ⟨hbeneficiary, h⟩
    refine ⟨hbeneficiary, ?_⟩
    obtain ⟨t1, rfl, hcall⟩ := Evm.Replays.bind_sstore.mp h
    generalize hpaid : w.write Chain.entryPointPart (fun s => s.note (Books.pay amount)) = w0 at hcall
    cases hcall with
    | @call _ _ _ success ret _ body _ _ _ _ hsent =>
      cases success with
      | false => cases hsent
      | true =>
        cases hsent
        subst hpaid
        exact ⟨ret, body, rfl, rfl⟩
    | op ho _ _ => cases ho
  . rintro ⟨hbeneficiary, data, body, rfl, rfl⟩
    refine ⟨hbeneficiary, ?_⟩
    apply Evm.Replays.bind_sstore.mpr
    refine ⟨_, rfl, ?_⟩
    exact .call .ret

theorem replays_emit {α : Type} {log : Log} {f : Unit → EntryPoint.Code α} {a : α}
    : d.Replays msg (Prog.emit log >>= f) w as a w' t
        ↔ ∃ t', t = .log log :: t' ∧ d.Replays msg (f ()) w as a w' t' := by
  constructor
  . intro h
    cases h with
    | op _ hperform h =>
      cases hperform
      exact ⟨_, rfl, h⟩
  . rintro ⟨t', rfl, h⟩
    let refuses (_ : Frame Message) (s : State (Chain X)) : Reply (Chain X) Message ReturnData Log :=
      ⟨false, default, s, []⟩
    exact @Replays.op _ _ _ _ _ _ _ refuses (.emit log) _ _ ⟨w, 0, 0⟩ _ _ _ _ _ _ trivial rfl h

/-- When validation and execution are told what they have been told before, only the verdict on the
validation data and the payment are left. -/
theorem replays_handleOp {beneficiary : Address} {opInfo : UserOpInfo} {v pv paid : Nat} {ret : ReturnData}
    {w1 w2 : World (Chain X)} {as1 as2 told : List (Answer (Chain X) Message ReturnData Log)}
    {validation execution : Chain.Trace X}
    (hvalidation : d.Replays msg (EntryPoint.validatePrepayment d.cfg 0 op default) w as1 (opInfo, v, pv) w1
      validation)
    (hexecution : d.Replays msg (executeUserOp msg 0 op opInfo) w1 as2 paid w2 execution)
    : d.Replays msg (handleOp d.cfg msg op beneficiary) w (as1 ++ (as2 ++ told)) ret w' t
        ↔ (Approves msg.env.timestamp v ∧ Approves msg.env.timestamp pv) ∧ ret = default
          ∧ ∃ payment, d.Replays msg (compensate beneficiary (Yul.add 0 paid)) w2 told () w' payment
            ∧ t = validation ++ (.log .beforeExecution :: (execution ++ payment)) := by
  unfold handleOp
  constructor
  . intro h
    obtain ⟨r, w3, bs1, bs2, t1, t2, hfirst, hrest, hbs, rfl⟩ := Replays.bind h
    obtain ⟨rfl, rfl, rfl, rfl⟩ := Evm.Replays.unique_append hvalidation hfirst hbs
    dsimp only at hrest
    cases validateAccountAndPaymasterValidationData_eq msg 0 v pv with
    | inr hrejected =>
      obtain ⟨_, data, hrevert⟩ := hrejected
      rw [hrevert] at hrest
      cases hrest
    | inl happroved =>
      obtain ⟨hv, hpv, hpure⟩ := happroved
      rw [hpure] at hrest
      obtain ⟨t3, rfl, hrest3⟩ := replays_emit.mp hrest
      obtain ⟨paid', w4, cs1, cs2, t4, t5, hsecond, hrest4, hcs, rfl⟩ := Replays.bind hrest3
      obtain ⟨rfl, rfl, rfl, rfl⟩ := Evm.Replays.unique_append hexecution hsecond hcs
      obtain ⟨u, w5, ds1, ds2, t6, t7, hpayment, hret, rfl, rfl⟩ := Replays.bind hrest4
      cases hret
      refine ⟨⟨hv, hpv⟩, rfl, t6, ?_, ?_⟩
      . rw [List.append_nil]
        apply hpayment
      . rw [List.append_nil]
  . rintro ⟨⟨hv, hpv⟩, rfl, payment, hpayment, rfl⟩
    cases validateAccountAndPaymasterValidationData_eq msg 0 v pv with
    | inr hrejected => exact absurd ⟨hv, hpv⟩ hrejected.1
    | inl happroved =>
      have hlast : d.Replays msg (compensate beneficiary (Yul.add 0 paid) >>= fun _ => pure (default : ReturnData)) w2 told
          default w' payment := by
        have hseq := Replays.seq (f := fun _ => (pure (default : ReturnData) : EntryPoint.Code ReturnData)) hpayment .ret
        rw [List.append_nil] at hseq
        rw [List.append_nil] at hseq
        exact hseq
      have hlater := Replays.seq (f := fun paid => compensate beneficiary (Yul.add 0 paid) >>= fun _ =>
        (pure (default : ReturnData) : EntryPoint.Code ReturnData)) hexecution hlast
      apply Replays.seq hvalidation
      dsimp only
      rw [happroved.2.2]
      apply replays_emit.mpr
      exact ⟨_, rfl, hlater⟩

/-! ## The simulation -/

section

variable {chainid : Word} {st : EntryPointSimulations.Storage} {target : Address} {targetCallData : Bytes}
  {result : ExecutionResult}

/-- What the call of the target has been told. -/
def Targeted (target : Address) (result : ExecutionResult)
    (as : List (Answer (Chain X) Message ReturnData Log)) : Prop :=
  if target = 0 then
    as = [] ∧ result.targetSuccess = false ∧ result.targetResult = []
  else
    ∃ ret w body, as = [.call result.targetSuccess ret w body] ∧ result.targetResult = ret.toBytes

theorem callTarget_replays {r : Bool × Bytes}
    (h : d.Replays sim (callTarget target targetCallData) w as r w' t)
    : if target = 0 then as = [] ∧ r = (false, [])
      else ∃ ret body, as = [.call r.1 ret w' body] ∧ r.2 = ret.toBytes := by
  unfold callTarget at h
  by_cases hzero : target = 0
  . rw [if_pos hzero] at h
    rw [if_pos hzero]
    cases h
    exact ⟨rfl, rfl⟩
  . rw [if_neg hzero] at h
    rw [if_neg hzero]
    cases h with
    | call h =>
      cases h
      exact ⟨_, _, rfl, rfl⟩
    | op ho _ _ => cases ho

/-- The stricter limit lets through only what the entry point lets through. -/
theorem validatePrepayment_simulated {r : UserOpInfo × Nat × Nat} (hself : sim.self = d.entryPoint)
    (hcreate : createdObj d.cfg.keccak256 d.entryPoint = d.cfg.senderCreator)
    (heip712 : d.cfg.UsesEIP712 chainid d.entryPoint)
    (h : d.Replays sim (EntryPointSimulations.validatePrepayment
      (config d.cfg (initSenderCreator d.cfg.keccak256 chainid sim.self st)) 0 op default) w as r w' t)
    : d.Replays sim (EntryPoint.validatePrepayment d.cfg 0 op default) w as r w' t := by
  rw [hself] at h
  rw [config_eq hcreate heip712] at h
  have hmatches : Matches (fun _ => false) True _ (EntryPoint.validatePrepayment d.cfg 0 op default) :=
    validatePrepayment_matches getVerificationGasLimit_le
  obtain ⟨t', hreal, ht⟩ := (hmatches.zoom Chain.entryPointPart).replays h
  have hloud (t : Chain.Trace X) : loud (fun _ => false) t = t := by
    apply List.filter_eq_self.mpr
    intro e _
    cases e <;> rfl
  rw [hloud] at ht
  rw [hloud] at ht
  rw [ht] at hreal
  exact hreal

theorem simulateHandleOp_replays (hself : sim.self = d.entryPoint)
    (hcreate : createdObj d.cfg.keccak256 d.entryPoint = d.cfg.senderCreator)
    (heip712 : d.cfg.UsesEIP712 chainid d.entryPoint)
    (h : d.Replays sim (simulateHandleOp d.cfg chainid st sim op target targetCallData) w as result w' t)
    : ∃ entered opInfo w1 w2 as1 as2 as3 validation execution rest,
        d.cfg.nonReentrantBefore w.storage.entryPoint.entered = some entered
        ∧ d.Replays sim (EntryPoint.validatePrepayment d.cfg 0 op default) (w.map (enter entered)) as1
            (opInfo, result.accountValidationData, result.paymasterValidationData) w1 validation
        ∧ d.Replays sim (executeUserOp sim 0 op opInfo) w1 as2 result.paid w2 execution
        ∧ opInfo.preOpGas = result.preOpGas ∧ Targeted target result as3
        ∧ as = as1 ++ (as2 ++ as3)
        ∧ t = .sstore w (w.map (enter entered)) :: (validation ++ (execution ++ rest)) := by
  obtain ⟨entered, w1, t1, hentered, hbody, rfl, rfl⟩ := replays_nonReentrant.mp h
  obtain ⟨_, hbody⟩ := hbody.looks (simulationOnlyValidations_looks op)
  obtain ⟨⟨opInfo, v, pv⟩, w2, as1, as2, t2, t3, hvalidation, hrest, rfl, rfl⟩ := Replays.bind hbody
  dsimp only at hrest
  obtain ⟨paid, w3, as3, as4, t4, t5, hexecution, hlast, rfl, rfl⟩ := Replays.bind hrest
  obtain ⟨r, w4, as5, as6, t6, t7, hcall, hret, rfl, rfl⟩ := Replays.bind hlast
  have htarget := callTarget_replays hcall
  cases hret
  refine ⟨entered, opInfo, w2, w3, as1, as3, as5, t2, t4, t6 ++ [.sstore w1 (d.leave w1)], hentered,
    validatePrepayment_simulated hself hcreate heip712 hvalidation, hexecution, rfl, ?_, ?_, ?_⟩
  . unfold Targeted
    dsimp only
    split at htarget
    . next hzero =>
      obtain ⟨rfl, rfl⟩ := htarget
      rw [if_pos hzero]
      exact ⟨rfl, rfl, rfl⟩
    . next hne =>
      obtain ⟨ret, body, rfl, hresult⟩ := htarget
      rw [if_neg hne]
      exact ⟨ret, w1, body, rfl, hresult⟩
  . rw [List.append_nil]
  . simp

/-- Told what a simulation of an operation has been told, and then what becomes of the payment, a bundle
of the operation gets through exactly if the validation data that the simulation has returned are
approved, there is a beneficiary, and it accepts what the simulation says that the operation pays. It
does the same as the simulation on the way. -/
theorem simulation_predicts_execution (hself : sim.self = d.entryPoint)
    (hcreate : createdObj d.cfg.keccak256 d.entryPoint = d.cfg.senderCreator)
    (heip712 : d.cfg.UsesEIP712 chainid d.entryPoint)
    (h : d.Replays sim (simulateHandleOp d.cfg chainid st sim op target targetCallData) w as result w' t)
    : ∃ during after guard validation execution rest w1,
        as = during ++ after ∧ Targeted target result after
        ∧ t = guard :: (validation ++ (execution ++ rest))
        ∧ ∀ msg beneficiary told ret w2 t2, msg.self = sim.self → msg.env = sim.env →
          (d.Replays msg (handleOps d.cfg msg [op] beneficiary) w (during ++ told) ret w2 t2
            ↔ (Approves msg.env.timestamp result.accountValidationData
                ∧ Approves msg.env.timestamp result.paymasterValidationData)
              ∧ beneficiary ≠ 0 ∧ ret = default
              ∧ ∃ data w3 body, told = [.call true data w3 body] ∧ w2 = d.leave w3
                ∧ t2 = guard :: (validation ++ .log .beforeExecution :: execution
                  ++ [.sstore w1 (pay result.paid w1),
                    .call ⟨beneficiary, msg.self, result.paid, .bytes [], msg.env⟩ (pay result.paid w1) w3
                      true data body,
                    .sstore w3 w2])) := by
  obtain ⟨entered, opInfo, w1, w2, as1, as2, as3, validation, execution, rest, hentered, hvalidation,
    hexecution, _, htarget, rfl, rfl⟩ := simulateHandleOp_replays hself hcreate heip712 h
  refine ⟨as1 ++ as2, as3, .sstore w (w.map (enter entered)), validation, execution, rest, w2,
    (List.append_assoc _ _ _).symm, htarget, rfl, ?_⟩
  intro msg beneficiary told ret w3 t2 hmsg henv
  have hprefund : opInfo.prefund < Yul.wordSize :=
    Evm.Replays.yields (validatePrepayment_yields.zoom) hvalidation
  have hpaid : result.paid < Yul.wordSize :=
    Evm.Replays.yields ((executeUserOp_yields hprefund).zoom) hexecution
  have hamount : Yul.add 0 result.paid = result.paid := by
    rw [Yul.add_eq (by omega)]
    exact Nat.zero_add _
  have hvalidation' : d.Replays msg (EntryPoint.validatePrepayment d.cfg 0 op default) (w.map (enter entered))
      as1 (opInfo, result.accountValidationData, result.paymasterValidationData) w1 validation :=
    Evm.Replays.of_frame hmsg henv (keepsGuard_own (KeepsGuard.validatePrepayment _ _ _ _)) hvalidation
  have hexecution' : d.Replays msg (executeUserOp msg 0 op opInfo) w1 as2 result.paid w2 execution := by
    rw [executeUserOp_frame hmsg henv]
    exact Evm.Replays.of_frame hmsg henv (keepsGuard_own (KeepsGuard.executeUserOp _ _ _ _)) hexecution
  rw [handleOps_single]
  rw [replays_nonReentrant]
  rw [List.append_assoc]
  constructor
  . rintro ⟨entered', w4, t3, hentered', hbody, rfl, rfl⟩
    rw [hentered] at hentered'
    cases hentered'
    obtain ⟨happroves, rfl, payment, hpayment, rfl⟩ :=
      (replays_handleOp hvalidation' hexecution').mp hbody
    rw [hamount] at hpayment
    obtain ⟨hbeneficiary, data, body, rfl, rfl⟩ := replays_compensate.mp hpayment
    refine ⟨happroves, hbeneficiary, rfl, data, w4, body, rfl, rfl, ?_⟩
    simp
  . rintro ⟨happroves, hbeneficiary, rfl, data, w4, body, rfl, rfl, rfl⟩
    have hpayment : d.Replays msg (compensate beneficiary result.paid) w2 [.call true data w4 body] () w4 _ :=
      replays_compensate.mpr ⟨hbeneficiary, data, body, rfl, rfl⟩
    rw [← hamount] at hpayment
    have hbody := (replays_handleOp hvalidation' hexecution').mpr ⟨happroves, rfl, _, hpayment, rfl⟩
    rw [hamount] at hbody
    refine ⟨entered, w4, _, hentered, hbody, rfl, ?_⟩
    simp

end

theorem simulation_predicts_execution_simulatedOp
    : ∃ as result w' t during told ret w2 t2,
        simulated.Replays simulationFrame
          (simulateHandleOp simulated.cfg 31337 ⟨0, 0⟩ simulationFrame simulatedOp 5 [7]) simulatedWorld as
            result w' t
        ∧ during <+: as
        ∧ simulated.Replays simulationFrame (handleOps simulated.cfg simulationFrame [simulatedOp] 5)
          simulatedWorld (during ++ told) ret w2 t2 := by
  have hrun : (run simulated.system (invoke simulated.system 4) simulationFrame
      ((simulateHandleOp simulated.cfg 31337 ⟨0, 0⟩ simulationFrame simulatedOp 5 [7]).zoom
        Chain.entryPointPart.get Chain.entryPointPart.set) ⟨simulatedWorld, 1000000, 0⟩).outcome.toOption.map
          (fun result => (result.accountValidationData, result.paymasterValidationData)) = some (0, 0) := by
    decide +kernel
  obtain ⟨result, houtcome, hdata⟩ := Option.map_eq_some_iff.mp hrun
  have hreturns {outcome : Except ReturnData ExecutionResult} (h : outcome.toOption = some result)
      : outcome.isOk = true := by
    cases outcome with
    | error data => cases h
    | ok result => rfl
  obtain ⟨result', s', t, h⟩ := exists_returns (hreturns houtcome)
  have hsame : result' = result := by
    unfold Evm.Returns at h
    rw [h] at houtcome
    exact Option.some.inj houtcome
  subst hsame
  have hreplays := replays_answers h
  have hcreate : createdObj simulated.cfg.keccak256 simulated.entryPoint = simulated.cfg.senderCreator := by
    decide +kernel
  have heip712 : simulated.cfg.UsesEIP712 31337 simulated.entryPoint := openZeppelin_usesEIP712
  obtain ⟨during, after, guard, validation, execution, rest, w1, has, _, _, hbundle⟩ :=
    simulation_predicts_execution rfl hcreate heip712 hreplays
  obtain ⟨hv, hpv⟩ := Prod.mk.inj hdata
  have happroves : Approves simulationFrame.env.timestamp 0 := by
    unfold Approves
    decide
  refine ⟨_, result', _, t, during, [.call true default simulatedWorld []], default, _, _, hreplays, ?_,
    (hbundle simulationFrame 5 _ _ _ _ rfl rfl).mpr ⟨?_, by decide, rfl, default, simulatedWorld, [], rfl,
      rfl, rfl⟩⟩
  . rw [has]
    apply List.prefix_append
  . rw [hv]
    rw [hpv]
    exact ⟨happroves, happroves⟩

end Deployment
