import FalconSmartAccount.EntryPoint.Aggregated

/-!
The contract `EntryPointSimulations`, which a bundler runs in place of the entry point to learn whether an
operation is valid, and what the entry point then makes of the operation.
-/

open Evm

namespace EntryPointSimulations

open EntryPoint (Code Config lift failUnless require validatePaymasterPrepaymentWith validatePrepaymentWith)

structure StakeInfo where
  stake : Nat
  unstakeDelaySec : Nat

structure ReturnInfo where
  preOpGas : Nat
  prefund : Nat
  accountValidationData : Nat
  paymasterValidationData : Nat
  paymasterContext : Bytes

structure AggregatorStakeInfo where
  aggregator : Address
  stakeInfo : StakeInfo

structure ValidationResult where
  returnInfo : ReturnInfo
  senderInfo : StakeInfo
  factoryInfo : StakeInfo
  paymasterInfo : StakeInfo
  aggregatorInfo : AggregatorStakeInfo

def SIG_VALIDATION_FAILED : Address := 1

def SIG_VALIDATION_SUCCESS : Address := 0

/-- The first contract that `this` creates. -/
def createdObj (keccak256 : Bytes → Word) (this : Address) : Address :=
  (keccak256 ([0xd6, 0x94] ++ Abi.uintBytes 20 this.toNat ++ [0x01])).setWidth 160

def initSenderCreator (keccak256 : Bytes → Word) (chainid : Word) (this : Address) (s : Storage)
    : Storage :=
  initDomainSeparator keccak256 chainid this { s with senderCreator := createdObj keccak256 this }

/-- Slightly less than what the entry point allows. -/
def getVerificationGasLimit (verificationGasLimit : Nat) : Checked Nat :=
  Solidity.sub verificationGasLimit 300

def getStakeInfo (addr : Address) : Code StakeInfo := do
  let s ← Prog.sload
  let depositInfo := s.deposits addr
  return ⟨depositInfo.stake, depositInfo.unstakeDelaySec⟩

/-- The second half of a check for code, if the first half holds. -/
def lacksCode (asked : Bool) (account : Address) : Code Bool :=
  if asked then do
    let length ← Prog.codeLength account
    return length == 0
  else
    pure false

/-- What `_validateSenderAndPaymaster` reverts with. It always does. -/
def validateSenderAndPaymaster (initCode : Bytes) (sender : Address) (paymasterAndData : Bytes)
    : Code String := do
  if ← lacksCode (initCode.length == 0) sender then
    return "AA20 account not deployed"
  else if ← lacksCode (paymasterAndData.length ≥ 20) (Abi.addressAt paymasterAndData 0) then
    return "AA30 paymaster not deployed"
  else
    return ""

/-- After `initSenderCreator`. The call of the contract by itself is replaced by what it does. -/
def simulationOnlyValidations (userOp : PackedUserOperation) : Code Unit := do
  let revertReason ← validateSenderAndPaymaster userOp.initCode userOp.sender userOp.paymasterAndData
  failUnless (revertReason.length == 0) 0 revertReason

/-! ## Inherited functions -/

def validatePaymasterPrepayment (opIndex : Nat) (op : PackedUserOperation) (opInfo : UserOpInfo)
    (requiredPreFund : Nat) : Code (Bytes × Nat) :=
  validatePaymasterPrepaymentWith getVerificationGasLimit opIndex op opInfo requiredPreFund

def validatePrepayment (cfg : Config) (opIndex : Nat) (userOp : PackedUserOperation)
    (outOpInfo : UserOpInfo) : Code (UserOpInfo × Nat × Nat) :=
  validatePrepaymentWith cfg getVerificationGasLimit opIndex userOp outOpInfo

/-! ## Simulation -/

/-- `st` are the two slots that the entry point does not have. -/
def simulateValidation (cfg : Config) (chainid : Word) (st : Storage) (msg : Frame Message)
    (userOp : PackedUserOperation) : Code ValidationResult := do
  let st := initSenderCreator cfg.keccak256 chainid msg.self st
  simulationOnlyValidations userOp
  let (outOpInfo, validationData, paymasterValidationData) ←
    validatePrepayment (config cfg st) 0 userOp default
  let paymasterInfo ← getStakeInfo outOpInfo.mUserOp.paymaster
  let senderInfo ← getStakeInfo outOpInfo.mUserOp.sender
  let factory := if userOp.initCode.length ≥ 20 then Abi.addressAt userOp.initCode 0 else 0
  let factoryInfo ← getStakeInfo factory
  let aggregator : Address := BitVec.ofNat 160 validationData
  let returnInfo : ReturnInfo := ⟨outOpInfo.preOpGas, outOpInfo.prefund, validationData,
    paymasterValidationData, outOpInfo.context⟩
  let aggregatorInfo ← (
    if aggregator ≠ SIG_VALIDATION_SUCCESS ∧ aggregator ≠ SIG_VALIDATION_FAILED then do
      let info ← getStakeInfo aggregator
      return ⟨aggregator, info⟩
    else
      pure ⟨0, 0, 0⟩)
  return ⟨returnInfo, senderInfo, factoryInfo, paymasterInfo, aggregatorInfo⟩

/-! ## The simulation is stricter -/

section

variable {quiet : Log → Bool} {limit : Nat → Checked Nat} {cfg : Config} {opIndex : Nat}
  {op : PackedUserOperation}

/-- The check against the stricter limit. -/
theorem verificationGasLimit_matches {α : Type} (hlimit : ∀ n m, limit n = .ok m → m ≤ n)
    {used allowed : Nat} {reason : String} {p q : Code α} (h : Matches quiet True p q)
    : Matches quiet True
        (lift (limit allowed) >>= fun limit => failUnless (used ≤ limit) opIndex reason >>= fun _ => p)
        (lift (EntryPoint.getVerificationGasLimit allowed) >>= fun limit =>
          failUnless (used ≤ limit) opIndex reason >>= fun _ => q) := by
  cases hl : limit allowed with
  | error e => exact .stops trivial
  | ok n =>
    change Matches quiet True (failUnless (used ≤ n) opIndex reason >>= fun _ => p)
      (failUnless (used ≤ allowed) opIndex reason >>= fun _ => q)
    refine .bind (.require (fun hused => ?_) (.inl trivial)) fun _ => h
    have hle := hlimit _ _ hl
    simp only [decide_eq_true_eq] at hused ⊢
    omega

theorem validatePaymasterPrepayment_matches (hlimit : ∀ n m, limit n = .ok m → m ≤ n)
    {opInfo : UserOpInfo} {requiredPreFund : Nat}
    : Matches quiet True (validatePaymasterPrepaymentWith limit opIndex op opInfo requiredPreFund)
        (EntryPoint.validatePaymasterPrepayment opIndex op opInfo requiredPreFund) := by
  unfold EntryPoint.validatePaymasterPrepayment validatePaymasterPrepaymentWith
  apply Matches.bind (.refl _)
  intro preGas
  apply Matches.bind (.refl _)
  intro deposit
  apply Matches.bind (.refl _)
  intro _
  apply Matches.bind (.refl _)
  intro _
  apply Matches.bind (.refl _)
  intro r
  apply Matches.bind (.refl _)
  intro _
  apply Matches.bind (.refl _)
  intro r
  apply Matches.bind (.refl _)
  intro gas
  exact verificationGasLimit_matches hlimit (.refl _)

theorem validatePrepayment_matches (hlimit : ∀ n m, limit n = .ok m → m ≤ n) {outOpInfo : UserOpInfo}
    : Matches quiet True (validatePrepaymentWith cfg limit opIndex op outOpInfo)
        (EntryPoint.validatePrepayment cfg opIndex op outOpInfo) := by
  unfold EntryPoint.validatePrepayment validatePrepaymentWith
  apply Matches.bind (.refl _)
  intro preGas
  apply Matches.bind (.refl _)
  intro mUserOp
  apply Matches.bind (.refl _)
  intro _
  apply Matches.bind (.refl _)
  intro validationData
  apply Matches.bind (.refl _)
  intro accepted
  apply Matches.bind (.refl _)
  intro _
  apply Matches.bind (.refl _)
  intro gas
  apply verificationGasLimit_matches hlimit
  apply Matches.bind
  . split
    . exact .refl _
    . exact validatePaymasterPrepayment_matches hlimit
  . exact fun _ => .refl _

theorem getVerificationGasLimit_le (n m : Nat) (h : getVerificationGasLimit n = .ok m) : m ≤ n := by
  unfold getVerificationGasLimit Solidity.sub at h
  split at h
  . have heq := Except.ok.inj h
    omega
  . cases h

end

theorem getStakeInfo_looks (addr : Address) : Looks (getStakeInfo addr) :=
  .sload fun _ => .ret

theorem lacksCode_looks (asked : Bool) (account : Address) : Looks (lacksCode asked account) := by
  unfold lacksCode
  split
  . exact .codeLength fun _ => .ret
  . exact .ret

theorem simulationOnlyValidations_looks (userOp : PackedUserOperation)
    : Looks (simulationOnlyValidations userOp) := by
  unfold simulationOnlyValidations validateSenderAndPaymaster
  apply Looks.bind
  . apply Looks.bind (lacksCode_looks _ _)
    intro missing
    split
    . exact .ret
    . apply Looks.bind (lacksCode_looks _ _)
      intro missing
      split
      . exact .ret
      . exact .ret
  . intro revertReason
    unfold failUnless Prog.require
    split
    . exact .ret
    . exact .revert

/-- With the standard formulas the overridden getters return what the originals do. -/
theorem config_eq {cfg : Config} {chainid : Word} {this : Address}
    (hcreate : createdObj cfg.keccak256 this = cfg.senderCreator) (heip712 : cfg.UsesEIP712 chainid this)
    (st : Storage)
    : config cfg (initSenderCreator cfg.keccak256 chainid this st) = cfg := by
  have hsenderCreator : (initSenderCreator cfg.keccak256 chainid this st).senderCreator = cfg.senderCreator :=
    hcreate
  have hdomainSeparatorV4 : (initSenderCreator cfg.keccak256 chainid this st).domainSeparatorV4
      = cfg.domainSeparatorV4 :=
    EntryPoint.initDomainSeparator_eq heip712 { st with senderCreator := createdObj cfg.keccak256 this }
  unfold config
  rw [hsenderCreator, hdomainSeparatorV4]

end EntryPointSimulations

/-! ## The guard of `handleOps` -/

namespace EntryPoint

/-- The reentrancy guard is set to `entered`. -/
def Storage.enter (entered : Bool) (s : Storage) : Storage := { s with entered := entered }

section

variable {entered : Bool} {cfg : Config} {opIndex : Nat} {op : PackedUserOperation}

theorem codeLength_carries {α : Type} {a : Address} {f g : Nat → Code α}
    (h : ∀ n, Carries (Storage.enter entered) (f n) (g n))
    : Carries (Storage.enter entered) (Prog.codeLength a >>= f) (Prog.codeLength a >>= g) :=
  .op trivial h

theorem call_carries {α : Type} {c : Call Message} {f g : Bool × ReturnData → Code α}
    (h : ∀ r, Carries (Storage.enter entered) (f r) (g r))
    : Carries (Storage.enter entered) (Prog.call c >>= f) (Prog.call c >>= g) :=
  .op trivial h

theorem gasleft_carries {α : Type} {f g : Nat → Code α}
    (h : ∀ n, Carries (Storage.enter entered) (f n) (g n))
    : Carries (Storage.enter entered) (Prog.gasleft >>= f) (Prog.gasleft >>= g) :=
  .op trivial h

theorem require_carries {α : Type} {c : Bool} {data : ReturnData} {f g : Unit → Code α}
    (h : Carries (Storage.enter entered) (f ()) (g ()))
    : Carries (Storage.enter entered) (Prog.require c data >>= f) (Prog.require c data >>= g) :=
  .bind .require fun _ => h

theorem lift_carries {α β : Type} {c : Checked β} {f g : β → Code α}
    (h : ∀ b, Carries (Storage.enter entered) (f b) (g b))
    : Carries (Storage.enter entered) (lift c >>= f) (lift c >>= g) := by
  cases c with
  | ok b => exact h b
  | error e => exact .revert

theorem getOrRevert_carries {α β : Type} {data : ReturnData} {o : Option β} {f g : β → Code α}
    (h : ∀ b, Carries (Storage.enter entered) (f b) (g b))
    : Carries (Storage.enter entered) (getOrRevert data o >>= f) (getOrRevert data o >>= g) := by
  cases o with
  | some b => exact h b
  | none => exact .revert

theorem balanceOf_carries {α : Type} {account : Address} {f g : Nat → Code α}
    (h : ∀ n, Carries (Storage.enter entered) (f n) (g n))
    : Carries (Storage.enter entered) (balanceOf account >>= f) (balanceOf account >>= g) :=
  .sload fun _ => h _

theorem createSenderIfNeeded_carries {opInfo : UserOpInfo} {initCode : Bytes}
    : Carries (Storage.enter entered) (createSenderIfNeeded cfg opIndex opInfo initCode)
        (createSenderIfNeeded cfg opIndex opInfo initCode) := by
  unfold createSenderIfNeeded
  split
  . exact .ret
  . apply codeLength_carries
    intro length
    apply require_carries
    apply call_carries
    intro r
    apply require_carries
    apply getOrRevert_carries
    intro sender1
    apply require_carries
    apply require_carries
    apply codeLength_carries
    intro length
    apply require_carries
    exact .op trivial fun _ => .ret

theorem missingAccountFunds_carries {mUserOp : MemoryUserOp} {requiredPrefund : Nat}
    : Carries (Storage.enter entered) (missingAccountFunds mUserOp requiredPrefund)
        (missingAccountFunds mUserOp requiredPrefund) := by
  unfold missingAccountFunds
  split
  . exact balanceOf_carries fun _ => .ret
  . exact .ret

theorem deductAccountPrefund_carries {mUserOp : MemoryUserOp} {requiredPrefund : Nat}
    : Carries (Storage.enter entered) (deductAccountPrefund opIndex mUserOp requiredPrefund)
        (deductAccountPrefund opIndex mUserOp requiredPrefund) := by
  unfold deductAccountPrefund
  split
  . apply balanceOf_carries
    intro deposit
    apply require_carries
    exact .sstore (fun _ => rfl) .ret
  . exact .ret

theorem validateAccountPrepayment_carries {opInfo : UserOpInfo} {requiredPrefund limit : Nat}
    : Carries (Storage.enter entered)
        (validateAccountPrepayment cfg opIndex op opInfo requiredPrefund limit)
        (validateAccountPrepayment cfg opIndex op opInfo requiredPrefund limit) := by
  unfold validateAccountPrepayment
  apply createSenderIfNeeded_carries.bind
  intro _
  apply missingAccountFunds_carries.bind
  intro missing
  apply call_carries
  intro r
  apply require_carries
  apply getOrRevert_carries
  intro validationData
  exact deductAccountPrefund_carries.bind fun _ => .ret

theorem validateAndUpdateNonce_carries {sender : Address} {nonce : Word}
    : Carries (Storage.enter entered) (validateAndUpdateNonce sender nonce)
        (validateAndUpdateNonce sender nonce) := by
  apply Carries.sload
  intro s
  apply lift_carries
  intro next
  exact .sstore (fun _ => rfl) .ret

theorem validatePaymasterPrepayment_carries {opInfo : UserOpInfo} {requiredPreFund : Nat}
    : Carries (Storage.enter entered) (validatePaymasterPrepayment opIndex op opInfo requiredPreFund)
        (validatePaymasterPrepayment opIndex op opInfo requiredPreFund) := by
  unfold validatePaymasterPrepayment validatePaymasterPrepaymentWith
  apply gasleft_carries
  intro preGas
  apply balanceOf_carries
  intro deposit
  apply require_carries
  refine .sstore (fun _ => rfl) ?_
  apply call_carries
  intro r
  apply require_carries
  apply getOrRevert_carries
  intro r
  apply gasleft_carries
  intro gas
  apply lift_carries
  intro limit
  exact require_carries .ret

/-- Validation does not look at the guard. -/
theorem validatePrepayment_carries {outOpInfo : UserOpInfo}
    : Carries (Storage.enter entered) (validatePrepayment cfg opIndex op outOpInfo)
        (validatePrepayment cfg opIndex op outOpInfo) := by
  unfold validatePrepayment validatePrepaymentWith
  apply gasleft_carries
  intro preGas
  apply getOrRevert_carries
  intro mUserOp
  apply require_carries
  apply validateAccountPrepayment_carries.bind
  intro validationData
  apply validateAndUpdateNonce_carries.bind
  intro accepted
  apply require_carries
  apply gasleft_carries
  intro gas
  apply lift_carries
  intro limit
  apply require_carries
  apply Carries.bind
  . split
    . exact .ret
    . exact validatePaymasterPrepayment_carries
  . intro r
    exact gasleft_carries fun _ => .ret

end

/-! ## Getting past validation -/

/-- The validation data names no aggregator, and the time is in its range if it gives one. -/
def Approves (timestamp validationData : Nat) : Prop :=
  (parseValidationData validationData).aggregator = 0
    ∧ (validationData = 0
      ∨ (parseValidationData validationData).validAfter ≤ timestamp
        ∧ timestamp ≤ (parseValidationData validationData).validUntil)

theorem approves_iff (timestamp validationData : Nat)
    : Approves timestamp validationData
        ↔ (getValidationData timestamp validationData).1 = 0
          ∧ (getValidationData timestamp validationData).2 = false := by
  unfold Approves getValidationData
  by_cases hzero : validationData = 0
  . subst hzero
    simp [parseValidationData]
  . rw [if_neg hzero]
    simp only [hzero, false_or, decide_eq_false_iff_not, not_or, Nat.not_lt]
    rw [and_comm (a := timestamp ≤ _)]

/-- Whether both validation data are approved decides how the check of them ends. -/
theorem validateAccountAndPaymasterValidationData_eq (msg : Frame Message)
    (opIndex validationData paymasterValidationData : Nat)
    : (Approves msg.env.timestamp validationData ∧ Approves msg.env.timestamp paymasterValidationData
        ∧ validateAccountAndPaymasterValidationData msg opIndex validationData paymasterValidationData 0
            = pure ())
      ∨ (¬(Approves msg.env.timestamp validationData ∧ Approves msg.env.timestamp paymasterValidationData)
        ∧ ∃ data, validateAccountAndPaymasterValidationData msg opIndex validationData
            paymasterValidationData 0 = .revert data) := by
  rw [approves_iff, approves_iff]
  unfold validateAccountAndPaymasterValidationData
  rcases getValidationData msg.env.timestamp validationData with ⟨aggregator, outOfTimeRange⟩
  rcases getValidationData msg.env.timestamp paymasterValidationData with ⟨pmAggregator, pmOutOfTimeRange⟩
  dsimp only
  by_cases haggregator : aggregator = 0
  . subst haggregator
    cases outOfTimeRange with
    | true => exact .inr ⟨by simp, _, rfl⟩
    | false =>
      by_cases hpmAggregator : pmAggregator = 0
      . subst hpmAggregator
        cases pmOutOfTimeRange with
        | true => exact .inr ⟨by simp, _, rfl⟩
        | false => exact .inl ⟨⟨rfl, rfl⟩, ⟨rfl, rfl⟩, rfl⟩
      . refine .inr ⟨fun h => hpmAggregator h.2.1, .failedOp opIndex "AA34 signature error", ?_⟩
        have hne : (pmAggregator == 0) = false := beq_eq_false_iff_ne.mpr hpmAggregator
        rw [hne]
        rfl
  . refine .inr ⟨fun h => haggregator h.1.1, .failedOp opIndex "AA24 signature error", ?_⟩
    have hne : ((0 : Address) == aggregator) = false := beq_eq_false_iff_ne.mpr (Ne.symm haggregator)
    rw [hne]
    rfl

section

variable (cfg : Config) (msg : Frame Message) (ops : List PackedUserOperation)

/-- `handleOps` up to the end of the validation. -/
def handleOpsValidation : Code (List UserOpInfo) := do
  let s ← Prog.sload
  let entered ← decoded (cfg.nonReentrantBefore s.entered)
  Prog.sstore fun s => { s with entered := entered }
  validateOps cfg msg 0 0 0 ops (List.replicate ops.length default)

/-- `handleOps` after that. -/
def handleOpsExecution (beneficiary : Address) (opInfos : List UserOpInfo) : Code ReturnData := do
  Prog.emit .beforeExecution
  let collected ← executeOps msg (fun a b => .ok (Yul.add a b)) 0 ops opInfos 0
  compensate beneficiary collected
  Prog.sstore fun s => { s with entered := cfg.nonReentrantAfter s.entered }
  return default

theorem handleOps_validation (beneficiary : Address)
    : handleOps cfg msg ops beneficiary
        = handleOpsValidation cfg msg ops >>= handleOpsExecution cfg msg ops beneficiary := by
  unfold handleOps nonReentrant handleOpsValidation handleOpsExecution
  simp only [bind_assoc, pure_bind]

theorem validateOps_single (op : PackedUserOperation)
    : validateOps cfg msg 0 0 0 [op] [default]
        = validatePrepayment cfg 0 op default >>= fun r =>
            validateAccountAndPaymasterValidationData msg 0 r.2.1 r.2.2 0 >>= fun _ => pure [r.1] :=
  rfl

end

end EntryPoint

namespace Deployment

open EntryPoint EntryPointSimulations

variable {X : Type} {d : Deployment X} {msg sim : Frame Message} {w w' : World (Chain X)}
  {as : List (Answer (Chain X) Message ReturnData Log)} {t : Chain.Trace X} {op : PackedUserOperation}

/-- The reentrancy guard is set, in the storage of all contracts. -/
def enter (entered : Bool) (s : Chain X) : Chain X := { s with entryPoint := s.entryPoint.enter entered }

/-- A part of a run. -/
theorem Replays.bind {α β : Type} {p : EntryPoint.Code α} {f : α → EntryPoint.Code β} {b : β}
    (h : d.Replays msg (p >>= f) w as b w' t)
    : ∃ a w1 as1 as2 t1 t2, d.Replays msg p w as1 a w1 t1 ∧ d.Replays msg (f a) w1 as2 b w' t2
        ∧ as = as1 ++ as2 ∧ t = t1 ++ t2 := by
  unfold Replays at h
  rw [Prog.zoom_bind] at h
  exact Evm.Replays.bind h

theorem Replays.seq {α β : Type} {p : EntryPoint.Code α} {f : α → EntryPoint.Code β} {a : α} {b : β}
    {w1 : World (Chain X)} {as' : List (Answer (Chain X) Message ReturnData Log)} {t' : Chain.Trace X}
    (h : d.Replays msg p w as a w1 t) (h' : d.Replays msg (f a) w1 as' b w' t')
    : d.Replays msg (p >>= f) w (as ++ as') b w' (t ++ t') := by
  unfold Replays
  rw [Prog.zoom_bind]
  exact Evm.Replays.seq h h'

theorem Replays.looks {α β : Type} {p : EntryPoint.Code α} {f : α → EntryPoint.Code β} {b : β}
    (hp : Looks p) (h : d.Replays msg (p >>= f) w as b w' t)
    : ∃ a, d.Replays msg (f a) w as b w' t := by
  obtain ⟨a, w1, as1, as2, t1, t2, h1, h2, rfl, rfl⟩ := h.bind
  obtain ⟨rfl, rfl, rfl⟩ := hp.replays h1
  exact ⟨a, h2⟩

/-- What a simulation that returns has validated. -/
theorem simulateValidation_replays {chainid : Word} {st : EntryPointSimulations.Storage}
    {result : ValidationResult}
    (h : d.Replays sim (simulateValidation d.cfg chainid st sim op) w as result w' t)
    : ∃ opInfo, d.Replays sim (EntryPointSimulations.validatePrepayment
          (config d.cfg (initSenderCreator d.cfg.keccak256 chainid sim.self st)) 0 op default) w as
        (opInfo, result.returnInfo.accountValidationData, result.returnInfo.paymasterValidationData) w' t
      ∧ opInfo.preOpGas = result.returnInfo.preOpGas ∧ opInfo.prefund = result.returnInfo.prefund
      ∧ opInfo.context = result.returnInfo.paymasterContext := by
  obtain ⟨_, h⟩ := h.looks (simulationOnlyValidations_looks op)
  obtain ⟨⟨opInfo, v, pv⟩, w1, as1, as2, t1, t2, h1, h2, rfl, rfl⟩ := h.bind
  -- what is left only reads stakes
  have hrest : as2 = [] ∧ w' = w1 ∧ t2 = [] ∧ result.returnInfo
      = ⟨opInfo.preOpGas, opInfo.prefund, v, pv, opInfo.context⟩ := by
    dsimp only at h2
    obtain ⟨paymasterInfo, h2⟩ := h2.looks (getStakeInfo_looks _)
    obtain ⟨senderInfo, h2⟩ := h2.looks (getStakeInfo_looks _)
    obtain ⟨factoryInfo, h2⟩ := h2.looks (getStakeInfo_looks _)
    obtain ⟨aggregatorInfo, h2⟩ := h2.looks (by
      split
      . exact .bind (getStakeInfo_looks _) fun _ => .ret
      . exact .ret)
    cases h2
    exact ⟨rfl, rfl, rfl, rfl⟩
  obtain ⟨rfl, rfl, rfl, hresult⟩ := hrest
  rw [List.append_nil, List.append_nil, hresult]
  exact ⟨opInfo, h1, rfl, rfl, rfl⟩

/-- A run of `_validatePrepayment` in a world where the guard of `handleOps` is set. -/
theorem validatePrepayment_enter (msg : Frame Message) {outOpInfo : UserOpInfo} {r : UserOpInfo × Nat × Nat}
    (h : d.Replays sim (EntryPoint.validatePrepayment d.cfg 0 op outOpInfo) w as r w' t) (entered : Bool)
    : ∃ t', d.Replays msg (EntryPoint.validatePrepayment d.cfg 0 op outOpInfo) (w.map (enter entered))
        (as.map (Answer.map (enter entered))) r (w'.map (enter entered)) t' := by
  have hcarries : Carries (Storage.enter entered) (EntryPoint.validatePrepayment d.cfg 0 op outOpInfo) _ :=
    validatePrepayment_carries
  have hzoom : Carries (enter (X := X) entered) _ _ :=
    hcarries.zoom Chain.entryPointPart (fun _ => rfl) fun _ _ => rfl
  exact hzoom.replays (fun _ _ => rfl) h

/-- With these answers, `handleOps` gets past the validation of `ops`. -/
def PassesValidation (d : Deployment X) (msg : Frame Message) (ops : List PackedUserOperation)
    (w : World (Chain X)) (as : List (Answer (Chain X) Message ReturnData Log)) : Prop :=
  ∃ opInfos w' t, d.Replays msg (handleOpsValidation d.cfg msg ops) w as opInfos w' t

theorem passesValidation_single {entered : Bool}
    (hentered : d.cfg.nonReentrantBefore w.storage.entryPoint.entered = some entered)
    : d.PassesValidation msg [op] w as
        ↔ ∃ opInfos w' t, d.Replays msg (validateOps d.cfg msg 0 0 0 [op] [default]) (w.map (enter entered))
            as opInfos w' t := by
  have hdecoded : (decoded (d.cfg.nonReentrantBefore (Chain.entryPointPart.get w.storage).entered)
      : EntryPoint.Code Bool) = pure entered :=
    congrArg decoded hentered
  unfold PassesValidation handleOpsValidation Replays
  constructor
  . rintro ⟨opInfos, w', t, h⟩
    have h := Evm.Replays.bind_sload.mp h
    rw [hdecoded, pure_bind] at h
    obtain ⟨t', _, h⟩ := Evm.Replays.bind_sstore.mp h
    exact ⟨opInfos, w', t', h⟩
  . rintro ⟨opInfos, w', t, h⟩
    refine ⟨opInfos, w', .sstore w (w.write Chain.entryPointPart (Storage.enter entered)) :: t, ?_⟩
    apply Evm.Replays.bind_sload.mpr
    rw [hdecoded, pure_bind]
    exact Evm.Replays.bind_sstore.mpr ⟨t, rfl, h⟩

/-- A simulation that returns predicts `_validatePrepayment`, and so whether `handleOps` gets past
validation, when the same calls have the same results. -/
theorem simulation_predicts_validation {chainid : Word} {st : EntryPointSimulations.Storage}
    {result : ValidationResult} (hself : sim.self = d.entryPoint)
    (hcreate : createdObj d.cfg.keccak256 d.entryPoint = d.cfg.senderCreator)
    (heip712 : d.cfg.UsesEIP712 chainid d.entryPoint)
    (h : d.Replays sim (simulateValidation d.cfg chainid st sim op) w as result w' t)
    : (∃ opInfo, d.Replays sim (EntryPoint.validatePrepayment d.cfg 0 op default) w as
          (opInfo, result.returnInfo.accountValidationData, result.returnInfo.paymasterValidationData) w' t
        ∧ opInfo.preOpGas = result.returnInfo.preOpGas ∧ opInfo.prefund = result.returnInfo.prefund
        ∧ opInfo.context = result.returnInfo.paymasterContext)
      ∧ ∀ msg entered, d.cfg.nonReentrantBefore w.storage.entryPoint.entered = some entered →
        (d.PassesValidation msg [op] w (as.map (Answer.map (enter entered)))
          ↔ Approves msg.env.timestamp result.returnInfo.accountValidationData
            ∧ Approves msg.env.timestamp result.returnInfo.paymasterValidationData) := by
  obtain ⟨opInfo, hsim, hinfo⟩ := simulateValidation_replays h
  rw [hself, config_eq hcreate heip712] at hsim
  have hreal : d.Replays sim (EntryPoint.validatePrepayment d.cfg 0 op default) w as
      (opInfo, result.returnInfo.accountValidationData, result.returnInfo.paymasterValidationData) w' t := by
    -- the simulation only differs in a smaller verification gas limit
    have hmatches : Matches (fun _ => false) True _ (EntryPoint.validatePrepayment d.cfg 0 op default) :=
      validatePrepayment_matches getVerificationGasLimit_le
    obtain ⟨t', hreal, ht⟩ := (hmatches.zoom Chain.entryPointPart).replays hsim
    have hloud (t : Chain.Trace X) : loud (fun _ => false) t = t := by
      apply List.filter_eq_self.mpr
      intro e _
      cases e <;> rfl
    rw [hloud, hloud] at ht
    rw [ht] at hreal
    exact hreal
  refine ⟨⟨opInfo, hreal, hinfo⟩, ?_⟩
  intro msg entered hentered
  obtain ⟨t', hreal'⟩ := validatePrepayment_enter msg hreal entered
  rw [passesValidation_single hentered]
  constructor
  . rintro ⟨opInfos, w1, t1, hops⟩
    rw [validateOps_single] at hops
    obtain ⟨r, w2, as1, as2, t2, t3, h2, h3, has, _⟩ := hops.bind
    obtain ⟨rfl, rfl, rfl⟩ := Evm.Replays.unique h2 hreal' ⟨as2, has.symm⟩
    obtain ⟨_, w3, as3, as4, t4, t5, h4, _, _, _⟩ := h3.bind
    dsimp only at h4
    rcases validateAccountAndPaymasterValidationData_eq msg 0 result.returnInfo.accountValidationData
      result.returnInfo.paymasterValidationData with ⟨hv, hpv, _⟩ | ⟨_, data, hrevert⟩
    . exact ⟨hv, hpv⟩
    . rw [hrevert] at h4
      cases h4
  . intro happroves
    rcases validateAccountAndPaymasterValidationData_eq msg 0 result.returnInfo.accountValidationData
      result.returnInfo.paymasterValidationData with ⟨_, _, hpure⟩ | ⟨hnot, _⟩
    . have hcheck : d.Replays msg (validateAccountAndPaymasterValidationData msg 0
          result.returnInfo.accountValidationData result.returnInfo.paymasterValidationData 0 >>= fun _ =>
            pure [opInfo]) (w'.map (enter entered)) [] [opInfo] (w'.map (enter entered)) [] := by
        rw [hpure]
        exact .ret
      have hops := hreal'.seq (f := fun r => validateAccountAndPaymasterValidationData msg 0 r.2.1 r.2.2 0
        >>= fun _ => pure [r.1]) hcheck
      rw [List.append_nil, ← validateOps_single] at hops
      exact ⟨_, _, _, hops⟩
    . exact absurd happroves hnot

/-- The small deployment with the `SenderCreator` at the address of the first contract that the entry
point creates. -/
def simulated : Deployment Unit :=
  { sample with
    cfg := EntryPoint.openZeppelin 31337 1 (createdObj keccak256 1) fun _ => none
    entryPoint_ne := by decide +kernel }

/-- With the least verification gas that a simulation can allow. -/
def simulatedOp : PackedUserOperation :=
  { sampleOp 3 with accountGasLimits := BitVec.ofNat 256 (300 * 2 ^ 128) }

def simulatedWorld : World (Chain Unit) :=
  ⟨sampleLedger, ⟨genesis.setDeposit 3 1000, ()⟩⟩

def simulationFrame : Frame Message := ⟨1, 6, 0, .bytes [], freeEnv 2⟩

theorem simulation_predicts_validation_simulatedOp
    : ∃ as result w' t,
        simulated.Replays simulationFrame
          (simulateValidation simulated.cfg 31337 ⟨0, 0⟩ simulationFrame simulatedOp) simulatedWorld as result w' t
        ∧ (simulated.PassesValidation (bundleTx (.handleOps [simulatedOp] 5)).frame [simulatedOp] simulatedWorld
            (as.map (Answer.map (enter true)))
          ↔ Approves 2 result.returnInfo.accountValidationData
            ∧ Approves 2 result.returnInfo.paymasterValidationData) := by
  have hreturns : (run simulated.system (invoke simulated.system 4) simulationFrame
      ((simulateValidation simulated.cfg 31337 ⟨0, 0⟩ simulationFrame simulatedOp).zoom
        Chain.entryPointPart.get Chain.entryPointPart.set) ⟨simulatedWorld, 1000000, 0⟩).outcome.isOk = true := by
    decide +kernel
  obtain ⟨result, s', t, h⟩ := exists_returns hreturns
  have hreplays := replays_answers h
  have hcreate : createdObj simulated.cfg.keccak256 simulated.entryPoint = simulated.cfg.senderCreator := by
    decide +kernel
  have heip712 : simulated.cfg.UsesEIP712 31337 simulated.entryPoint := openZeppelin_usesEIP712
  obtain ⟨_, hpasses⟩ := simulation_predicts_validation rfl hcreate heip712 hreplays
  exact ⟨_, result, _, t, hreplays, hpasses (bundleTx (.handleOps [simulatedOp] 5)).frame true rfl⟩

end Deployment
