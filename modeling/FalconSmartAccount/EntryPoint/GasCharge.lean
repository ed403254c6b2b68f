import FalconSmartAccount.EntryPoint.Execution

/-!
The gas that an operation is charged for: the measured gas and the penalty for execution gas that it
asked for and did not use.
-/

open Evm

namespace EntryPoint

/-! ## The penalty -/

/-- An operation that has passed the range check, with the gas of its validation far from a full word. -/
structure InBounds (opInfo : UserOpInfo) : Prop where
  maxGasValues : maxGasValues opInfo.mUserOp ≤ 2 ^ 120 - 1
  prefund : opInfo.prefund = getRequiredPrefund opInfo.mUserOp
  preOpGas : opInfo.preOpGas < 2 ^ 255 + 2 ^ 120

/-- No part of the sum or the product comes near a word. -/
theorem requiredPrefund_bounds {mUserOp : MemoryUserOp} (h : maxGasValues mUserOp ≤ 2 ^ 120 - 1)
    : mUserOp.verificationGasLimit + mUserOp.callGasLimit + mUserOp.paymasterVerificationGasLimit
          + mUserOp.paymasterPostOpGasLimit + mUserOp.preVerificationGas < 2 ^ 123
        ∧ (mUserOp.verificationGasLimit + mUserOp.callGasLimit + mUserOp.paymasterVerificationGasLimit
          + mUserOp.paymasterPostOpGasLimit + mUserOp.preVerificationGas) * mUserOp.maxFeePerGas
            < Yul.wordSize := by
  obtain ⟨hpre, hverification, hcall, hpaymaster, hpostOp, hfee, _⟩ := le_of_maxGasValues_le h
  have hsum : mUserOp.verificationGasLimit + mUserOp.callGasLimit
      + mUserOp.paymasterVerificationGasLimit + mUserOp.paymasterPostOpGasLimit
      + mUserOp.preVerificationGas < 2 ^ 123 := by
    omega
  have hfee' : mUserOp.maxFeePerGas < 2 ^ 120 := by omega
  refine ⟨hsum, (Nat.mul_lt_mul'' hsum hfee').trans_le ?_⟩
  norm_num [Yul.wordSize]

theorem getRequiredPrefund_eq {mUserOp : MemoryUserOp} (h : maxGasValues mUserOp ≤ 2 ^ 120 - 1)
    : getRequiredPrefund mUserOp
        = (mUserOp.verificationGasLimit + mUserOp.callGasLimit + mUserOp.paymasterVerificationGasLimit
            + mUserOp.paymasterPostOpGasLimit + mUserOp.preVerificationGas) * mUserOp.maxFeePerGas := by
  obtain ⟨hsum, hmul⟩ := requiredPrefund_bounds h
  have hsize : Yul.wordSize = 2 ^ 256 := rfl
  have hlimits : Yul.add mUserOp.verificationGasLimit mUserOp.callGasLimit
      = mUserOp.verificationGasLimit + mUserOp.callGasLimit :=
    Yul.add_eq (by omega)
  have hpaymaster : Yul.add (mUserOp.verificationGasLimit + mUserOp.callGasLimit)
      mUserOp.paymasterVerificationGasLimit
        = mUserOp.verificationGasLimit + mUserOp.callGasLimit + mUserOp.paymasterVerificationGasLimit :=
    Yul.add_eq (by omega)
  unfold getRequiredPrefund
  dsimp only
  rw [hlimits, hpaymaster, Yul.add_eq (b := mUserOp.paymasterPostOpGasLimit) (by omega)]
  rw [Yul.add_eq (by omega)]
  exact Yul.mul_eq hmul

section

variable {opInfo : UserOpInfo} (h : InBounds opInfo)

include h

/-- The penalty applies between the gas of the validation and the end of the execution gas. Below, the
difference wraps to a number larger than any limit. -/
theorem addUnusedGasPenalty_eq {a : Nat} (ha : a < Yul.wordSize)
    : addUnusedGasPenalty opInfo a
        = if opInfo.preOpGas ≤ a ∧ a < opInfo.preOpGas
              + (opInfo.mUserOp.callGasLimit + opInfo.mUserOp.paymasterPostOpGasLimit) then
            a + (opInfo.preOpGas
              + (opInfo.mUserOp.callGasLimit + opInfo.mUserOp.paymasterPostOpGasLimit) - a) / 10
          else
            a := by
  obtain ⟨_, _, hcall, _, hpostOp, _⟩ := le_of_maxGasValues_le h.maxGasValues
  have hpreOpGas := h.preOpGas
  have hsize : Yul.wordSize = 2 ^ 256 := rfl
  unfold addUnusedGasPenalty PENALTY_PERCENT
  dsimp only
  rw [Yul.add_eq (a := opInfo.mUserOp.callGasLimit) (by omega)]
  have hlimit : opInfo.mUserOp.callGasLimit + opInfo.mUserOp.paymasterPostOpGasLimit < 2 ^ 121 := by
    omega
  generalize opInfo.mUserOp.callGasLimit + opInfo.mUserOp.paymasterPostOpGasLimit = limit at hlimit ⊢
  by_cases hle : opInfo.preOpGas ≤ a
  . rw [Yul.sub_eq hle ha]
    by_cases hlt : a - opInfo.preOpGas < limit
    . rw [if_pos hlt, if_pos ⟨hle, by omega⟩]
      rw [Yul.sub_eq hlt.le (by omega), Yul.mul_eq (by omega), Yul.add_eq (by omega)]
      omega
    . rw [if_neg hlt, if_neg (by omega)]
  . have hwrapped : Yul.sub a opInfo.preOpGas = a + Yul.wordSize - opInfo.preOpGas := by
      have hmod : opInfo.preOpGas % Yul.wordSize = opInfo.preOpGas := Nat.mod_eq_of_lt (by omega)
      unfold Yul.sub
      rw [hmod, Nat.mod_eq_of_lt (by omega)]
      omega
    rw [hwrapped, if_neg (by omega), if_neg (by omega)]

theorem le_addUnusedGasPenalty {a : Nat} (ha : a < Yul.wordSize) : a ≤ addUnusedGasPenalty opInfo a := by
  rw [addUnusedGasPenalty_eq h ha]
  split
  . exact Nat.le_add_right _ _
  . exact Nat.le_refl _

/-- One more unit of gas saves at most one unit of the penalty. -/
theorem addUnusedGasPenalty_mono {a b : Nat} (hle : a ≤ b) (hb : b < Yul.wordSize)
    : addUnusedGasPenalty opInfo a ≤ addUnusedGasPenalty opInfo b := by
  rw [addUnusedGasPenalty_eq h (Nat.lt_of_le_of_lt hle hb), addUnusedGasPenalty_eq h hb]
  split
  . split <;> omega
  . split <;> omega

/-- Within the execution gas, at most the whole of it is charged. -/
theorem addUnusedGasPenalty_le {a : Nat}
    (hle : a ≤ opInfo.preOpGas
      + (opInfo.mUserOp.callGasLimit + opInfo.mUserOp.paymasterPostOpGasLimit))
    : addUnusedGasPenalty opInfo a
        ≤ opInfo.preOpGas + (opInfo.mUserOp.callGasLimit + opInfo.mUserOp.paymasterPostOpGasLimit) := by
  obtain ⟨_, _, hcall, _, hpostOp, _⟩ := le_of_maxGasValues_le h.maxGasValues
  have hpreOpGas := h.preOpGas
  have hsize : Yul.wordSize = 2 ^ 256 := rfl
  rw [addUnusedGasPenalty_eq h (by omega)]
  split <;> omega

omit h in
theorem getUserOpGasPrice_le (basefee : Nat) (mUserOp : MemoryUserOp)
    : getUserOpGasPrice basefee mUserOp ≤ mUserOp.maxFeePerGas := by
  unfold getUserOpGasPrice
  split
  . exact Nat.le_refl _
  . exact Nat.min_le_left _ _

end

/-! ## The cost -/

/-- What `_postExecution` asks for the measured gas. -/
def actualGasCost (basefee : Nat) (opInfo : UserOpInfo) (actualGas : Nat) : Nat :=
  Yul.mul (addUnusedGasPenalty opInfo actualGas) (getUserOpGasPrice basefee opInfo.mUserOp)

/-- `preOpGas` stays within the limits that validation has. -/
def ValidationWithinLimits (opInfo : UserOpInfo) : Prop :=
  opInfo.preOpGas ≤ opInfo.mUserOp.preVerificationGas + opInfo.mUserOp.verificationGasLimit
    + opInfo.mUserOp.paymasterVerificationGasLimit

/-- The gas measured after `preOpGas` stays within the limits that execution has. -/
def ExecutionWithinLimits (opInfo : UserOpInfo) (actualGas : Nat) : Prop :=
  actualGas ≤ opInfo.preOpGas
    + (opInfo.mUserOp.callGasLimit + opInfo.mUserOp.paymasterPostOpGasLimit)

instance (opInfo : UserOpInfo) : Decidable (ValidationWithinLimits opInfo) :=
  inferInstanceAs (Decidable (_ ≤ _))

instance (opInfo : UserOpInfo) (actualGas : Nat) : Decidable (ExecutionWithinLimits opInfo actualGas) :=
  inferInstanceAs (Decidable (_ ≤ _))

theorem actualGasCost_le_prefund {opInfo : UserOpInfo} (h : InBounds opInfo)
    (hvalidation : ValidationWithinLimits opInfo) {actualGas : Nat}
    (hexecution : ExecutionWithinLimits opInfo actualGas) (basefee : Nat)
    : actualGasCost basefee opInfo actualGas ≤ opInfo.prefund := by
  have hcharged := addUnusedGasPenalty_le h hexecution
  have hprice := getUserOpGasPrice_le basefee opInfo.mUserOp
  rw [h.prefund, getRequiredPrefund_eq h.maxGasValues]
  apply (Nat.mod_le _ _).trans
  apply Nat.mul_le_mul
  . unfold ValidationWithinLimits at hvalidation
    omega
  . exact hprice

section

variable (msg : Frame Message)

/-- `_postExecution` up to the last measurement of gas. -/
def measureGas (mode : PostOpMode) (opInfo : UserOpInfo) (context : Bytes) (actualGas : Nat)
    : Code Nat := do
  let preGas ← Prog.gasleft
  let gasPrice := getUserOpGasPrice msg.env.basefee opInfo.mUserOp
  callPostOp mode opInfo.mUserOp context (Yul.mul actualGas gasPrice) gasPrice
  return Yul.add actualGas (Yul.sub preGas (← Prog.gasleft))

/-- The payer gets back what is left of the prefund. -/
def refund (mode : PostOpMode) (opInfo : UserOpInfo) (actualGas cost : Nat) : Code Nat := do
  let _ ← incrementDeposit opInfo.mUserOp.payer (opInfo.prefund - cost)
    (Books.settle opInfo.prefund cost)
  emitUserOperationEvent opInfo (mode == .opSucceeded) cost actualGas
  return cost

theorem postExecution_eq (mode : PostOpMode) (opInfo : UserOpInfo) (context : Bytes) (actualGas : Nat)
    : postExecution msg mode opInfo context actualGas
        = measureGas msg mode opInfo context actualGas >>= fun measured =>
            settle opInfo mode (addUnusedGasPenalty opInfo measured)
              (actualGasCost msg.env.basefee opInfo measured) := by
  unfold postExecution measureGas
  simp only [bind_assoc, pure_bind]
  rfl

end

theorem settle_of_le {opInfo : UserOpInfo} {cost : Nat} (h : cost ≤ opInfo.prefund) (mode : PostOpMode)
    (actualGas : Nat)
    : settle opInfo mode actualGas cost = refund mode opInfo actualGas cost :=
  if_neg (Nat.not_lt.mpr h)

end EntryPoint

namespace Deployment

open EntryPoint

variable {X : Type} {d : Deployment X} {msg : Frame Message} {s s' : State (Chain X)}
  {t : Chain.Trace X} {op : PackedUserOperation} {opInfo : UserOpInfo} {m opIndex : Nat}

theorem validatePrepayment_inBounds {outOpInfo : UserOpInfo} {data : Nat × Nat} (hgas : s.gas < 2 ^ 255)
    (h : d.Returns (invoke d.system m) msg (validatePrepayment d.cfg opIndex op outOpInfo) s
      (opInfo, data) s' t)
    : InBounds opInfo := by
  obtain ⟨hvalues, hprefund, hpreOpGas⟩ := validatePrepayment_gas hgas h
  change opInfo.preOpGas + s'.gas < s.gas + 2 ^ 120 at hpreOpGas
  exact ⟨hvalues, hprefund, by omega⟩

/-- The charge of a validated operation grows with the measured gas and covers it. An operation that
keeps to its limits gets the rest of its prefund back. -/
theorem charge_within_prefund {outOpInfo : UserOpInfo} {data : Nat × Nat} (hgas : s.gas < 2 ^ 255)
    (h : d.Returns (invoke d.system m) msg (validatePrepayment d.cfg opIndex op outOpInfo) s
      (opInfo, data) s' t)
    : (∀ a b, a ≤ b → b < Yul.wordSize → addUnusedGasPenalty opInfo a ≤ addUnusedGasPenalty opInfo b)
      ∧ (∀ a < Yul.wordSize, a ≤ addUnusedGasPenalty opInfo a)
      ∧ ∀ (frame : Frame Message) mode context actualGas,
        postExecution frame mode opInfo context actualGas
            = measureGas frame mode opInfo context actualGas >>= (fun measured =>
                settle opInfo mode (addUnusedGasPenalty opInfo measured)
                  (actualGasCost frame.env.basefee opInfo measured))
          ∧ (ValidationWithinLimits opInfo → ∀ measured, ExecutionWithinLimits opInfo measured →
            actualGasCost frame.env.basefee opInfo measured ≤ opInfo.prefund
              ∧ settle opInfo mode (addUnusedGasPenalty opInfo measured)
                  (actualGasCost frame.env.basefee opInfo measured)
                = refund mode opInfo (addUnusedGasPenalty opInfo measured)
                  (actualGasCost frame.env.basefee opInfo measured)) := by
  have hbounds := validatePrepayment_inBounds hgas h
  refine ⟨fun a b hle hb => addUnusedGasPenalty_mono hbounds hle hb,
    fun a ha => le_addUnusedGasPenalty hbounds ha, ?_⟩
  intro frame mode context actualGas
  refine ⟨postExecution_eq frame mode opInfo context actualGas, ?_⟩
  intro hvalidation measured hexecution
  have hcost := actualGasCost_le_prefund hbounds hvalidation hexecution frame.env.basefee
  exact ⟨hcost, settle_of_le hcost mode _⟩

theorem charge_within_prefund_paidOp
    : ∃ opInfo data s' t,
        mixed.Returns (invoke mixed.system 6) mixedTx.frame
          (validatePrepayment mixed.cfg 0 (paidOp 3 0) default) mixedStart (opInfo, data) s' t
        ∧ 150 < addUnusedGasPenalty opInfo 150
        ∧ addUnusedGasPenalty opInfo 120 ≤ addUnusedGasPenalty opInfo 150
        ∧ 0 < actualGasCost 1 opInfo 150 ∧ actualGasCost 1 opInfo 150 ≤ opInfo.prefund
        ∧ ∀ mode, settle opInfo mode (addUnusedGasPenalty opInfo 150) (actualGasCost 1 opInfo 150)
          = refund mode opInfo (addUnusedGasPenalty opInfo 150) (actualGasCost 1 opInfo 150) := by
  have hgas : mixedStart.gas < 2 ^ 255 := by decide +kernel
  obtain ⟨⟨opInfo, data⟩, s', t, h, hlimits⟩ : ∃ r s' t,
      mixed.Returns (invoke mixed.system 6) mixedTx.frame
          (validatePrepayment mixed.cfg 0 (paidOp 3 0) default) mixedStart r s' t
        ∧ decide (ValidationWithinLimits r.1 ∧ ExecutionWithinLimits r.1 150
            ∧ 150 < addUnusedGasPenalty r.1 150 ∧ 0 < actualGasCost 1 r.1 150) = true :=
    exists_returns_of_any (by decide +kernel)
  obtain ⟨hvalidation, hexecution, hpenalty, hcost⟩ := of_decide_eq_true hlimits
  obtain ⟨hmono, _, hsettle⟩ := charge_within_prefund hgas h
  have hcovered := fun mode => ((hsettle mixedTx.frame mode [] 0).2 hvalidation 150 hexecution)
  exact ⟨opInfo, data, s', t, h, hpenalty, hmono 120 150 (by omega) (by decide), hcost,
    (hcovered .opSucceeded).1, fun mode => (hcovered mode).2⟩

end Deployment
