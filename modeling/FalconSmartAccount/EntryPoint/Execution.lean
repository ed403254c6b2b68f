import FalconSmartAccount.EntryPoint.Bundle
import FalconSmartAccount.EntryPoint.Solvency
import FalconSmartAccount.EntryPoint.Turns

/-!
How the execution of an operation can fail. The outer code tells the failures of the inner call apart
by 32 bytes of return data, which nobody else can make up.
-/

open Evm

namespace EntryPoint

section

variable (msg : Frame Message)

/-- `innerHandleOp` up to the point where the cost is compared with the prefund: how the call ended, the
gas to pay for and what it costs. -/
def innerCost (callData : CallData) (opInfo : UserOpInfo) (context : Bytes)
    : Code (PostOpMode × Nat × Nat) := do
  let preGas ← Prog.gasleft
  require (msg.caller == msg.self) "AA92 internal call only"
  let mUserOp := opInfo.mUserOp
  let gas ← Prog.gasleft
  Prog.require
    (Yul.add (Yul.add mUserOp.callGasLimit mUserOp.paymasterPostOpGasLimit) INNER_GAS_OVERHEAD
      ≤ Yul.mul gas 63 / 64)
    (.words [INNER_OUT_OF_GAS])
  let mode ← callAccount callData opInfo
  let actualGas := Yul.add (Yul.sub preGas (← Prog.gasleft)) opInfo.preOpGas
  let preGas ← Prog.gasleft
  let gasPrice := getUserOpGasPrice msg.env.basefee mUserOp
  callPostOp mode mUserOp context (Yul.mul actualGas gasPrice) gasPrice
  let actualGas := Yul.add actualGas (Yul.sub preGas (← Prog.gasleft))
  let actualGas := addUnusedGasPenalty opInfo actualGas
  return (mode, actualGas, Yul.mul actualGas gasPrice)

/-- The end of `_postExecution`. -/
def settle (opInfo : UserOpInfo) (mode : PostOpMode) (actualGas actualGasCost : Nat) : Code Nat :=
  if opInfo.prefund < actualGasCost then
    if mode = .postOpReverted then
      chargePrefund opInfo actualGas
    else
      .revert (.words [INNER_REVERT_LOW_PREFUND])
  else do
    let _ ← incrementDeposit opInfo.mUserOp.payer (opInfo.prefund - actualGasCost)
      (Books.settle opInfo.prefund actualGasCost)
    emitUserOperationEvent opInfo (mode == .opSucceeded) actualGasCost actualGas
    return actualGasCost

theorem innerHandleOp_eq (callData : CallData) (opInfo : UserOpInfo) (context : Bytes)
    : innerHandleOp msg callData opInfo context
        = innerCost msg callData opInfo context >>= fun r =>
            settle opInfo r.1 r.2.1 r.2.2 >>= fun cost => pure (.words [cost]) := by
  unfold innerHandleOp innerCost postExecution
  simp only [bind_assoc, pure_bind]
  rfl

end

/-! ## Return data -/

theorem selector_length (n : Nat) : (ReturnData.selector n).length = 4 := by
  unfold ReturnData.selector
  rw [List.length_drop]
  rw [Abi.wordBytes_length]

theorem bytesTail_length_ge (bytes : Bytes) : 32 ≤ (Abi.bytesTail bytes).length := by
  unfold Abi.bytesTail
  simp only [List.length_append, Abi.wordBytes_length]
  omega

theorem innerRevertCode_of_length {data : ReturnData} (h : data.toBytes.length ≠ 32)
    : innerRevertCode data = 0 :=
  if_neg h

theorem innerRevertCode_words {w : Nat} (hw : w < Yul.wordSize) : innerRevertCode (.words [w]) = w := by
  have hbytes : (ReturnData.words [w]).toBytes = Abi.wordBytes w := List.append_nil _
  unfold innerRevertCode
  rw [hbytes]
  rw [if_pos (Abi.wordBytes_length w)]
  exact Abi.wordAt_wordBytes hw

theorem innerRevertCode_default : innerRevertCode default = 0 :=
  innerRevertCode_of_length (by decide)

/-- Whatever the paymaster reverts with, it does not come through. -/
theorem innerRevertCode_postOpReverted (reason : Bytes) : innerRevertCode (.postOpReverted reason) = 0 := by
  apply innerRevertCode_of_length
  have := bytesTail_length_ge reason
  simp only [ReturnData.toBytes, List.length_append, selector_length, Abi.wordBytes_length]
  omega

theorem innerRevertCode_ofRevert (e : Revert) : innerRevertCode (.ofRevert e) = 0 := by
  apply innerRevertCode_of_length
  cases e with
  | panic code =>
    simp only [ReturnData.ofRevert, ReturnData.toBytes, List.length_append, selector_length,
      Abi.wordBytes_length]
    omega
  | error reason =>
    have := bytesTail_length_ge reason.toUTF8.toList
    simp only [ReturnData.ofRevert, ReturnData.toBytes, ReturnData.string, List.length_append,
      selector_length, Abi.wordBytes_length]
    omega
  | outOfGas => decide

end EntryPoint

namespace Deployment

open EntryPoint

variable {X : Type} {d : Deployment X} {msg : Frame Message}
  {inv : Frame Message → State (Chain X) → Reply (Chain X) Message ReturnData Log}
  {s s' : State (Chain X)} {t : Chain.Trace X} {op : PackedUserOperation} {opInfo : UserOpInfo}

/-- For runs of the entry point. -/
abbrev EntryPointReverts (d : Deployment X)
    (inv : Frame Message → State (Chain X) → Reply (Chain X) Message ReturnData Log)
    (msg : Frame Message) {α : Type} (p : EntryPoint.Code α) (s : State (Chain X)) (data : ReturnData)
    : Prop :=
  Evm.Reverts d.system inv msg Chain.entryPointPart p s data

abbrev EntryPointStarves (d : Deployment X)
    (inv : Frame Message → State (Chain X) → Reply (Chain X) Message ReturnData Log)
    (msg : Frame Message) {α : Type} (p : EntryPoint.Code α) (s : State (Chain X)) : Prop :=
  Evm.Starves d.system inv msg Chain.entryPointPart p s

/-! ## The inner call -/

/-- The program does not revert with one of the codes that the outer code looks for. -/
abbrev Unmarked (d : Deployment X)
    (inv : Frame Message → State (Chain X) → Reply (Chain X) Message ReturnData Log)
    (msg : Frame Message) {α : Type} (p : EntryPoint.Code α) : Prop :=
  Errs d.system inv msg Chain.entryPointPart (innerRevertCode · = 0) p

theorem unmarked_op {o : Op Storage Message ReturnData Log} : d.Unmarked inv msg (.op o .ret) :=
  .op innerRevertCode_default

theorem callAccount_unmarked {callData : CallData} : d.Unmarked inv msg (callAccount callData opInfo) := by
  unfold callAccount
  split
  . exact .pure
  . refine .bind unmarked_op fun r => ?_
    dsimp only
    split
    . exact .pure
    . split
      . exact .bind unmarked_op fun _ => .pure
      . exact .pure

theorem callPostOp_unmarked {mode : PostOpMode} {mUserOp : MemoryUserOp} {context : Bytes}
    {cost price : Nat}
    : d.Unmarked inv msg (callPostOp mode mUserOp context cost price) := by
  unfold callPostOp
  split
  . exact .pure
  . refine .bind (.bind unmarked_op fun _ => .require innerRevertCode_default) fun _ => ?_
    exact .bind unmarked_op fun _ => .require (innerRevertCode_postOpReverted _)

theorem incrementDeposit_unmarked {account : Address} {amount : Nat} {f : Books → Books}
    : d.Unmarked inv msg (incrementDeposit account amount f) := by
  refine .bind unmarked_op fun st => .bind ?_ fun _ => .bind unmarked_op fun _ => .pure
  cases Solidity.add (st.deposits account).deposit amount with
  | ok n => exact .pure
  | error e => exact .revert (innerRevertCode_ofRevert e)

theorem chargePrefund_unmarked {actualGas : Nat} : d.Unmarked inv msg (chargePrefund opInfo actualGas) :=
  .bind unmarked_op fun _ => .bind unmarked_op fun _ => .bind unmarked_op fun _ => .pure

/-- The gas that a frame finds after its first two operations. -/
def gasAfterTwo (env : Env) (s : State (Chain X)) : Nat :=
  s.gas - env.cost s.tick - env.cost (s.tick + 1)

/-- The ways in which the inner call fails. -/
inductive InnerFailure (d : Deployment X)
    (inv : Frame Message → State (Chain X) → Reply (Chain X) Message ReturnData Log)
    (msg : Frame Message) (callData : CallData) (opInfo : UserOpInfo) (context : Bytes)
    (s : State (Chain X)) : ReturnData → Prop where
  | outOfGas :
      Yul.mul (gasAfterTwo msg.env s) 63 / 64 < Yul.add (Yul.add opInfo.mUserOp.callGasLimit
        opInfo.mUserOp.paymasterPostOpGasLimit) INNER_GAS_OVERHEAD →
      InnerFailure d inv msg callData opInfo context s (.words [INNER_OUT_OF_GAS])
  | lowPrefund {mode actualGas cost s' t} :
      d.Returns inv msg (innerCost msg callData opInfo context) s (mode, actualGas, cost) s' t →
      opInfo.prefund < cost →
      InnerFailure d inv msg callData opInfo context s (.words [INNER_REVERT_LOW_PREFUND])
  | other {data} :
      innerRevertCode data = 0 → InnerFailure d inv msg callData opInfo context s data

theorem innerCost_reverts {callData : CallData} {context : Bytes} {data : ReturnData}
    (h : d.EntryPointReverts inv msg (innerCost msg callData opInfo context) s data)
    : d.InnerFailure inv msg callData opInfo context s data := by
  rcases h.bind with h | ⟨preGas, s1, t1, hgas1, h⟩
  . exact .other (unmarked_op _ _ h)
  rcases h.bind with h | ⟨_, s2, t2, hcaller, h⟩
  . rw [h.require.2]
    exact .other (innerRevertCode_ofRevert (.error _))
  rcases h.bind with h | ⟨gas, s3, t3, hgas2, h⟩
  . exact .other (unmarked_op _ _ h)
  rcases h.bind with h | ⟨_, s4, t4, _, h⟩
  . obtain ⟨hgas, hdata⟩ := h.require
    obtain ⟨s5, reply, hs5, hp, _⟩ := hgas1.charged
    obtain ⟨_, hs2, _⟩ := hcaller.require
    obtain ⟨s6, reply', hs6, hp', hreply⟩ := hgas2.charged
    cases hp
    cases hp'
    rw [hs2] at hs6
    have heq : gas = gasAfterTwo msg.env s := by
      rw [hreply, charge_eq hs6, charge_eq hs5]
      rfl
    rw [hdata]
    rw [heq] at hgas
    exact .outOfGas (Nat.lt_of_not_le (of_decide_eq_false hgas))
  refine .other (Errs.bind callAccount_unmarked (fun mode => ?_) _ _ h)
  refine .bind unmarked_op fun _ => .bind unmarked_op fun _ => .bind callPostOp_unmarked fun _ => ?_
  exact .bind unmarked_op fun _ => .pure

theorem innerHandleOp_reverts {callData : CallData} {context : Bytes} {data : ReturnData}
    (h : d.EntryPointReverts inv msg (innerHandleOp msg callData opInfo context) s data)
    : d.InnerFailure inv msg callData opInfo context s data := by
  rw [innerHandleOp_eq] at h
  rcases h.bind with h | ⟨⟨mode, actualGas, cost⟩, s1, t1, hcost, h⟩
  . exact innerCost_reverts h
  . rcases h.bind with h | ⟨_, s2, t2, _, h⟩
    . unfold settle at h
      split at h
      . next hlt =>
        split at h
        . exact .other (chargePrefund_unmarked _ _ h)
        . rw [h.revert]
          exact .lowPrefund hcost hlt
      . refine .other (Errs.bind incrementDeposit_unmarked (fun _ => ?_) _ _ h)
        exact .bind unmarked_op fun _ => .pure
    . exact absurd h Reverts.not_pure

/-- What the outer code is told about an inner call that failed. -/
theorem invoke_innerHandleOp_failed {m : Nat} (hself : msg.self = d.entryPoint)
    (hok : (invoke d.system m (innerHandleOpFrame msg op opInfo) s).ok = false)
    : innerRevertCode (invoke d.system m (innerHandleOpFrame msg op opInfo) s).data = 0
      ∨ ∃ m' s1, gasAfterTwo msg.env s1 = gasAfterTwo msg.env s
        ∧ d.InnerFailure (invoke d.system m') (innerHandleOpFrame msg op opInfo)
            (innerCallData op opInfo) opInfo opInfo.context s1
            (invoke d.system m (innerHandleOpFrame msg op opInfo) s).data := by
  have hself' : (innerHandleOpFrame msg op opInfo).self = d.entryPoint := hself
  rcases invoke_entryPoint_error hself' hok with hdata | ⟨m', ledger, _, _, h⟩
  . rw [hdata]
    exact .inl innerRevertCode_default
  . have hbody : d.EntryPointReverts (invoke d.system m') (innerHandleOpFrame msg op opInfo)
        (innerHandleOp (innerHandleOpFrame msg op opInfo) (innerCallData op opInfo) opInfo opInfo.context)
        { s with world := { s.world with ledger := ledger } }
        (invoke d.system m (innerHandleOpFrame msg op opInfo) s).data := h
    exact .inr ⟨m', { s with world := { s.world with ledger := ledger } }, rfl, innerHandleOp_reverts hbody⟩

theorem InnerFailure.of_outOfGas {callData : CallData} {context : Bytes} {data : ReturnData}
    (h : d.InnerFailure inv msg callData opInfo context s data)
    (hdata : innerRevertCode data = INNER_OUT_OF_GAS)
    : Yul.mul (gasAfterTwo msg.env s) 63 / 64 < Yul.add (Yul.add opInfo.mUserOp.callGasLimit
        opInfo.mUserOp.paymasterPostOpGasLimit) INNER_GAS_OVERHEAD := by
  cases h with
  | outOfGas hlt => exact hlt
  | lowPrefund _ _ =>
    rw [innerRevertCode_words (by decide)] at hdata
    exact absurd hdata (by decide)
  | other hzero =>
    rw [hzero] at hdata
    exact absurd hdata (by decide)

theorem InnerFailure.of_lowPrefund {callData : CallData} {context : Bytes} {data : ReturnData}
    (h : d.InnerFailure inv msg callData opInfo context s data)
    (hdata : innerRevertCode data = INNER_REVERT_LOW_PREFUND)
    : ∃ mode actualGas cost s' t, d.Returns inv msg (innerCost msg callData opInfo context) s
        (mode, actualGas, cost) s' t ∧ opInfo.prefund < cost := by
  cases h with
  | outOfGas _ =>
    rw [innerRevertCode_words (by decide)] at hdata
    exact absurd hdata (by decide)
  | lowPrefund hcost hlt => exact ⟨_, _, _, _, _, hcost, hlt⟩
  | other hzero =>
    rw [hzero] at hdata
    exact absurd hdata (by decide)

/-! ## The outer code -/

/-- For runs of the entry point. -/
abbrev EntryPointFirm (d : Deployment X)
    (inv : Frame Message → State (Chain X) → Reply (Chain X) Message ReturnData Log)
    (msg : Frame Message) {α : Type} (p : EntryPoint.Code α) (s : State (Chain X)) : Prop :=
  Firm d.system inv msg Chain.entryPointPart p s

theorem lift_firm {α : Type} {c : Checked α} {a : α} (h : c = .ok a)
    : d.EntryPointFirm inv msg (lift c) s := by
  rw [h]
  exact .pure

theorem gasleft_returns {gas : Nat}
    (h : d.Returns inv msg (Prog.gasleft : EntryPoint.Code Nat) s gas s' t)
    : gas = s'.gas ∧ s'.gas ≤ s.gas ∧ s'.world = s.world := by
  obtain ⟨s1, reply, hs1, hp, hreply⟩ := h.charged
  cases hp
  exact ⟨hreply, charge_gas_le hs1, charge_world hs1⟩

/-- Gas only gets less, so that the difference does not underflow. -/
theorem gasSince_firm {preGas : Nat} (hgas : s.gas ≤ preGas)
    (hadd : preGas + opInfo.preOpGas < Yul.wordSize)
    : d.EntryPointFirm inv msg (gasSince preGas opInfo) s := by
  refine .bind .op fun gas s1 t1 h => .bind ?_ fun used s2 t2 h2 => ?_
  . obtain ⟨hreply, hle, _⟩ := gasleft_returns h
    exact lift_firm (Solidity.sub_ok (by omega))
  . have hused : used ≤ preGas := by
      obtain ⟨_, hsub, h2⟩ := Returns.bind_lift (f := fun a => (pure a : EntryPoint.Code Nat)) (by
        rw [bind_pure]
        exact h2)
      obtain ⟨hused, _, _⟩ := h2.pure
      unfold Solidity.sub at hsub
      split at hsub
      . cases hsub
        omega
      . cases hsub
    exact lift_firm (Solidity.add_ok (by omega))

theorem chargePrefund_firm {actualGas : Nat}
    : d.EntryPointFirm inv msg (chargePrefund opInfo actualGas) s :=
  .bind .op fun _ _ _ _ => .bind .op fun _ _ _ _ => .bind .op fun _ _ _ _ => .pure

theorem sload_returns {st : Storage}
    (h : d.Returns inv msg (Prog.sload : EntryPoint.Code Storage) s st s' t)
    : st = s.world.storage.entryPoint ∧ s'.world = s.world := by
  obtain ⟨s1, reply, hw, hp, hreply⟩ := h.op
  cases hp
  rw [hreply, hw]
  exact ⟨rfl, rfl⟩

theorem incrementDeposit_firm {account : Address} {amount : Nat} {f : Books → Books}
    (h : (s.world.storage.entryPoint.deposits account).deposit + amount < Yul.wordSize)
    : d.EntryPointFirm inv msg (incrementDeposit account amount f) s := by
  refine .bind .op fun st s1 t1 h1 => .bind ?_ fun _ _ _ _ => .bind .op fun _ _ _ _ => .pure
  obtain ⟨hst, _⟩ := sload_returns h1
  rw [← hst] at h
  exact lift_firm (Solidity.add_ok h)

/-- After a failed inner call the settlement goes through as long as the payer's deposit and the prefund
fit a word together. -/
theorem postExecution_firm {context : Bytes} {actualGas : Nat}
    (h : (s.world.storage.entryPoint.deposits opInfo.mUserOp.payer).deposit + opInfo.prefund
      < Yul.wordSize)
    : d.EntryPointFirm inv msg (postExecution msg .postOpReverted opInfo context actualGas) s := by
  have hpost (price cost : Nat)
      : callPostOp .postOpReverted opInfo.mUserOp context cost price = pure () :=
    if_pos (.inr (.inr rfl))
  unfold postExecution
  simp only [hpost, pure_bind]
  refine .bind .op fun preGas s1 t1 h1 => .bind .op fun gas s2 t2 h2 => ?_
  obtain ⟨_, _, hw1⟩ := gasleft_returns h1
  obtain ⟨_, _, hw2⟩ := gasleft_returns h2
  rw [← hw1, ← hw2] at h
  split
  . exact chargePrefund_firm
  . refine .bind (incrementDeposit_firm ?_) fun _ _ _ _ => .bind .op fun _ _ _ _ => .pure
    exact Nat.lt_of_le_of_lt (Nat.add_le_add_left (Nat.sub_le _ _) _) h

/-- The values of an operation that has been validated fit, and with the gas that is left its gas fits a
word. -/
structure Bounded (gas : Nat) (opInfo : UserOpInfo) : Prop where
  maxGasValues : maxGasValues opInfo.mUserOp ≤ 2 ^ 120 - 1
  preOpGas : opInfo.preOpGas + gas < 2 ^ 121

theorem Bounded.mono {gas gas' : Nat} (h : Bounded gas opInfo) (hle : gas' ≤ gas)
    : Bounded gas' opInfo :=
  ⟨h.maxGasValues, Nat.lt_of_le_of_lt (Nat.add_le_add_left hle _) h.preOpGas⟩

theorem copyUserOpToMemory_preVerificationGas {mUserOp : MemoryUserOp}
    (h : copyUserOpToMemory op = some mUserOp)
    : mUserOp.preVerificationGas = op.preVerificationGas.toNat := by
  unfold copyUserOpToMemory at h
  dsimp only at h
  split at h
  . cases h
    rfl
  . split at h
    . cases h
    . cases h
      rfl

/-- The state in which the inner call is made. -/
def innerState (env : Env) (s : State (Chain X)) : State (Chain X) :=
  { s with
    gas := gasAfterTwo env s - gasAfterTwo env s / 64
    tick := s.tick + 2 }

/-- The gas that the inner call finds when it looks whether there is enough. -/
def innerGas (env : Env) (s : State (Chain X)) : Nat := gasAfterTwo env (innerState env s)

/-- The inner call has less gas than the operation asks for. -/
def LowGas (env : Env) (opInfo : UserOpInfo) (s : State (Chain X)) : Prop :=
  innerGas env s * 63 / 64
    < opInfo.mUserOp.callGasLimit + opInfo.mUserOp.paymasterPostOpGasLimit + INNER_GAS_OVERHEAD

/-- The first two operations of `executeUserOp`: the inner call is made in `innerState`. -/
theorem innerCall_returns {m : Nat} {preGas : Nat} {r : Bool × ReturnData} {s1 : State (Chain X)}
    {t1 : Chain.Trace X}
    (h1 : d.Returns (invoke d.system m) msg (Prog.gasleft : EntryPoint.Code Nat) s preGas s1 t1)
    (h2 : d.Returns (invoke d.system m) msg (Prog.call
      ⟨msg.self, 0, none, .innerHandleOp (innerCallData op opInfo) opInfo opInfo.context⟩
        : EntryPoint.Code (Bool × ReturnData)) s1 r s' t)
    : (invoke d.system m (innerHandleOpFrame msg op opInfo) (innerState msg.env s)).ok = r.1
      ∧ (invoke d.system m (innerHandleOpFrame msg op opInfo) (innerState msg.env s)).data = r.2
      ∧ (invoke d.system m (innerHandleOpFrame msg op opInfo) (innerState msg.env s)).state.world
        = s'.world := by
  obtain ⟨s2, reply, hs2, hp, _⟩ := h1.charged
  cases hp
  obtain ⟨s3, reply', hs3, hp', hreply⟩ := h2.charged
  have hstate : { s3 with gas := callGas none s3.gas } = innerState msg.env s := by
    have hcall (gas : Nat) : callGas none gas = gas - gas / 64 := Nat.min_eq_right (Nat.sub_le _ _)
    rw [hcall, charge_eq hs3, charge_eq hs2]
    rfl
  simp only [Op.zoom, perform, hstate] at hp'
  cases hp'
  rw [hreply]
  exact ⟨rfl, rfl, rfl⟩

theorem innerCall_lowGas {m : Nat} (hself : msg.self = d.entryPoint) (hgas : s.gas < 2 ^ 64)
    (hbounded : Bounded s.gas opInfo)
    (hok : (invoke d.system m (innerHandleOpFrame msg op opInfo) (innerState msg.env s)).ok = false)
    (hcode : innerRevertCode
      (invoke d.system m (innerHandleOpFrame msg op opInfo) (innerState msg.env s)).data = INNER_OUT_OF_GAS)
    : LowGas msg.env opInfo s := by
  rcases invoke_innerHandleOp_failed hself hok with hzero | ⟨m', s1, hgas', hfailure⟩
  . rw [hzero] at hcode
    exact absurd hcode (by decide)
  . have hlt := hfailure.of_outOfGas hcode
    have hinner : gasAfterTwo (innerHandleOpFrame msg op opInfo).env s1 = innerGas msg.env s := hgas'
    have hle : innerGas msg.env s ≤ s.gas := by
      unfold innerGas innerState gasAfterTwo
      dsimp only
      omega
    obtain ⟨_, _, hcall, _, hpost, _⟩ := le_of_maxGasValues_le hbounded.maxGasValues
    have hoverhead : INNER_GAS_OVERHEAD = 10000 := rfl
    have hsize : Yul.wordSize = 2 ^ 256 := rfl
    rw [hinner, Yul.mul_eq (by omega), Yul.add_eq (by rw [Yul.add_eq (by omega)]; omega),
      Yul.add_eq (by omega)] at hlt
    exact hlt

theorem executeUserOp_reverts {m opIndex : Nat} {data : ReturnData} (hself : msg.self = d.entryPoint)
    (hgas : s.gas < 2 ^ 64) (hbounded : Bounded s.gas opInfo)
    (hdeposit : (s.world.storage.entryPoint.deposits opInfo.mUserOp.payer).deposit + opInfo.prefund
      < Yul.wordSize)
    (h : d.EntryPointReverts (invoke d.system m) msg (executeUserOp msg opIndex op opInfo) s data)
    : d.EntryPointStarves (invoke d.system m) msg (executeUserOp msg opIndex op opInfo) s
      ∨ LowGas msg.env opInfo s ∧ data = .failedOp opIndex "AA95 out of gas" := by
  rcases h.bind with h | ⟨preGas, s1, t1, h1, h⟩
  . exact .inl (.first h.starves)
  rcases h.bind with h | ⟨⟨success, ret⟩, s2, t2, h2, h⟩
  . exact .inl (.later h1 (.first h.starves))
  obtain ⟨hok, hdata, hworld⟩ := innerCall_returns h1 h2
  cases success with
  | true => exact absurd h Reverts.not_pure
  | false =>
    rw [invoke_failed d.system hok] at hworld
    have hdeposit' : (s2.world.storage.entryPoint.deposits opInfo.mUserOp.payer).deposit + opInfo.prefund
        < Yul.wordSize := by
      rw [← hworld]
      exact hdeposit
    obtain ⟨hpreGas, hle, _⟩ := gasleft_returns h1
    have hle2 := h2.gas_le (invoke_gas_le d.system m)
    have hsince (s3 : State (Chain X)) (hs3 : s3.gas ≤ s2.gas)
        : d.EntryPointFirm (invoke d.system m) msg (gasSince preGas opInfo) s3 :=
      gasSince_firm (by omega) (by
        have := hbounded.preOpGas
        unfold Yul.wordSize
        omega)
    dsimp only at h
    rw [if_neg Bool.false_ne_true] at h
    by_cases hoog : innerRevertCode ret = INNER_OUT_OF_GAS
    . rw [if_pos hoog] at h
      refine .inr ⟨?_, h.revert⟩
      exact innerCall_lowGas hself hgas hbounded hok ((congrArg innerRevertCode hdata).trans hoog)
    . refine .inl (.later h1 (.later h2 ?_))
      dsimp only
      rw [if_neg Bool.false_ne_true]
      rw [if_neg hoog] at h ⊢
      by_cases hlow : innerRevertCode ret = INNER_REVERT_LOW_PREFUND
      . rw [if_pos hlow] at h ⊢
        exact Firm.bind (hsince s2 (Nat.le_refl _)) (fun _ _ _ _ => chargePrefund_firm) data h
      . rw [if_neg hlow] at h ⊢
        refine Firm.bind .op (fun _ s3 t3 h3 => .bind (hsince s3 ?_) fun _ s4 t4 h4 => ?_) data h
        . exact h3.gas_le (invoke_gas_le d.system m)
        . apply postExecution_firm
          have hw3 : s3.world = s2.world := h3.emit.1
          have hw4 : s4.world = s3.world :=
            Sat.returns (P := (· = s3.world)) (Q := fun _ => (· = s3.world)) gasSince_keeps rfl h4
          rw [hw4, hw3]
          exact hdeposit'

/-! ## Bundles -/

/-- What the validation of an operation says about its gas. -/
theorem validatePrepayment_gas {m opIndex : Nat} {outOpInfo : UserOpInfo}
    {r : UserOpInfo × Nat × Nat} (hgas : s.gas < 2 ^ 255)
    (h : d.Returns (invoke d.system m) msg (validatePrepayment d.cfg opIndex op outOpInfo) s r s' t)
    : maxGasValues r.1.mUserOp ≤ 2 ^ 120 - 1 ∧ r.1.prefund = getRequiredPrefund r.1.mUserOp
      ∧ r.1.preOpGas + s'.gas < s.gas + 2 ^ 120 := by
  have hinv := invoke_gas_le d.system m
  obtain ⟨preGas, s1, t1, _, hpre, h, _⟩ := h.bind
  obtain ⟨hpreGas, hle1, _⟩ := gasleft_returns hpre
  obtain ⟨mUserOp, hcopy, h⟩ := Returns.bind_getOrRevert h
  obtain ⟨hvalues, h⟩ := h.bind_require
  obtain ⟨_, s2, t2, _, h2, h, _⟩ := h.bind
  have hle2 := h2.gas_le hinv
  obtain ⟨_, s3, t3, _, h3, h, _⟩ := h.bind
  have hle3 := h3.gas_le hinv
  obtain ⟨_, h⟩ := h.bind_require
  obtain ⟨_, s4, t4, _, h4, h, _⟩ := h.bind
  have hle4 := h4.gas_le hinv
  obtain ⟨_, _, h⟩ := Returns.bind_lift h
  obtain ⟨_, h⟩ := h.bind_require
  obtain ⟨_, s5, t5, _, h5, h, _⟩ := h.bind
  have hle5 := h5.gas_le hinv
  obtain ⟨gas, s6, t6, _, h6, h, _⟩ := h.bind
  obtain ⟨hgas6, hle6, _⟩ := gasleft_returns h6
  obtain ⟨rfl, rfl, _⟩ := h.pure
  have hvalues := of_decide_eq_true hvalues
  refine ⟨hvalues, rfl, ?_⟩
  obtain ⟨hpvg, _⟩ := le_of_maxGasValues_le hvalues
  rw [copyUserOpToMemory_preVerificationGas hcopy] at hpvg
  have hsub : Yul.sub preGas gas = preGas - gas :=
    Yul.sub_eq (by omega) (by unfold Yul.wordSize; omega)
  have hadd : Yul.add (preGas - gas) op.preVerificationGas.toNat
      = preGas - gas + op.preVerificationGas.toNat :=
    Yul.add_eq (by unfold Yul.wordSize; omega)
  change Yul.add (Yul.sub preGas gas) op.preVerificationGas.toNat + s'.gas < s.gas + 2 ^ 120
  rw [hsub, hadd]
  omega

theorem validatePrepayment_bounded {m opIndex : Nat} {outOpInfo : UserOpInfo}
    {r : UserOpInfo × Nat × Nat} (hgas : s.gas < 2 ^ 64)
    (h : d.Returns (invoke d.system m) msg (validatePrepayment d.cfg opIndex op outOpInfo) s r s' t)
    : Bounded s'.gas r.1 := by
  obtain ⟨hvalues, _, hpreOpGas⟩ := validatePrepayment_gas (by omega) h
  exact ⟨hvalues, by omega⟩

/-- The operations that are validated and not yet executed. -/
def pending (validated executed : Nat) (opInfos : List UserOpInfo) : List UserOpInfo :=
  (opInfos.take validated).drop executed

theorem pending_set {validated executed : Nat} {opInfos : List UserOpInfo} (hle : executed ≤ validated)
    (hlt : validated < opInfos.length) (opInfo : UserOpInfo)
    : pending (validated + 1) executed (opInfos.set validated opInfo)
        = pending validated executed opInfos ++ [opInfo] := by
  have htake : (opInfos.set validated opInfo).take (validated + 1) = opInfos.take validated ++ [opInfo] := by
    rw [List.take_add_one, List.getElem?_set_self hlt, List.take_set_of_le (Nat.le_refl _)]
    rfl
  unfold pending
  rw [htake, List.drop_append_of_le_length]
  rw [List.length_take]
  omega

theorem pending_cons {validated executed : Nat} {opInfos : List UserOpInfo} {opInfo : UserOpInfo}
    (hlt : executed < validated) (hget : opInfos[executed]? = some opInfo)
    : pending validated executed opInfos = opInfo :: pending validated (executed + 1) opInfos := by
  obtain ⟨hlength, heq⟩ := List.getElem?_eq_some_iff.mp hget
  have hlt' : executed < (opInfos.take validated).length := by
    rw [List.length_take]
    omega
  unfold pending
  rw [List.drop_eq_getElem_cons hlt', List.getElem_take, heq]

/-- What holds between the turns of a bundle that started with `locked` and `collected` in the books. -/
structure Midway (d : Deployment X) (locked collected validated executed : Nat) (p : Progress)
    (s : State (Chain X)) : Prop where
  order : executed ≤ validated
  length : validated ≤ p.opInfos.length
  gas : s.gas < 2 ^ 64
  bounded : ∀ opInfo ∈ pending validated executed p.opInfos, Bounded s.gas opInfo
  sender : ∀ opInfo ∈ pending validated executed p.opInfos, opInfo.mUserOp.sender ≠ d.entryPoint
  holds : ∃ used, d.Holds used 0
    (locked + ((pending validated executed p.opInfos).map UserOpInfo.prefund).sum)
    (collected + p.collected) s.world

variable {locked collected validated executed : Nat} {p p' : Progress}

/-- Turns that do nothing but use up gas. -/
theorem Midway.idle (h : d.Midway locked collected validated executed p s) (hgas : s'.gas ≤ s.gas)
    (hworld : s'.world = s.world) (hopInfos : p'.opInfos = p.opInfos)
    (hcollected : p'.collected = p.collected)
    : d.Midway locked collected validated executed p' s' := by
  refine ⟨h.order, by rw [hopInfos]; exact h.length, Nat.lt_of_le_of_lt hgas h.gas, ?_, ?_, ?_⟩
  . rw [hopInfos]
    exact fun opInfo hmem => (h.bounded opInfo hmem).mono hgas
  . rw [hopInfos]
    exact h.sender
  . rw [hopInfos, hcollected, hworld]
    exact h.holds

/-- What a turn changes. -/
theorem Midway.turn {m : Nat} {add : Nat → Nat → Checked Nat} {turn : Turn} {turns : List Turn}
    (hself : msg.self = d.entryPoint)
    (hadd : ∀ a b c, a + b < 2 ^ 256 → add a b = .ok c → c = a + b)
    (h : d.Midway locked collected validated executed p s)
    (hordered : Ordered validated executed (turn :: turns))
    (hr : d.Returns (invoke d.system m) msg (turn.run d.cfg msg add p) s p' s' t)
    : ∃ validated' executed', d.Midway locked collected validated' executed' p' s'
        ∧ Ordered validated' executed' turns := by
  have hinv := invoke_gas_le d.system m
  have hle := hr.gas_le hinv
  obtain ⟨used, hholds⟩ := h.holds
  cases turn with
  | prepayment position op =>
    obtain ⟨rfl, hordered⟩ := hordered
    obtain ⟨opInfo, hget, hr⟩ := Returns.bind_lift hr
    obtain ⟨r, s1, t1, t2, h1, hr, _⟩ := hr.bind
    obtain ⟨rfl, rfl, _⟩ := hr.pure
    -- the operation joins the pending ones, its prefund is held from now on
    have hlt : position < p.opInfos.length := (List.getElem?_eq_some_iff.mp (getOpInfo_eq hget)).1
    have hpending := pending_set h.order hlt r.1
    obtain ⟨hsender, hkept⟩ := Sat.returns (validatePrepayment_keeps (handles m) hself) hholds h1
    refine ⟨position + 1, executed, ⟨Nat.le_succ_of_le h.order, by rwa [List.length_set],
      Nat.lt_of_le_of_lt hle h.gas, ?_, ?_, ?_⟩, hordered⟩
    . rw [hpending]
      intro opInfo' hmem
      rcases List.mem_append.mp hmem with hmem | hmem
      . exact (h.bounded opInfo' hmem).mono hle
      . rw [List.mem_singleton.mp hmem]
        exact validatePrepayment_bounded h.gas h1
    . rw [hpending]
      intro opInfo' hmem
      rcases List.mem_append.mp hmem with hmem | hmem
      . exact h.sender opInfo' hmem
      . rw [List.mem_singleton.mp hmem]
        exact hsender
    . rw [hpending, List.map_append, List.sum_append, ← Nat.add_assoc]
      exact ⟨_, hkept⟩
  | validationData start i aggregator op =>
    obtain ⟨_, s1, t1, t2, h1, hr, _⟩ := hr.bind
    obtain ⟨rfl, rfl, _⟩ := hr.pure
    have hworld : s'.world = s.world :=
      Sat.returns (P := (· = s.world)) (Q := fun _ => (· = s.world)) validateValidationData_keeps rfl h1
    exact ⟨validated, executed, h.idle hle hworld rfl rfl, hordered⟩
  | beforeExecution =>
    obtain ⟨s1, t1, hw1, _, hr⟩ := hr.bind_emit
    obtain ⟨rfl, rfl, _⟩ := hr.pure
    exact ⟨validated, executed, h.idle hle hw1 rfl rfl, hordered⟩
  | changeAggregator aggregator =>
    obtain ⟨s1, t1, hw1, _, hr⟩ := hr.bind_emit
    obtain ⟨rfl, rfl, _⟩ := hr.pure
    exact ⟨validated, executed, h.idle hle hw1 rfl rfl, hordered⟩
  | execution position op =>
    obtain ⟨rfl, hlt, hordered⟩ := hordered
    obtain ⟨opInfo, hget, hr⟩ := Returns.bind_lift hr
    obtain ⟨paid, s1, t1, t2, h1, hr, _⟩ := hr.bind
    obtain ⟨collected', hcollected, hr⟩ := Returns.bind_lift hr
    obtain ⟨rfl, rfl, _⟩ := hr.pure
    have hpending := pending_cons hlt (getOpInfo_eq hget)
    have hsender := h.sender opInfo (by rw [hpending]; exact List.mem_cons_self)
    have hmem (opInfo' : UserOpInfo) (hmem : opInfo' ∈ pending validated (position + 1) p.opInfos)
        : opInfo' ∈ pending validated position p.opInfos := by
      rw [hpending]
      exact List.mem_cons_of_mem _ hmem
    rw [hpending, List.map_cons, List.sum_cons, Nat.add_comm opInfo.prefund, ← Nat.add_assoc] at hholds
    have hkept := Sat.returns (executeUserOp_keeps (handles m) hself hsender) hholds h1
    have hfits := hkept.collected_lt
    have hsum := hadd _ _ _ (by omega) hcollected
    refine ⟨validated, position + 1, ⟨hlt, h.length, Nat.lt_of_le_of_lt hle h.gas, ?_, ?_, ?_⟩, hordered⟩
    . exact fun opInfo' hmem' => (h.bounded opInfo' (hmem opInfo' hmem')).mono hle
    . exact fun opInfo' hmem' => h.sender opInfo' (hmem opInfo' hmem')
    . rw [hsum, ← Nat.add_assoc]
      exact ⟨used, hkept⟩

theorem Midway.turns {m : Nat} {add : Nat → Nat → Checked Nat} {pre post : List Turn}
    (hself : msg.self = d.entryPoint)
    (hadd : ∀ a b c, a + b < 2 ^ 256 → add a b = .ok c → c = a + b)
    (h : d.Midway locked collected validated executed p s)
    (hordered : Ordered validated executed (pre ++ post))
    (hr : d.Returns (invoke d.system m) msg (pre.foldlM (Turn.run d.cfg msg add) p) s p' s' t)
    : ∃ validated' executed', d.Midway locked collected validated' executed' p' s'
        ∧ Ordered validated' executed' post := by
  induction pre generalizing validated executed p s t with
  | nil =>
    obtain ⟨rfl, rfl, _⟩ := hr.pure
    exact ⟨validated, executed, h, hordered⟩
  | cons turn pre ih =>
    rw [List.foldlM_cons] at hr
    obtain ⟨p1, s1, t1, t2, h1, hr, _⟩ := hr.bind
    obtain ⟨validated1, executed1, hmidway, hordered1⟩ := h.turn hself hadd hordered h1
    exact ih hmidway hordered1 hr

theorem beforeTurns_midway {m : Nat} {opas : List UserOpsPerAggregator} {used : List (Address × Word)}
    (hself : msg.self = d.entryPoint) (hgas : s.gas < 2 ^ 64)
    (hholds : d.Holds used 0 locked collected s.world)
    (hr : d.Returns (invoke d.system m) msg (beforeTurns d.cfg opas) s p s' t)
    : d.Midway locked collected 0 0 p s' := by
  have hkeeps : d.Keeps (invoke d.system m) msg (d.Holds used 0 locked collected)
      (beforeTurns d.cfg opas) fun p w => p.collected = 0 ∧ d.Holds used 0 locked collected w := by
    refine Keeps.bind_sload fun st => Keeps.bind_getOrRevert fun entered _ => ?_
    refine Keeps.bind_sstore used 0 locked collected ?_ ?_
    . exact fun w hw => hw.1.congr rfl rfl rfl (Nat.le_refl _)
    . exact Sat.bind (validateAggregators_keeps (handles m) hself) fun _ => Sat.ret fun w hw => ⟨rfl, hw⟩
  obtain ⟨hcollected, hholds⟩ := Sat.returns hkeeps hholds hr
  refine ⟨Nat.le_refl _, Nat.zero_le _, Nat.lt_of_le_of_lt (hr.gas_le (invoke_gas_le d.system m)) hgas, ?_,
    ?_, ?_⟩
  . exact fun opInfo hmem => absurd hmem List.not_mem_nil
  . exact fun opInfo hmem => absurd hmem List.not_mem_nil
  . rw [hcollected]
    exact ⟨used, hholds⟩

theorem Schedule.add_eq {message : Message} {b : Schedule} (h : scheduleOf message = some b) {x y z : Nat}
    (hlt : x + y < 2 ^ 256)
    : b.add x y = .ok z ↔ z = x + y := by
  cases message with
  | handleOps ops beneficiary =>
    cases h
    have hadd : Yul.add x y = x + y := Yul.add_eq hlt
    change Except.ok (Yul.add x y) = .ok z ↔ _
    rw [hadd, Except.ok.injEq, eq_comm]
  | handleAggregatedOps opas beneficiary =>
    cases h
    change Solidity.add x y = .ok z ↔ _
    rw [Solidity.add_ok hlt, Except.ok.injEq, eq_comm]
  | _ => cases h

/-- Where a bundle stands when it comes to a turn. -/
theorem ComesTo.midway {n m : Nat} {b : Schedule} {turn : Turn} {s1 : State (Chain X)}
    (hself : msg.self = d.entryPoint) (hschedule : scheduleOf (decodeMessage d.cfg msg.message) = some b)
    (hsafe : d.Safe s.world) (hgas : s.gas < 2 ^ 64) (h : d.ComesTo n msg b s m turn p s1)
    : ∃ locked collected validated executed post, d.Midway locked collected validated executed p s1
        ∧ Ordered validated executed (turn :: post) := by
  obtain @⟨ledger, pre, post, p0, s0, t0, t1, _, hvalue, htransfer, hturns, h0, h1⟩ := h
  have hholds := hsafe.holds
  have hspare : d.Holds s.world.storage.entryPoint.books.accepted
      (if msg.caller = d.entryPoint then msg.value else 0) s.world.storage.entryPoint.books.locked
      s.world.storage.entryPoint.books.collected s.world := by
    rw [hvalue, ite_self]
    exact hholds
  have hbefore := hspare.transfer htransfer
  rw [hvalue, ite_self] at hbefore
  have hmidway := beforeTurns_midway (s := { s with world := { s.world with ledger := ledger } })
    hself hgas hbefore h0
  have hordered := ordered_of_schedule hschedule
  rw [hturns] at hordered
  obtain ⟨validated, executed, hmidway, hordered⟩ := hmidway.turns hself
    (fun x y z hlt hadd => (Schedule.add_eq hschedule hlt).mp hadd) hordered h1
  exact ⟨_, _, validated, executed, post, hmidway, hordered⟩

/-- What a prefund and a deposit come to fits a word. -/
theorem Holds.deposit_add_lt {w : World (Chain X)} {used : List (Address × Word)} {k : Nat}
    (h : d.Holds used k locked collected w) (account : Address) {prefund : Nat} (hle : prefund ≤ locked)
    : (w.storage.entryPoint.deposits account).deposit + prefund < Yul.wordSize := by
  have hdeposit := w.storage.entryPoint.deposit_le_owed account
  have hcovered := h.covered
  have hbalance := w.ledger.balance_lt d.entryPoint
  unfold Yul.wordSize
  omega

/-- Once the operations of a bundle are validated, the execution of one of them either goes through, for a
price that is settled, or it reverts the bundle because the bundler left too little gas. Only then, and
only if the cost exceeds the prefund, the inner call fails with one of the codes for these cases. -/
theorem execution_outcome {n m position : Nat} {b : Schedule} {s1 : State (Chain X)}
    (hself : msg.self = d.entryPoint) (hschedule : scheduleOf (decodeMessage d.cfg msg.message) = some b)
    (hpassed : d.Passed s.world) (hgas : s.gas < 2 ^ 64)
    (hcomes : d.ComesTo n msg b s m (.execution position op) p s1)
    : ∃ opInfo, p.opInfos[position]? = some opInfo
      ∧ (d.EntryPointStarves (invoke d.system m) msg (Turn.run d.cfg msg b.add p (.execution position op)) s1
        ∨ (LowGas msg.env opInfo s1
          ∧ d.EntryPointReverts (invoke d.system m) msg (Turn.run d.cfg msg b.add p (.execution position op)) s1
              (.failedOp position "AA95 out of gas"))
        ∨ ∃ cost s2 t, d.Returns (invoke d.system m) msg
            (Turn.run d.cfg msg b.add p (.execution position op)) s1
            { p with collected := p.collected + cost } s2 t
          ∧ Settlement msg op opInfo cost t)
      ∧ ∀ ret, (invoke d.system m (innerHandleOpFrame msg op opInfo) (innerState msg.env s1)).ok = false →
          (invoke d.system m (innerHandleOpFrame msg op opInfo) (innerState msg.env s1)).data = ret →
          (innerRevertCode ret = INNER_OUT_OF_GAS → LowGas msg.env opInfo s1)
          ∧ (innerRevertCode ret = INNER_REVERT_LOW_PREFUND → ∃ m' s2 mode actualGas cost s3 t,
              d.Returns (invoke d.system m') (innerHandleOpFrame msg op opInfo)
                (innerCost (innerHandleOpFrame msg op opInfo) (innerCallData op opInfo) opInfo opInfo.context)
                s2 (mode, actualGas, cost) s3 t
              ∧ opInfo.prefund < cost) := by
  obtain ⟨locked, collected, validated, executed, post, hmidway, hordered⟩ :=
    hcomes.midway hself hschedule hpassed.safe hgas
  obtain ⟨rfl, hlt, _⟩ := hordered
  obtain ⟨opInfo, hget⟩ : ∃ opInfo, p.opInfos[position]? = some opInfo :=
    ⟨_, List.getElem?_eq_getElem (Nat.lt_of_lt_of_le hlt hmidway.length)⟩
  have hpending := pending_cons hlt hget
  have hbounded := hmidway.bounded opInfo (by rw [hpending]; exact List.mem_cons_self)
  have hsender := hmidway.sender opInfo (by rw [hpending]; exact List.mem_cons_self)
  obtain ⟨used, hholds⟩ := hmidway.holds
  rw [hpending, List.map_cons, List.sum_cons, Nat.add_comm opInfo.prefund, ← Nat.add_assoc] at hholds
  have hdeposit := hholds.deposit_add_lt opInfo.mUserOp.payer (Nat.le_add_left opInfo.prefund _)
  refine ⟨opInfo, hget, ?_, ?_⟩
  . have hlift : lift (validateOps.getOpInfo p.opInfos position) = pure opInfo := by
      unfold validateOps.getOpInfo
      rw [hget]
      rfl
    unfold Turn.run
    dsimp only
    rw [hlift, pure_bind]
    rcases returns_or_reverts (executeUserOp msg position op opInfo) s1 with
      ⟨cost, s2, t, hreturns⟩ | ⟨data, hreverts⟩
    -- what is collected so far is backed by the balance, so that the sum does not wrap
    . have hkept := Sat.returns (executeUserOp_keeps (handles m) hself hsender) hholds hreturns
      have hfits := hkept.collected_lt
      have hadd : b.add p.collected cost = .ok (p.collected + cost) :=
        (Schedule.add_eq hschedule (by omega)).mpr rfl
      have hrest : d.Returns (invoke d.system m) msg (do
          let collected ← lift (b.add p.collected cost)
          return { p with collected := collected }) s2 { p with collected := p.collected + cost } s2 [] := by
        rw [hadd]
        rfl
      have hturn := hreturns.seq (f := fun paid => do
        let collected ← lift (b.add p.collected paid)
        return { p with collected := collected }) hrest
      rw [List.append_nil] at hturn
      exact .inr (.inr ⟨cost, s2, t, hturn, executeUserOp_returns hself (by omega) hreturns⟩)
    . rcases executeUserOp_reverts hself hmidway.gas hbounded hdeposit hreverts with hstarves | ⟨hlow, rfl⟩
      . exact .inl hstarves.first
      . exact .inr (.inl ⟨hlow, hreverts.first⟩)
  . intro ret hok hdata
    subst hdata
    refine ⟨innerCall_lowGas hself hmidway.gas hbounded hok, fun hcode => ?_⟩
    rcases invoke_innerHandleOp_failed hself hok with hzero | ⟨m', s2, _, hfailure⟩
    . rw [hzero] at hcode
      exact absurd hcode (by decide)
    . obtain ⟨mode, actualGas, cost, s3, t, hrest⟩ := hfailure.of_lowPrefund hcode
      exact ⟨m', s2, mode, actualGas, cost, s3, t, hrest⟩

/-- The account is called, and so is the paymaster that has paid for it. -/
theorem execution_outcome_mixedTx
    : ∃ p s1 p' s2 t opInfo cost,
        mixed.ComesTo 7 mixedTx.frame (.handleAggregatedOps mixedGroups) mixedStart 6
          (.execution 1 (paidOp 3 1)) p s1
        ∧ mixed.Returns (invoke mixed.system 6) mixedTx.frame
          (Turn.run mixed.cfg mixedTx.frame Solidity.add p (.execution 1 (paidOp 3 1))) s1 p' s2 t
        ∧ p.opInfos[1]? = some opInfo
        ∧ p'.collected = p.collected + cost
        ∧ Settlement mixedTx.frame (paidOp 3 1) opInfo cost t := by
  obtain ⟨p, s1, p', s2, t, hcomes, hreturns⟩ : ∃ p s1 p' s2 t,
      mixed.ComesTo 7 mixedTx.frame (.handleAggregatedOps mixedGroups) mixedStart 6
          (.execution 1 (paidOp 3 1)) p s1
        ∧ mixed.Returns (invoke mixed.system 6) mixedTx.frame
          (Turn.run mixed.cfg mixedTx.frame Solidity.add p (.execution 1 (paidOp 3 1))) s1 p' s2 t :=
    comesTo_of_reaches (b := .handleAggregatedOps mixedGroups) (i := 9) rfl rfl rfl (by decide +kernel)
  have hpassed : mixed.Passed mixedStart.world := .start mixedWorld_reachable
  obtain ⟨opInfo, hget, houtcome, _⟩ := execution_outcome rfl rfl hpassed (by decide +kernel) hcomes
  refine ⟨p, s1, p', s2, t, opInfo, ?_⟩
  rcases houtcome with hstarves | ⟨_, hreverts⟩ | ⟨cost, s3, t', hreturns', hsettlement⟩
  . exact absurd hstarves.reverts hreturns.not_reverts
  . exact absurd hreverts hreturns.not_reverts
  . obtain ⟨rfl, rfl, rfl⟩ := hreturns.unique hreturns'
    exact ⟨cost, hcomes, hreturns, hget, rfl, hsettlement⟩

end Deployment
