import FalconSmartAccount.EntryPoint.Validation

/-!
What the execution of an operation leaves in the trace of its bundle, if the bundle goes on.
-/

open Evm

namespace Deployment

open EntryPoint

variable {X : Type}

/-- What is left of the prefund goes back to who paid it. -/
def Credits (opInfo : UserOpInfo) (cost : Nat) (before after : World (Chain X)) : Prop :=
  cost ≤ opInfo.prefund
    ∧ after = before.write Chain.entryPointPart fun s =>
        (s.setDeposit opInfo.mUserOp.payer
          ((before.storage.entryPoint.deposits opInfo.mUserOp.payer).deposit + (opInfo.prefund - cost))).note
          (Books.settle opInfo.prefund cost)

/-- Nothing is left of the prefund, and no deposit changes. -/
def Charges (opInfo : UserOpInfo) (before after : World (Chain X)) : Prop :=
  after = before.write Chain.entryPointPart fun s =>
    s.note (Books.settle opInfo.prefund opInfo.prefund)

def userOperationEvent (opInfo : UserOpInfo) (success : Bool) (cost actualGas : Nat) : Log :=
  .userOperationEvent opInfo.userOpHash opInfo.mUserOp.sender opInfo.mUserOp.paymaster
    opInfo.mUserOp.nonce success cost actualGas

/-- The last events of an operation, which costs `cost`. -/
inductive Settled (opInfo : UserOpInfo) : Bool → Nat → Chain.Trace X → Prop where
  | credit {success cost actualGas before after} :
      Credits opInfo cost before after →
      Settled opInfo success cost
        [.sstore before after, .log (userOperationEvent opInfo success cost actualGas)]
  | charge {actualGas before after} :
      Charges opInfo before after →
      Settled opInfo false opInfo.prefund
        [.sstore before after,
          .log (.userOperationPrefundTooLow opInfo.userOpHash opInfo.mUserOp.sender
            opInfo.mUserOp.nonce),
          .log (userOperationEvent opInfo false opInfo.prefund actualGas)]

section

variable (msg : Frame Message)

/-- The call of the account, and whether the operation counts as successful. -/
inductive AccountCall (callData : CallData) (opInfo : UserOpInfo) : Bool → Chain.Trace X → Prop where
  | none : callData.isEmpty = true → AccountCall callData opInfo true []
  | call {before after ok ret body} :
      AccountCall callData opInfo ok
        [.call ⟨opInfo.mUserOp.sender, msg.self, 0, callData.message, msg.env⟩ before after ok ret body]
  | reason {before after ret body} :
      AccountCall callData opInfo false
        [.call ⟨opInfo.mUserOp.sender, msg.self, 0, callData.message, msg.env⟩ before after false ret body,
          .log (.userOperationRevertReason opInfo.userOpHash opInfo.mUserOp.sender
            opInfo.mUserOp.nonce ret.getReturnData)]

/-- The call of the paymaster after the execution. -/
inductive PostOpCall (opInfo : UserOpInfo) : Chain.Trace X → Prop where
  | none : PostOpCall opInfo []
  | call {mode context cost price before after ret body} :
      PostOpCall opInfo
        [.call ⟨opInfo.mUserOp.paymaster, msg.self, 0, .postOp mode context cost price, msg.env⟩
          before after true ret body]

def innerHandleOpFrame (op : PackedUserOperation) (opInfo : UserOpInfo) : Frame Message :=
  ⟨msg.self, msg.self, 0, .innerHandleOp (innerCallData op opInfo) opInfo opInfo.context, msg.env⟩

/-- The trace of an operation that is executed and settled. Either the inner call does both, or it is
rolled back, whatever the account did, and the operation is settled as a failed one. -/
inductive Settlement (op : PackedUserOperation) (opInfo : UserOpInfo)
    : Nat → Chain.Trace X → Prop where
  | inner {success cost w before after ta tp ts} :
      AccountCall (innerHandleOpFrame msg op opInfo) (innerCallData op opInfo) opInfo success ta →
      PostOpCall (innerHandleOpFrame msg op opInfo) opInfo tp →
      Settled opInfo success cost ts →
      Settlement op opInfo cost
        [.call (innerHandleOpFrame msg op opInfo) before after true (.words [cost])
          (.enter w :: (ta ++ tp ++ ts))]
  | lowPrefund {cost before ret body ts} :
      Settled opInfo false cost ts →
      Settlement op opInfo cost (.call (innerHandleOpFrame msg op opInfo) before before false ret body :: ts)
  | postOpReverted {cost before ret body ts} :
      Settled opInfo false cost ts →
      Settlement op opInfo cost
        (.call (innerHandleOpFrame msg op opInfo) before before false ret body
          :: .log (.postOpRevertReason opInfo.userOpHash opInfo.mUserOp.sender opInfo.mUserOp.nonce
            ret.getReturnData)
          :: ts)

end

/-! ## Runs -/

variable {d : Deployment X} {msg : Frame Message}
  {inv : Frame Message → State (Chain X) → Reply (Chain X) Message ReturnData Log}
  {s s' : State (Chain X)} {t : Chain.Trace X} {op : PackedUserOperation} {opInfo : UserOpInfo}
  {cost : Nat}

theorem chargePrefund_returns {actualGas : Nat}
    (h : d.Returns inv msg (chargePrefund opInfo actualGas) s cost s' t)
    : Settled opInfo false cost t := by
  obtain ⟨s1, t1, _, ht, h⟩ := h.bind_sstore
  obtain ⟨s2, t2, _, ht1, h⟩ := h.bind_emit
  obtain ⟨s3, t3, _, ht2, h⟩ := h.bind_emit
  obtain ⟨hcost, _, ht3⟩ := h.pure
  rw [ht, ht1, ht2, ht3, hcost]
  exact .charge rfl

theorem incrementDeposit_returns {account : Address} {amount n : Nat} {f : Books → Books}
    (h : d.Returns inv msg (incrementDeposit account amount f) s n s' t)
    : ∃ before : World (Chain X), t = [.sstore before (before.write Chain.entryPointPart fun s =>
        (s.setDeposit account
          ((before.storage.entryPoint.deposits account).deposit + amount)).note f)] := by
  obtain ⟨s1, hw, h⟩ := h.bind_sload
  obtain ⟨newAmount, hnew, h⟩ := Returns.bind_lift h
  obtain ⟨s2, t1, _, ht, h⟩ := h.bind_sstore
  obtain ⟨_, _, ht1⟩ := h.pure
  refine ⟨s1.world, ?_⟩
  rw [ht, ht1, Solidity.eq_of_add hnew, hw]
  rfl

theorem callPostOp_returns {mode : PostOpMode} {context : Bytes} {actualGasCost gasPrice : Nat}
    {u : Unit}
    (h : d.Returns inv msg (callPostOp mode opInfo.mUserOp context actualGasCost gasPrice) s u s' t)
    : PostOpCall msg opInfo t ∧ (mode = .postOpReverted → t = []) := by
  unfold callPostOp at h
  split at h
  . rw [h.pure.2.2]
    exact ⟨.none, fun _ => rfl⟩
  . next hne =>
    obtain ⟨_, s1, t1, t2, h1, h, ht⟩ := h.bind
    obtain ⟨s2, _, h1⟩ := h1.bind_codeLength
    obtain ⟨_, _, ht1⟩ := h1.require
    obtain ⟨r, s3, s4, s5, body, t3, _, _, _, ht2, h⟩ := h.bind_call
    obtain ⟨hsuccess, _, ht3⟩ := h.require
    rw [ht, ht1, ht2, ht3, hsuccess]
    exact ⟨.call, fun hmode => absurd (.inr (.inr hmode)) hne⟩

theorem postExecution_returns {mode : PostOpMode} {context : Bytes} {actualGas : Nat}
    (h : d.Returns inv msg (postExecution msg mode opInfo context actualGas) s cost s' t)
    : ∃ tp ts, t = tp ++ ts ∧ PostOpCall msg opInfo tp ∧ (mode = .postOpReverted → tp = [])
        ∧ Settled opInfo (mode == .opSucceeded) cost ts := by
  obtain ⟨preGas, s1, _, h⟩ := h.bind_gasleft
  obtain ⟨_, s2, tp, t1, hpost, h, ht⟩ := h.bind
  obtain ⟨hcall, hnil⟩ := callPostOp_returns hpost
  obtain ⟨gas, s3, _, h⟩ := h.bind_gasleft
  refine ⟨tp, t1, ht, hcall, hnil, ?_⟩
  dsimp only at h
  split at h
  . split at h
    . next hmode =>
      rw [hmode]
      exact chargePrefund_returns h
    . exact absurd h Evm.Returns.not_revert
  . next hle =>
    obtain ⟨n, s4, t2, t3, hinc, h, ht1⟩ := h.bind
    obtain ⟨before, ht2⟩ := incrementDeposit_returns hinc
    obtain ⟨s5, t4, _, ht3, h⟩ := h.bind_emit
    obtain ⟨hcost, _, ht4⟩ := h.pure
    rw [ht1, ht2, ht3, ht4, ← hcost]
    rw [← hcost] at hle
    exact .credit ⟨Nat.le_of_not_lt hle, rfl⟩

theorem callAccount_returns {callData : CallData} {mode : PostOpMode}
    (h : d.Returns inv msg (callAccount callData opInfo) s mode s' t)
    : AccountCall msg callData opInfo (mode == .opSucceeded) t := by
  unfold callAccount at h
  split at h
  . next hempty =>
    obtain ⟨rfl, _, rfl⟩ := h.pure
    exact .none hempty
  . obtain ⟨r, s1, s2, s3, body, t1, _, _, _, ht, h⟩ := h.bind_call
    dsimp only at h
    split at h
    . next hsuccess =>
      obtain ⟨hmode, _, ht1⟩ := h.pure
      rw [ht, ht1, hmode, hsuccess]
      exact .call
    . next hsuccess =>
      rw [Bool.not_eq_true] at hsuccess
      split at h
      . obtain ⟨s4, t2, _, ht1, h⟩ := h.bind_emit
        obtain ⟨hmode, _, ht2⟩ := h.pure
        rw [ht, ht1, ht2, hmode, hsuccess]
        exact .reason
      . obtain ⟨hmode, _, ht1⟩ := h.pure
        rw [ht, ht1, hmode, hsuccess]
        exact .call

theorem innerHandleOp_returns {callData : CallData} {context : Bytes} {ret : ReturnData}
    (h : d.Returns inv msg (innerHandleOp msg callData opInfo context) s ret s' t)
    : ∃ success cost ta tp ts, ret = .words [cost] ∧ t = ta ++ tp ++ ts
        ∧ AccountCall msg callData opInfo success ta ∧ PostOpCall msg opInfo tp
        ∧ Settled opInfo success cost ts := by
  obtain ⟨preGas, s1, _, h⟩ := h.bind_gasleft
  obtain ⟨_, h⟩ := h.bind_require
  obtain ⟨gas, s2, _, h⟩ := h.bind_gasleft
  obtain ⟨_, h⟩ := h.bind_require
  obtain ⟨mode, s3, ta, t1, hcall, h, ht⟩ := h.bind
  obtain ⟨gas', s4, _, h⟩ := h.bind_gasleft
  obtain ⟨cost, s5, t2, t3, hpost, h, ht1⟩ := h.bind
  obtain ⟨hret, _, ht3⟩ := h.pure
  obtain ⟨tp, ts, ht2, hpostOp, _, hsettled⟩ := postExecution_returns hpost
  refine ⟨_, cost, ta, tp, ts, hret, ?_, callAccount_returns hcall, hpostOp, hsettled⟩
  rw [ht, ht1, ht2, ht3, List.append_nil, List.append_assoc]

/-- A call of `innerHandleOp` that returns. -/
theorem invoke_innerHandleOp {m : Nat} {ret : ReturnData} {s2 : State (Chain X)}
    {body : Chain.Trace X} (hself : msg.self = d.entryPoint)
    (h : invoke d.system m (innerHandleOpFrame msg op opInfo) s = ⟨true, ret, s2, body⟩)
    : ∃ success cost w ta tp ts, ret = .words [cost] ∧ body = .enter w :: (ta ++ tp ++ ts)
        ∧ AccountCall (innerHandleOpFrame msg op opInfo) (innerCallData op opInfo) opInfo success ta
        ∧ PostOpCall (innerHandleOpFrame msg op opInfo) opInfo tp
        ∧ Settled opInfo success cost ts := by
  have hok : (invoke d.system m (innerHandleOpFrame msg op opInfo) s).ok = true := by rw [h]
  have hself' : (innerHandleOpFrame msg op opInfo).self = d.entryPoint := hself
  obtain ⟨m', _, s1, t1, _, hrun, hbody⟩ := invoke_entryPoint_ok hself' hok
  rw [h] at hrun hbody
  obtain ⟨_, hrun⟩ := hrun.bind_require
  obtain ⟨success, cost, ta, tp, ts, hret, ht, hcall, hpost, hsettled⟩ := innerHandleOp_returns hrun
  exact ⟨success, cost, s1.world, ta, tp, ts, hret, by rw [← ht]; exact hbody, hcall, hpost, hsettled⟩

theorem gasSince_returns {preGas n : Nat} (h : d.Returns inv msg (gasSince preGas opInfo) s n s' t)
    : t = [] ∧ opInfo.preOpGas ≤ n ∧ n ≤ preGas + opInfo.preOpGas := by
  obtain ⟨gas, s1, _, h⟩ := h.bind_gasleft
  obtain ⟨used, hused, h⟩ := Returns.bind_lift h
  have hle : used ≤ preGas := by
    unfold Solidity.sub at hused
    split at hused
    . cases hused
      exact Nat.sub_le _ _
    . cases hused
  cases hadd : Solidity.add used opInfo.preOpGas with
  | ok a =>
    rw [hadd] at h
    obtain ⟨rfl, _, ht⟩ := h.pure
    have := Solidity.eq_of_add hadd
    exact ⟨ht, by omega, by omega⟩
  | error e =>
    rw [hadd] at h
    exact absurd h Evm.Returns.not_revert

theorem Settled.cost_le {success : Bool} (h : Settled opInfo success cost t) : cost ≤ opInfo.prefund := by
  cases h with
  | credit h => exact h.1
  | charge _ => exact Nat.le_refl _

theorem Settled.write {success : Bool} {before after : World (Chain X)} (h : Settled opInfo success cost t)
    (hmem : .sstore before after ∈ t)
    : Credits opInfo cost before after ∨ Charges opInfo before after := by
  cases h with
  | credit h =>
    simp only [List.mem_cons, Event.sstore.injEq, reduceCtorEq, List.not_mem_nil, or_false] at hmem
    rw [hmem.1, hmem.2]
    exact .inl h
  | charge h =>
    simp only [List.mem_cons, Event.sstore.injEq, reduceCtorEq, List.not_mem_nil, or_false] at hmem
    rw [hmem.1, hmem.2]
    exact .inr h

/-- The only writes of an inner call are those of its settlement. -/
theorem Settled.innerWrite {callData : CallData} {success : Bool} {ta tp ts : Chain.Trace X}
    {before after : World (Chain X)} (h : Settled opInfo success cost ts)
    (hcall : AccountCall msg callData opInfo success ta) (hpost : PostOpCall msg opInfo tp)
    (hmem : .sstore before after ∈ ta ++ tp ++ ts)
    : Credits opInfo cost before after ∨ Charges opInfo before after := by
  rcases List.mem_append.mp hmem with hmem | hmem
  . cases hcall <;> cases hpost <;> simp at hmem
  . exact h.write hmem

theorem executeUserOp_returns {m opIndex : Nat} (hself : msg.self = d.entryPoint)
    (hprefund : opInfo.prefund < Yul.wordSize)
    (h : d.Returns (invoke d.system m) msg (executeUserOp msg opIndex op opInfo) s cost s' t)
    : Settlement msg op opInfo cost t := by
  obtain ⟨preGas, s1, _, h⟩ := h.bind_gasleft
  obtain ⟨⟨success, ret⟩, s2, s3, s4, body, t1, hw, _, hinvoke, ht, h⟩ := h.bind_call
  cases success with
  | true =>
    obtain ⟨hcost, _, ht1⟩ := h.pure
    obtain ⟨success, cost', w, ta, tp, ts, rfl, rfl, hcall, hpost, hsettled⟩ :=
      invoke_innerHandleOp hself hinvoke
    have hbytes : (ReturnData.words [cost']).toBytes = Abi.wordBytes cost' := List.append_nil _
    rw [hbytes, Abi.wordAt_wordBytes (Nat.lt_of_le_of_lt hsettled.cost_le hprefund)] at hcost
    rw [ht, ht1, hcost]
    exact .inner hcall hpost hsettled
  | false =>
    have hworld : s3.world = s1.world := by
      have hstate := congrArg Reply.state hinvoke
      have hfailed := invoke_failed d.system (congrArg Reply.ok hinvoke)
      rw [hstate] at hfailed
      exact hfailed.trans hw
    rw [ht, hworld]
    dsimp only at h
    split at h
    . next hsuccess => cases hsuccess
    . split at h
      . exact absurd h Evm.Returns.not_revert
      . split at h
        . obtain ⟨actualGas, s5, t2, t3, hgas, h, ht1⟩ := h.bind
          rw [ht1, (gasSince_returns hgas).1]
          exact .lowPrefund (chargePrefund_returns h)
        . obtain ⟨s5, t2, _, ht1, h⟩ := h.bind_emit
          obtain ⟨actualGas, s6, t3, t4, hgas, h, ht2⟩ := h.bind
          obtain ⟨tp, ts, ht4, _, hnil, hsettled⟩ := postExecution_returns h
          rw [ht1, ht2, (gasSince_returns hgas).1, ht4, hnil rfl]
          exact .postOpReverted hsettled

end Deployment
