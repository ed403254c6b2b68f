import FalconSmartAccount.EntryPoint.Stake

/-!
Who can spend a deposit: its owner, or a bundle with an operation that its owner has agreed to pay for.
-/

open Evm

namespace Deployment

open EntryPoint

variable {X : Type} {d : Deployment X} {msg : Frame Message} {t : Chain.Trace X}
  {before after : World (Chain X)} {account : Address} {amount : Nat}

/-- A call of the entry point spends `amount` of the deposit of `account`, which it is entitled to by
what the call does. -/
inductive Spends (d : Deployment X) (msg : Frame Message) (t : Chain.Trace X) (account : Address)
    : Nat → Prop where
  | withdrawTo {withdrawAddress amount} :
      d.Asks msg account (.withdrawTo withdrawAddress amount) → Spends d msg t account amount
  /-- The account has agreed to an operation of its own without a paymaster. -/
  | sender {opas beneficiary aggregator op mUserOp} :
      msg.self = d.entryPoint → bundleOf (decodeMessage d.cfg msg.message) = some (opas, beneficiary) →
      (aggregator, op) ∈ UserOpsPerAggregator.flatten opas → copyUserOpToMemory op = some mUserOp →
      mUserOp.paymaster = 0 → op.sender = account → d.AccountAgrees msg aggregator op t →
      Spends d msg t account (getRequiredPrefund mUserOp)
  /-- The account has agreed to be the paymaster of an operation. -/
  | paymaster {opas beneficiary aggregator op mUserOp context} :
      msg.self = d.entryPoint → bundleOf (decodeMessage d.cfg msg.message) = some (opas, beneficiary) →
      (aggregator, op) ∈ UserOpsPerAggregator.flatten opas → copyUserOpToMemory op = some mUserOp →
      account ≠ 0 → mUserOp.paymaster = account → d.PaymasterAgrees msg op mUserOp context t →
      Spends d msg t account (getRequiredPrefund mUserOp)

theorem Spends.mono {t' : Chain.Trace X} (h : Spends d msg t account amount) (hsub : ∀ e ∈ t, e ∈ t')
    : Spends d msg t' account amount := by
  cases h with
  | withdrawTo hasks => exact .withdrawTo hasks
  | sender hself hopas hop hmUserOp hnone hsender hagrees =>
    exact .sender hself hopas hop hmUserOp hnone hsender (hagrees.mono hsub)
  | paymaster hself hopas hop hmUserOp hne hpaymaster hagrees =>
    exact .paymaster hself hopas hop hmUserOp hne hpaymaster (hagrees.mono hsub)

/-- No deposit gets smaller, but by an amount that the frame is entitled to spend. -/
def DepositWrite (d : Deployment X) (msg : Frame Message) (t : Chain.Trace X)
    (before after : World (Chain X)) : Prop :=
  ∀ account, (infoOf before account).deposit ≤ (infoOf after account).deposit
    ∨ ∃ amount, Spends d msg t account amount
      ∧ (infoOf before account).deposit = (infoOf after account).deposit + amount

namespace DepositWrite

theorem of_deposits (h : after.storage.entryPoint.deposits = before.storage.entryPoint.deposits)
    : DepositWrite d msg t before after := by
  intro account
  unfold infoOf
  rw [h]
  exact .inl (Nat.le_refl _)

/-- A write of one deposit. -/
theorem setDeposit {deposit : Nat} {f : Books → Books}
    (h : after = before.write Chain.entryPointPart fun s => (s.setDeposit account deposit).note f)
    (hdeposit : (infoOf before account).deposit ≤ deposit
      ∨ ∃ amount, Spends d msg t account amount ∧ (infoOf before account).deposit = deposit + amount)
    : DepositWrite d msg t before after := by
  intro account'
  have hinfo : infoOf after account' = Function.update before.storage.entryPoint.deposits account
      { infoOf before account with deposit := deposit } account' := by
    rw [h]
    rfl
  rw [hinfo, Function.update_apply]
  split
  . next heq =>
    rw [heq]
    exact hdeposit
  . exact .inl (Nat.le_refl _)

theorem setInfo {info : Storage → DepositInfo}
    (hdeposit : (info before.storage.entryPoint).deposit = (infoOf before account).deposit)
    : DepositWrite d msg t before
        (before.write Chain.entryPointPart fun s => s.setInfo account (info s)) := by
  intro account'
  have hinfo : infoOf (before.write Chain.entryPointPart fun s => s.setInfo account (info s)) account'
      = Function.update before.storage.entryPoint.deposits account (info before.storage.entryPoint)
          account' := rfl
  rw [hinfo, Function.update_apply]
  split
  . next heq =>
    rw [heq, hdeposit]
    exact .inl (Nat.le_refl _)
  . exact .inl (Nat.le_refl _)

/-- The prefund of an operation, whoever pays it. -/
theorem locks {opas : List UserOpsPerAggregator} {beneficiary aggregator : Address}
    {op : PackedUserOperation} {opInfo : UserOpInfo} {t' : Chain.Trace X} (hself : msg.self = d.entryPoint)
    (hopas : bundleOf (decodeMessage d.cfg msg.message) = some (opas, beneficiary))
    (hop : (aggregator, op) ∈ UserOpsPerAggregator.flatten opas)
    (hvalidation : d.Validation msg aggregator op opInfo t') (hsub : ∀ e ∈ t', e ∈ t)
    (h : Locks opInfo.mUserOp.payer (getRequiredPrefund opInfo.mUserOp) before after)
    : DepositWrite d msg t before after := by
  obtain ⟨hle, hafter⟩ := h
  have hvalidated : Validated d msg aggregator op opInfo t :=
    (Validated.mk hvalidation.mUserOp hvalidation.userOpHash hvalidation.account
      hvalidation.paymaster).mono hsub
  refine setDeposit hafter (.inr ⟨getRequiredPrefund opInfo.mUserOp, ?_, (Nat.sub_add_cancel hle).symm⟩)
  unfold MemoryUserOp.payer
  split
  . next hnone =>
    obtain ⟨hsender, _⟩ := copyUserOpToMemory_eq hvalidated.mUserOp
    exact .sender hself hopas hop hvalidated.mUserOp hnone hsender.symm hvalidated.account
  . next hsome =>
    exact .paymaster hself hopas hop hvalidated.mUserOp hsome rfl (hvalidated.paymaster hsome)

end DepositWrite

theorem Bundling.depositWrite {opas : List UserOpsPerAggregator} {beneficiary : Address}
    {opInfos : List UserOpInfo} (hself : msg.self = d.entryPoint)
    (hopas : bundleOf (decodeMessage d.cfg msg.message) = some (opas, beneficiary))
    (h : Bundling d msg opas beneficiary opInfos t (.sstore before after))
    : DepositWrite d msg t before after := by
  cases h with
  | guards h =>
    obtain ⟨entered, rfl⟩ := h
    exact .of_deposits rfl
  | @validating aop opInfo t' _ hmem hop ht he =>
    cases hop.events _ he with
    | locks h =>
      exact .locks hself hopas (List.of_mem_zip hmem).1 hop (fun e he => ht.subset he) h
    | accepts h =>
      rw [h.2]
      exact .of_deposits rfl
  | credits h => exact .setDeposit h.2 (.inl (Nat.le_add_right _ _))
  | charges h =>
    cases h
    exact .of_deposits rfl
  | pays h =>
    cases h
    exact .of_deposits rfl

theorem Effect.depositWrite (hself : msg.self = d.entryPoint)
    (h : Effect d msg (decodeMessage d.cfg msg.message) t) (hmem : .sstore before after ∈ t)
    : DepositWrite d msg t before after := by
  generalize hmessage : decodeMessage d.cfg msg.message = message at h
  cases h with
  | deposit hreceived =>
    simp only [List.mem_cons, Event.sstore.injEq, reduceCtorEq, List.not_mem_nil, or_false] at hmem
    obtain ⟨rfl, rfl⟩ := hmem
    exact .setDeposit rfl (.inl (Nat.le_add_right _ _))
  | addStake | unlockStake | withdrawStake =>
    simp only [List.mem_cons, Event.sstore.injEq, reduceCtorEq, List.not_mem_nil, or_false] at hmem
    obtain ⟨rfl, rfl⟩ := hmem
    exact .setInfo rfl
  | withdrawTo hle =>
    simp only [List.mem_cons, Event.sstore.injEq, reduceCtorEq, List.not_mem_nil, or_false] at hmem
    obtain ⟨rfl, rfl⟩ := hmem
    refine .setDeposit (f := id) rfl (.inr ⟨_, .withdrawTo ⟨hself, rfl, hmessage⟩, ?_⟩)
    exact (Nat.sub_add_cancel hle).symm
  | incrementNonce =>
    cases List.mem_singleton.mp hmem
    exact .of_deposits rfl
  | view => exact absurd hmem List.not_mem_nil
  | bundle hopas hbundle _ =>
    rw [← hmessage] at hopas
    exact (hbundle.bundling _ hmem).depositWrite hself hopas
  | inner _ hcall hpost hsettled =>
    rcases hsettled.innerWrite hcall hpost hmem with h | h
    . exact .setDeposit h.2 (.inl (Nat.le_add_right _ _))
    . cases h
      exact .of_deposits rfl

theorem invoke_depositWrite {n : Nat} {frame : Frame Message} {s : State (Chain X)}
    (hok : (invoke d.system n frame s).ok = true)
    (hmem : .sstore before after ∈ (invoke d.system n frame s).body)
    : DepositWrite d frame (invoke d.system n frame s).body before after := by
  by_cases hself : frame.self = d.entryPoint
  . obtain ⟨w, t, _, hbody, heffect⟩ := invoke_effect hself hok
    rw [hbody] at hmem ⊢
    have hwrite := heffect.depositWrite hself ((List.mem_cons.mp hmem).resolve_left fun h => by cases h)
    intro account
    rcases hwrite account with hle | ⟨amount, hspends, heq⟩
    . exact .inl hle
    . exact .inr ⟨amount, hspends.mono fun e he => List.mem_cons_of_mem _ he, heq⟩
  . exact .of_deposits (congrArg Storage.deposits (invoke_other_sstore hself hok hmem))

/-- What the writes take from the deposit of an account, one after the other. -/
def spent (account : Address) (ws : List (Write (Chain X) Message ReturnData Log)) : List Nat :=
  ws.map fun v => (infoOf v.before account).deposit - (infoOf v.after account).deposit

theorem deposit_le_spent {part part' : Address → DepositInfo}
    {ws : List (Write (Chain X) Message ReturnData Log)} (h : Chained depositsPart part ws part')
    (account : Address)
    : (part account).deposit ≤ (part' account).deposit + (spent account ws).sum := by
  induction h with
  | nil => exact Nat.le_refl _
  | @cons v part' ws _ ih =>
    unfold spent at ih ⊢
    rw [List.map_cons, List.sum_cons]
    change (infoOf v.after account).deposit ≤ _ at ih
    change (infoOf v.before account).deposit ≤ _
    omega

/-- A transaction takes no more from a deposit than its writes do, each of which either takes nothing or
what it is entitled to. Only a withdrawal by the account itself takes from its stake. -/
theorem spends_of_decrease (depth : Nat) (tx : Transaction Message) (w : World (Chain X))
    (account : Address)
    : (infoOf w account).deposit
          ≤ (infoOf (execute d.system depth tx w).state.world account).deposit
            + (spent account (d.committedWrites depth tx w)).sum
      ∧ ∀ v ∈ d.committedWrites depth tx w,
        ((infoOf v.after account).deposit < (infoOf v.before account).deposit →
          Spends d v.frame v.body account
            ((infoOf v.before account).deposit - (infoOf v.after account).deposit))
        ∧ ((infoOf v.after account).stake < (infoOf v.before account).stake →
          ∃ withdrawAddress, d.Asks v.frame account (.withdrawStake withdrawAddress)) := by
  refine ⟨deposit_le_spent (committedWrites_chained depositsPart depth tx rfl) account, ?_⟩
  intro v hv
  obtain ⟨_, n, s, hok, hbody, hmem⟩ := of_committedWrites hv
  rw [← hbody] at hmem ⊢
  constructor
  . intro hlt
    rcases invoke_depositWrite hok hmem account with hle | ⟨amount, hspends, heq⟩
    . exact absurd hle (Nat.not_le.mpr hlt)
    . rw [heq, Nat.add_sub_cancel_left]
      exact hspends
  . intro hlt
    rcases invoke_stakeWrite hok hmem account with ⟨hsame, _⟩ | ⟨hself, hcaller, hstep⟩
    . exact absurd hsame.stake.symm.le (Nat.not_le.mpr hlt)
    . generalize hmessage : decodeMessage d.cfg v.frame.message = message at hstep
      by_contra hnone
      obtain ⟨_, hle⟩ := hstep.le fun withdrawAddress heq =>
        hnone ⟨withdrawAddress, hself, hcaller.symm, hmessage.trans heq⟩
      exact absurd hle (Nat.not_le.mpr hlt)

end Deployment
