import FalconSmartAccount.EntryPoint.Deposits
import FalconSmartAccount.Paymaster.Sponsorship

/-!
Who can spend what a paymaster has at the entry point: its owner, and operations that it has agreed to
pay for.
-/

open Evm

namespace PaymasterDeployment

open BasePaymaster (Storage Function Effect Context encodeContext)
open Residence (residentPart residentOf)
open DepositInfo (SameStake)

variable {S Y : Type}

section

variable (f : PaymasterDeployment S Y)

/-- The call is made by the function of the paymaster that its owner has called for it. -/
def OwnerAsked (t : Chain.Trace (Storage S × Y)) (asked : Frame Message) : Prop :=
  ∃ frame before after ret body function,
    Committed (.call frame before after true ret body) t ∧ frame.self = f.paymaster
      ∧ frame.caller = (residentOf before).owner
      ∧ BasePaymaster.decodeMessage f.paymasterCfg frame.message = some function
      ∧ function.asks = some asked.message
      ∧ ∃ before' after' ret' body', .call asked before' after' true ret' body' ∈ body

/-- The paymaster has agreed in the bundle to pay this much. -/
def Agreed (bundle : Frame Message) (t : Chain.Trace (Storage S × Y)) (amount : Nat) : Prop :=
  ∃ op mUserOp, f.Sponsors bundle op mUserOp ∧ amount = EntryPoint.getRequiredPrefund mUserOp
    ∧ ∃ (context : Context) (validationData : Word), ∃ before after body,
        .call (f.validationFrame bundle op mUserOp) before after true
          (.bytes (encodeContext context.1 validationData)) body ∈ t
        ∧ EntryPoint.getValidationData bundle.env.timestamp validationData.toNat = (0, false)

end

variable {f : PaymasterDeployment S Y} {depth : Nat} {tx : Transaction Message} {frame : Frame Message}
  {w before after : World (Chain (Storage S × Y))} {ret : ReturnData} {body : Chain.Trace (Storage S × Y)}
  {amount : Nat} {message : Message}

/-- A call of the entry point by the paymaster that changes more than a deposit for it. -/
theorem ownerAsked_of_asks (hquiet : f.paymasterCfg.Quiet) (htx : tx.origin ≠ f.paymaster)
    (hcommitted : Committed (.call frame before after true ret body) (f.deployment.happens depth tx w))
    (hasks : f.deployment.Asks frame f.paymaster message) (hdeposit : ∀ account, message ≠ .depositTo account)
    (hview : ∀ view, message ≠ .entryPointView view)
    : f.OwnerAsked (f.deployment.happens depth tx w) frame := by
  obtain ⟨hself, hcaller, hmessage⟩ := hasks
  rcases hcommitted.frame with hmem | ⟨outer, before', after', ret', body', houter, hmem⟩
  . injection List.mem_singleton.mp hmem with heq
    rw [heq] at hcaller
    exact absurd hcaller htx
  obtain ⟨_, m, s1, _, _, _, _, hbody⟩ := houter.invoked f.system
  have hcall := hmem
  rw [← hbody] at hcall
  have houterSelf : outer.self = f.paymaster := by
    rw [← (invoke_call f.system hcall).1]
    exact hcaller
  obtain ⟨function, w1, t, hfunction, rfl, heffect⟩ := committed_paymaster houter houterSelf
  have hmem' := (List.mem_cons.mp hmem).resolve_left fun h => by cases h
  rcases heffect.calls hquiet hmem' (hself.trans f.entryPoint_eq.symm) with ⟨howner, hasked⟩ | heq | ⟨view, heq⟩
  . exact ⟨outer, before', after', ret', _, function, houter, houterSelf, howner, hfunction, hasked, before,
      after, ret, body, hmem⟩
  . rw [heq] at hmessage
    exact absurd hmessage.symm (hdeposit _)
  . rw [heq] at hmessage
    exact absurd hmessage.symm (hview _)

theorem withdrawTo_or_agreed (hquiet : f.paymasterCfg.Quiet) (htx : tx.origin ≠ f.paymaster)
    (hcommitted : Committed (.call frame before after true ret body) (f.deployment.happens depth tx w))
    (h : Deployment.Spends f.deployment frame body f.paymaster amount)
    : f.OwnerAsked (f.deployment.happens depth tx w) frame
          ∧ (∃ withdrawAddress,
            EntryPoint.decodeMessage f.cfg frame.message = .withdrawTo withdrawAddress amount)
        ∨ f.Agreed frame body amount := by
  cases h with
  | @withdrawTo withdrawAddress _ hasks =>
    refine .inl ⟨?_, withdrawAddress, hasks.2.2⟩
    exact ownerAsked_of_asks hquiet htx hcommitted hasks (fun _ => Message.noConfusion)
      fun _ => Message.noConfusion
  | sender _ _ _ _ _ hsender hagrees =>
    -- the paymaster has no function that could agree as an account
    obtain ⟨missing, ret', _, ⟨before', after', body', hcall⟩, _⟩ := hagrees
    exact absurd (hcommitted.trans (.here hcall)) (not_committed hsender rfl)
  | @paymaster opas beneficiary aggregator op mUserOp context hself hopas hop hmUserOp _ hpaymaster hagrees =>
    apply Or.inr
    obtain ⟨ret', validationData, ⟨before', after', body', hcall⟩, hdecode, hdata⟩ := hagrees
    have hself' : frame.self = f.entryPoint := hself
    rw [hpaymaster, hself'] at hcall
    obtain ⟨context', validationData', hret, _, hdata'⟩ :=
      returned_context (hcommitted.trans (.here hcall)) hdecode
    rw [hret] at hcall
    rw [← hdata'] at hdata
    exact ⟨op, mUserOp, ⟨hself, hmUserOp, hpaymaster, opas, beneficiary, aggregator, hopas, hop⟩, rfl, context',
      validationData', before', after', body', hcall, hdata⟩

/-- What a transaction takes from the deposit of the paymaster is withdrawn by its owner or the prefund of
an operation that it has agreed to pay for. Its stake is changed by its owner only, and so is its owner. -/
theorem funds_guarded (hquiet : f.paymasterCfg.Quiet) (htx : tx.origin ≠ f.paymaster)
    : (Deployment.infoOf w f.paymaster).deposit
          ≤ (Deployment.infoOf (execute f.system depth tx w).state.world f.paymaster).deposit
            + (Deployment.spent f.paymaster (f.deployment.committedWrites depth tx w)).sum
      ∧ (∀ v ∈ f.deployment.committedWrites depth tx w,
          ((Deployment.infoOf v.after f.paymaster).deposit < (Deployment.infoOf v.before f.paymaster).deposit →
            f.OwnerAsked (f.deployment.happens depth tx w) v.frame
                ∧ (∃ withdrawAddress,
                  EntryPoint.decodeMessage f.cfg v.frame.message = .withdrawTo withdrawAddress
                    ((Deployment.infoOf v.before f.paymaster).deposit
                      - (Deployment.infoOf v.after f.paymaster).deposit))
              ∨ f.Agreed v.frame v.body
                ((Deployment.infoOf v.before f.paymaster).deposit
                  - (Deployment.infoOf v.after f.paymaster).deposit))
          ∧ (¬SameStake (Deployment.infoOf v.before f.paymaster) (Deployment.infoOf v.after f.paymaster) →
            f.OwnerAsked (f.deployment.happens depth tx w) v.frame
              ∧ ((∃ unstakeDelaySec,
                    EntryPoint.decodeMessage f.cfg v.frame.message = .addStake unstakeDelaySec)
                  ∨ EntryPoint.decodeMessage f.cfg v.frame.message = .unlockStake
                  ∨ ∃ withdrawAddress,
                    EntryPoint.decodeMessage f.cfg v.frame.message = .withdrawStake withdrawAddress)))
      ∧ ∀ before after, Committed (.sstore before after) (f.deployment.happens depth tx w) →
          (residentOf after).owner ≠ (residentOf before).owner →
            ∃ frame before' after' ret body,
              Committed (.call frame before' after' true ret body) (f.deployment.happens depth tx w)
                ∧ frame.self = f.paymaster ∧ frame.caller = (residentOf before').owner
                ∧ .sstore before after ∈ body := by
  refine ⟨?_, ?_, ?_⟩
  . exact Deployment.deposit_le_spent (Deployment.committedWrites_chained Deployment.depositsPart depth tx rfl) _
  . intro v hv
    obtain ⟨hmem, before, after, ret, hcommitted⟩ : .sstore v.before v.after ∈ v.body
        ∧ ∃ before after ret, Committed (.call v.frame before after true ret v.body)
          (f.deployment.happens depth tx w) := by
      rcases of_mem_writes hv with ⟨_, _, hmem⟩ | hcommitted
      . cases List.mem_singleton.mp hmem
      . exact hcommitted
    obtain ⟨_, n, s, hok, _, _, _, hbody⟩ := hcommitted.invoked f.system
    have hmem' := hmem
    rw [← hbody] at hmem'
    constructor
    . intro hlt
      rcases Deployment.invoke_depositWrite hok hmem' f.paymaster with hle | ⟨amount, hspends, heq⟩
      . exact absurd hle (Nat.not_le.mpr hlt)
      . rw [heq, Nat.add_sub_cancel_left]
        rw [hbody] at hspends
        exact withdrawTo_or_agreed hquiet htx hcommitted hspends
    . intro hne
      rcases Deployment.invoke_stakeWrite hok hmem' f.paymaster with ⟨hsame, _⟩ | ⟨hself, hcaller, hstep⟩
      . exact absurd hsame hne
      . refine ⟨?_, hstep.asks⟩
        apply ownerAsked_of_asks hquiet htx hcommitted ⟨hself, hcaller.symm, rfl⟩
        . intro account heq
          rw [heq] at hstep
          cases hstep
        . intro view heq
          rw [heq] at hstep
          cases hstep
  . intro before after hcommitted hne
    rcases hcommitted.frame with hmem | ⟨frame, before', after', ret, body, hframe, hmem⟩
    . cases List.mem_singleton.mp hmem
    obtain ⟨_, m, s1, hok, _, _, _, hbody⟩ := hframe.invoked f.system
    have hmem' := hmem
    rw [← hbody] at hmem'
    by_cases hself : frame.self = f.paymaster
    . obtain ⟨function, w1, t, _, rfl, heffect⟩ := committed_paymaster hframe hself
      have hmem' := (List.mem_cons.mp hmem).resolve_left fun h => by cases h
      exact ⟨frame, before', after', ret, _, hframe, hself, (heffect.writes hmem' hne).1, hmem⟩
    . have hsame := Residence.invoke_other_sstore hself hok hmem'
      rw [hsame] at hne
      exact absurd rfl hne

theorem testPaymasterWithPostOp_quiet : testPaymasterWithPostOp.Quiet :=
  ⟨fun _ _ _ _ => .ret, fun _ _ _ _ _ => .ret⟩

def ownerTx : Transaction Message := ⟨6, 8, 0, 1000000, .withdrawTo 5 40, Deployment.freeEnv 1⟩

theorem funds_guarded_ownerTx
    : ∃ v ∈ sample.deployment.committedWrites 5 ownerTx sampleWorld,
        (Deployment.infoOf v.after 8).deposit + 40 = (Deployment.infoOf v.before 8).deposit
          ∧ (sample.OwnerAsked (sample.deployment.happens 5 ownerTx sampleWorld) v.frame
            ∨ sample.Agreed v.frame v.body 40) := by
  have hany : (sample.deployment.committedWrites 5 ownerTx sampleWorld).any (fun v =>
      decide ((Deployment.infoOf v.after 8).deposit + 40 = (Deployment.infoOf v.before 8).deposit)) = true := by
    decide +kernel
  obtain ⟨v, hv, hdeposit⟩ := List.any_eq_true.mp hany
  have hdeposit := of_decide_eq_true hdeposit
  have hfunds := ((funds_guarded testPaymasterWithPostOp_quiet (by decide)).2.1 v hv).1
    (show (Deployment.infoOf v.after 8).deposit < (Deployment.infoOf v.before 8).deposit by omega)
  have hamount : (Deployment.infoOf v.before 8).deposit - (Deployment.infoOf v.after 8).deposit = 40 := by
    omega
  change _ ∨ sample.Agreed v.frame v.body
    ((Deployment.infoOf v.before 8).deposit - (Deployment.infoOf v.after 8).deposit) at hfunds
  rw [hamount] at hfunds
  exact ⟨v, hv, hdeposit, hfunds.imp And.left id⟩

end PaymasterDeployment
