import FalconSmartAccount.EntryPoint.PostOps
import FalconSmartAccount.EntryPoint.Resident
import FalconSmartAccount.Paymaster.PaymasterEffect

/-!
The entry point and a paymaster among arbitrary other contracts. What the paymaster overrides runs for the
operations that it is named in, and for nothing else.
-/

open Evm

structure PaymasterDeployment (S Y : Type) extends Residence (BasePaymaster.Storage S) Y where
  paymasterCfg : BasePaymaster.Config S
  program_eq : program = BasePaymaster.dispatch paymasterCfg
  entryPoint_eq : paymasterCfg.entryPoint = entryPoint

namespace PaymasterDeployment

open BasePaymaster (Storage Function Effect Context encodeContext)
open Residence (residentPart residentOf)

variable {S Y : Type}

section

variable (f : PaymasterDeployment S Y)

abbrev paymaster : Address := f.resident

/-- The call that the entry point makes for an operation to find out whether the paymaster pays. -/
def validationFrame (msg : Frame Message) (op : PackedUserOperation) (mUserOp : MemoryUserOp)
    : Frame Message :=
  ⟨f.paymaster, f.entryPoint, 0, .validatePaymasterUserOp op (EntryPoint.getUserOpHash f.cfg op)
    (EntryPoint.getRequiredPrefund mUserOp), msg.env⟩

/-- The frame is that of a bundle with the operation, which names the paymaster. -/
def Sponsors (msg : Frame Message) (op : PackedUserOperation) (mUserOp : MemoryUserOp) : Prop :=
  msg.self = f.entryPoint ∧ EntryPoint.copyUserOpToMemory op = some mUserOp ∧ mUserOp.paymaster = f.paymaster
    ∧ ∃ opas beneficiary aggregator,
        Deployment.bundleOf (EntryPoint.decodeMessage f.cfg msg.message) = some (opas, beneficiary)
          ∧ (aggregator, op) ∈ UserOpsPerAggregator.flatten opas

/-- The calls of the paymaster that a bundle is behind. -/
inductive Requested (t : Chain.Trace (Storage S × Y))
    : Event (Chain (Storage S × Y)) Message ReturnData Log → Prop where
  | validation {msg before after ret body op mUserOp before' after' ret' body'} :
      Committed (.call msg before after true ret body) t → f.Sponsors msg op mUserOp →
      .call (f.validationFrame msg op mUserOp) before' after' true ret' body' ∈ body →
      Requested t (.call (f.validationFrame msg op mUserOp) before' after' true ret' body')
  -- the paymaster has returned the context before, and the account has been called in between
  | postOp {msg before after ret w pre post op opInfo before1 after1 body1 before2 after2 ret2 w2 ta ts mode cost
      price before' after' ret' body'} {context : Context} {validationData : Word} :
      Committed (.call msg before after true ret (.enter w :: (pre ++ post))) t →
      f.Sponsors msg op opInfo.mUserOp →
      .call (f.validationFrame msg op opInfo.mUserOp) before1 after1 true
        (.bytes (encodeContext context.1 validationData)) body1 ∈ pre →
      .call (Deployment.innerHandleOpFrame msg op opInfo) before2 after2 true ret2
        (.enter w2 :: (ta ++ [.call ⟨f.paymaster, f.entryPoint, 0, .postOp mode context.1 cost price, msg.env⟩
          before' after' true ret' body'] ++ ts)) ∈ post →
      Deployment.AccountCall (Deployment.innerHandleOpFrame msg op opInfo)
        (EntryPoint.innerCallData op opInfo) opInfo (mode == .opSucceeded) ta →
      mode ≠ .postOpReverted → context.1 ≠ [] →
      Requested t (.call ⟨f.paymaster, f.entryPoint, 0, .postOp mode context.1 cost price, msg.env⟩
        before' after' true ret' body')

end

variable {f : PaymasterDeployment S Y} {n depth : Nat} {tx : Transaction Message} {frame msg : Frame Message}
  {s : State (Chain (Storage S × Y))} {w before after : World (Chain (Storage S × Y))} {ret : ReturnData}
  {body : Chain.Trace (Storage S × Y)} {function : Function}

/-- A call of the paymaster that succeeds. -/
theorem invoke_paymaster (hself : frame.self = f.paymaster) (hok : (invoke f.system n frame s).ok = true)
    : ∃ function w t, BasePaymaster.decodeMessage f.paymasterCfg frame.message = some function
        ∧ (invoke f.system n frame s).body = .enter w :: t
        ∧ Effect f.paymasterCfg residentPart frame (residentOf s.world) function
            (invoke f.system n frame s).data t := by
  obtain ⟨m, _, ledger, t, _, hrun, hbody⟩ := Residence.invoke_resident hself hok
  rw [f.program_eq] at hrun
  obtain ⟨function, hfunction, heffect⟩ := BasePaymaster.dispatch_effect hrun
  exact ⟨function, _, t, hfunction, hbody, heffect⟩

theorem committed_paymaster
    (hcommitted : Committed (.call frame before after true ret body) (f.deployment.happens depth tx w))
    (hself : frame.self = f.paymaster)
    : ∃ function w t, BasePaymaster.decodeMessage f.paymasterCfg frame.message = some function
        ∧ body = .enter w :: t
        ∧ Effect f.paymasterCfg residentPart frame (residentOf before) function ret t := by
  obtain ⟨_, m, s1, hok, rfl, rfl, rfl, rfl⟩ := hcommitted.invoked f.system
  exact invoke_paymaster hself hok

/-- It is not an account, nor anything else that the entry point calls. -/
theorem not_committed (hself : frame.self = f.paymaster)
    (hnone : BasePaymaster.decodeMessage f.paymasterCfg frame.message = none)
    : ¬Committed (.call frame before after true ret body) (f.deployment.happens depth tx w) := by
  intro hcommitted
  obtain ⟨function, _, _, hfunction, _⟩ := committed_paymaster hcommitted hself
  rw [hnone] at hfunction
  cases hfunction

/-- What the entry point reads is what the paymaster has returned. -/
theorem returned_context {op : PackedUserOperation} {mUserOp : MemoryUserOp} {context : Bytes}
    {validationData : Nat}
    (hcommitted : Committed (.call (f.validationFrame msg op mUserOp) before after true ret body)
      (f.deployment.happens depth tx w))
    (hdecode : ret.decodeContext = some (context, validationData))
    : ∃ (context' : Context) (validationData' : Word),
        ret = .bytes (encodeContext context'.1 validationData') ∧ context'.1 = context
          ∧ validationData'.toNat = validationData := by
  obtain ⟨function, w', t, hfunction, _, heffect⟩ := committed_paymaster hcommitted rfl
  cases hfunction
  cases heffect with
  | @validatePaymasterUserOp _ _ _ _ context' validationData' =>
    obtain ⟨hcontext, hdata⟩ := BasePaymaster.decodeContext_encodeContext context'.2 hdecode
    exact ⟨context', validationData', rfl, hcontext.symm, hdata.symm⟩
  | asks _ hasks => cases hasks
  | transfers _ htransfers => cases htransfers

/-- The calls of an inner call: the account is another contract, so only `postOp` is left. -/
theorem of_inner {before0 after0 : World (Chain (Storage S × Y))} {ret0 : ReturnData}
    {body0 : Chain.Trace (Storage S × Y)} {callData : CallData} {opInfo : UserOpInfo} {context : Bytes}
    (htx : tx.origin ≠ f.entryPoint)
    (hcommitted : Committed (.call msg before0 after0 true ret0 body0) (f.deployment.happens depth tx w))
    (hself : msg.self = f.entryPoint)
    (hmessage : EntryPoint.decodeMessage f.cfg msg.message = .innerHandleOp callData opInfo context)
    (he : .call frame before after true ret body ∈ body0) (hframe : frame.self = f.paymaster)
    : f.Requested (f.deployment.happens depth tx w) (.call frame before after true ret body) := by
  obtain ⟨bundle, before1, after1, ret1, w1, t, opas, beneficiary, opInfos, costs, _, hbundle, hbundleSelf,
    hopas, htrace, hmem, _, _⟩ := Deployment.committed_innerHandleOp (d := f.deployment) htx hself hmessage
      hcommitted
  obtain ⟨pre, post, aop, opInfo', rfl, hpost, rfl, hop, hvalidated⟩ :=
    htrace.validated_innerCall hmem (Deployment.innerCall_eq hself hmessage)
  cases hmessage
  have hinner := hcommitted
  obtain ⟨_, m, s1, hok, _, _, _, hbody⟩ := hinner.invoked f.system
  have hcarried := Deployment.invoke_carried (d := f.deployment) hself rfl hok
  rw [hbody] at hcarried
  cases hcarried with
  | @mk mode cost w2 ta tp ts hmode hcall hback hsettled =>
    have he := (List.mem_cons.mp he).resolve_left fun h => by cases h
    rcases List.mem_append.mp he with he | he
    . rcases List.mem_append.mp he with he | he
      -- the sender of the operation has been asked to validate it, which a paymaster cannot do
      . have hsender : aop.2.sender = f.paymaster := by
          rw [← (EntryPoint.copyUserOpToMemory_eq hvalidated.mUserOp).1, ← hcall.target_eq he]
          exact hframe
        obtain ⟨missing, ret2, _, ⟨before2, after2, body2, hvalidate⟩, _⟩ := hvalidated.account
        have hvalidation := hbundle.trans (.here (List.mem_cons_of_mem (.enter w1)
          (List.mem_append_left post hvalidate)))
        exact absurd hvalidation (not_committed hsender rfl)
      . cases hback with
        | none => exact absurd he List.not_mem_nil
        | call hsome hcontext =>
          cases List.mem_singleton.mp he
          obtain ⟨ret2, validationData, ⟨before2, after2, body2, hvalidate⟩, hdecode, _⟩ :=
            hvalidated.paymaster hsome
          have hpaymaster : opInfo.mUserOp.paymaster = f.paymaster := hframe
          rw [hpaymaster, hbundleSelf] at hvalidate
          have hvalidation := hbundle.trans (.here (List.mem_cons_of_mem (.enter w1)
            (List.mem_append_left post hvalidate)))
          obtain ⟨context, validationData', hret, hcontext', _⟩ := returned_context hvalidation hdecode
          subst hret
          rw [← hcontext'] at hcontext hpost ⊢
          rw [hpaymaster, hself] at hpost ⊢
          change f.Requested _ (.call ⟨f.paymaster, f.entryPoint, 0, _, bundle.env⟩ _ _ true _ _)
          exact .postOp hbundle ⟨hbundleSelf, hvalidated.mUserOp, hpaymaster, opas, beneficiary, aop.1, hopas, hop⟩
            hvalidate hpost hcall hmode hcontext
    . exact absurd he hsettled.not_call

/-- Of all the calls that the entry point makes, these are the ones that the paymaster listens to. -/
theorem of_entryPoint {before0 after0 : World (Chain (Storage S × Y))} {ret0 : ReturnData}
    {body0 : Chain.Trace (Storage S × Y)} (htx : tx.origin ≠ f.entryPoint)
    (hcommitted : Committed (.call msg before0 after0 true ret0 body0) (f.deployment.happens depth tx w))
    (hself : msg.self = f.entryPoint) (he : .call frame before after true ret body ∈ body0)
    (hframe : frame.self = f.paymaster)
    : f.Requested (f.deployment.happens depth tx w) (.call frame before after true ret body) := by
  have hnot := hcommitted.trans (.here he)
  obtain ⟨_, m, s1, hok, _, _, _, hbody⟩ := hcommitted.invoked f.system
  obtain ⟨w1, t, _, hbody', heffect⟩ := Deployment.invoke_effect (d := f.deployment) hself hok
  have hmem := he
  rw [← hbody, hbody'] at hmem
  have hmem := (List.mem_cons.mp hmem).resolve_left fun h => by cases h
  generalize hmessage : EntryPoint.decodeMessage f.deployment.cfg msg.message = message at heffect
  cases heffect with
  | deposit | addStake | unlockStake | incrementNonce | view => simp at hmem
  | withdrawStake | withdrawTo =>
    simp only [List.mem_cons, reduceCtorEq, false_or, List.not_mem_nil, or_false] at hmem
    cases hmem
    exact absurd hnot (not_committed hframe rfl)
  | inner => exact of_inner htx hcommitted hself hmessage he hframe
  | bundle hopas hbundle =>
    rw [← hmessage] at hopas
    cases hbundle.bundling _ hmem with
    | check => exact absurd hnot (not_committed hframe rfl)
    | @validating aop opInfo t' _ hzip hop _ hevent =>
      cases hop.events _ hevent with
      | create => exact absurd hnot (not_committed hframe rfl)
      | account => exact absurd hnot (not_committed hframe rfl)
      | paymaster =>
        have hpaymaster : opInfo.mUserOp.paymaster = f.paymaster := hframe
        rw [hpaymaster, hself] at he ⊢
        exact .validation hcommitted
          ⟨hself, hop.mUserOp, hpaymaster, _, _, aop.1, hopas, (List.of_mem_zip hzip).1⟩ he
    | inner => exact absurd (hframe.symm.trans hself) f.resident_ne_entryPoint
    | compensate => exact absurd hnot (not_committed hframe rfl)

/-- The paymaster's own code runs for operations that name it, in bundles that carry them out: once to ask
whether it pays, and then to hand back what it has returned there, after the account has been called. -/
theorem hooks_requested (htx : tx.origin ≠ f.entryPoint)
    (hcommitted : Committed (.call frame before after true ret body) (f.deployment.happens depth tx w))
    (hself : frame.self = f.paymaster)
    (hfunction : BasePaymaster.decodeMessage f.paymasterCfg frame.message = some function)
    (hhooks : function.hooks = true)
    : f.Requested (f.deployment.happens depth tx w) (.call frame before after true ret body) := by
  obtain ⟨function', w1, t, hfunction', _, heffect⟩ := committed_paymaster hcommitted hself
  rw [hfunction] at hfunction'
  cases hfunction'
  have hcaller := (heffect.caller_eq hhooks).trans f.entryPoint_eq
  rcases hcommitted.frame with hmem | ⟨msg, before', after', ret', body', hmsg, hmem⟩
  . injection List.mem_singleton.mp hmem with heq
    rw [heq] at hcaller
    exact absurd hcaller htx
  . obtain ⟨_, m, s1, _, _, _, _, hbody⟩ := hmsg.invoked f.system
    have hcall := hmem
    rw [← hbody] at hcall
    rw [(invoke_call f.system hcall).1] at hcaller
    exact of_entryPoint htx hmsg hcaller hmem hself

/-! ## A small deployment -/

/-- The paymaster `TestPaymasterWithPostOp`, with the owner at `6`. -/
def testPaymasterWithPostOp : BasePaymaster.Config Unit where
  entryPoint := 1
  validatePaymasterUserOp _ _ _ _ := return (⟨[0x31], by decide⟩, 0)
  postOp _ _ _ _ _ := return ()
  checkOwner owner caller := if caller = owner then none else some default
  checkOwner_eq_none owner caller h := by
    by_contra hne
    rw [if_neg hne] at h
    cases h
  transferOwnership newOwner := if newOwner = 0 then none else some newOwner
  abiDecode _ := none

/-- The paymaster is at `8`, and the account at `3` agrees to everything. -/
def sample : PaymasterDeployment Unit Unit where
  cfg := Deployment.sample.cfg
  entryPoint := 1
  entryPoint_ne := Deployment.sample.entryPoint_ne
  resident := 8
  resident_ne_entryPoint := by decide
  resident_ne_senderCreator := by decide
  program := BasePaymaster.dispatch testPaymasterWithPostOp
  code := Deployment.sample.code
  codeLength _ a := if a = 1 ∨ a = 3 ∨ a = 8 then 1 else 0
  delegate _ _ := none
  clearTransient := id
  paymasterCfg := testPaymasterWithPostOp
  program_eq := rfl
  entryPoint_eq := rfl

/-- Someone deposits for the paymaster. -/
def sampleWorld : World (Chain (Storage Unit × Unit)) :=
  (execute sample.system 2 { Deployment.depositTx with message := .depositTo 8 }
    ⟨Deployment.sampleLedger, ⟨Deployment.genesis, ⟨⟨6, ()⟩, ()⟩⟩⟩).state.world

def isPostOp (frame : Frame Message) : Bool :=
  frame.self = 8 && match frame.message with | .postOp _ _ _ _ => true | _ => false

theorem hooks_requested_sampleOp
    : ∃ frame before after ret body, isPostOp frame = true
        ∧ sample.Requested (sample.deployment.happens 5 Deployment.sponsoredTx sampleWorld)
          (.call frame before after true ret body) := by
  have hany : (frames (sample.deployment.happens 5 Deployment.sponsoredTx sampleWorld)).any isPostOp = true := by
    decide +kernel
  obtain ⟨frame, hmem, hpostOp⟩ := List.any_eq_true.mp hany
  obtain ⟨before, after, ret, body, hcommitted⟩ := committed_of_mem_frames hmem
  refine ⟨frame, before, after, ret, body, hpostOp, ?_⟩
  unfold isPostOp at hpostOp
  rw [Bool.and_eq_true, decide_eq_true_iff] at hpostOp
  obtain ⟨hself, hmessage⟩ := hpostOp
  split at hmessage
  . next heq => exact hooks_requested (by decide) hcommitted hself (by rw [heq]; rfl) rfl
  . cases hmessage

end PaymasterDeployment
