import FalconSmartAccount.Account.AccountCalls
import FalconSmartAccount.EntryPoint.Approvals

/-!
Who can make an account act: its owner, and whoever signs its operations. A call of the account that is
not taken back is one of theirs, or one that the account makes itself in one of theirs, or harmless.
-/

open Evm

namespace AccountDeployment

open FalconSimpleAccount (Storage Executes Guarded Initialised decodeSignature)

variable {Y : Type}

section

variable (f : AccountDeployment Y) (v : Storage)

/-- The verifier of the account has agreed to the operation and its signature. -/
def Verified (op : PackedUserOperation) (t : Chain.Trace (Storage × Y)) : Prop :=
  ∃ sig env before after ret body, decodeSignature op.signature = some sig
    ∧ Committed (.call ⟨v.slots.falcon, f.account, 0,
        .verify (Abi.wordBytes (EntryPoint.getUserOpHash f.cfg op).toNat) sig v.slots.publicKey, env⟩
        before after true ret body) t
    ∧ ret.decodeBool = some true

/-- The frame is that of a bundle with the operation. -/
def Bundles (msg : Frame Message) (op : PackedUserOperation) : Prop :=
  msg.self = f.entryPoint ∧ ∃ opas beneficiary aggregator,
    Deployment.bundleOf (EntryPoint.decodeMessage f.cfg msg.message) = some (opas, beneficiary)
      ∧ (aggregator, op) ∈ UserOpsPerAggregator.flatten opas

/-- The calls of the account that its owner or its verifier are behind. -/
inductive Authorised (t : Chain.Trace (Storage × Y))
    : Event (Chain (Storage × Y)) Message ReturnData Log → Prop where
  | owner {frame before after ret body} :
      Committed (.call frame before after true ret body) t →
      frame.self = f.account → frame.caller = v.slots.owner →
      Authorised t (.call frame before after true ret body)
  | validation {msg before after ret body op missing before' after' ret' body'} :
      Committed (.call msg before after true ret body) t →
      f.Bundles msg op → op.sender = f.account → f.Verified v op t →
      .call ⟨f.account, f.entryPoint, 0,
        .validateUserOp op (EntryPoint.getUserOpHash f.cfg op) missing, msg.env⟩
        before' after' true ret' body' ∈ body →
      Authorised t (.call ⟨f.account, f.entryPoint, 0,
        .validateUserOp op (EntryPoint.getUserOpHash f.cfg op) missing, msg.env⟩
        before' after' true ret' body')
  | execution {msg before after ret body op opInfo before1 after1 ret1 body1 before' after' ret' body'} :
      Committed (.call msg before after true ret body) t →
      f.Bundles msg op → op.sender = f.account → f.Verified v op t →
      .call (Deployment.innerHandleOpFrame msg op opInfo) before1 after1 true ret1 body1 ∈ body →
      .call ⟨f.account, f.entryPoint, 0, (EntryPoint.innerCallData op opInfo).message, msg.env⟩
        before' after' true ret' body' ∈ body1 →
      Authorised t (.call ⟨f.account, f.entryPoint, 0, (EntryPoint.innerCallData op opInfo).message, msg.env⟩
        before' after' true ret' body')
  | nested {outer before after ret body frame before' after' ret' body'} :
      Authorised t (.call outer before after true ret body) →
      frame.self = f.account → frame.caller = f.account →
      .call frame before' after' true ret' body' ∈ body →
      Authorised t (.call frame before' after' true ret' body')

/-- A call of the account runs `_call`, leaves the account with less than it had before, or changes its
storage. -/
def Acts (frame : Frame Message) (before after : World (Chain (Storage × Y)))
    (body : Chain.Trace (Storage × Y)) : Prop :=
  Executes (FalconSimpleAccount.decodeMessage f.accountCfg frame.message)
    ∨ after.ledger.balance f.account < before.ledger.balance f.account
    ∨ ∃ before' after', .sstore before' after' ∈ body ∧ accountOf after' ≠ accountOf before'

end

variable {f : AccountDeployment Y} {depth : Nat} {tx : Transaction Message}
  {frame msg : Frame Message} {w before after : World (Chain (Storage × Y))} {ret : ReturnData}
  {body : Chain.Trace (Storage × Y)}

/-! ## Bundles -/

/-- An account that agrees to an operation has been told so by its verifier. -/
theorem verified_of_agrees {op : PackedUserOperation} {missing timestamp validationData : Nat}
    {aggregator : Address}
    (hcommitted : Committed (.call frame before after true ret body) (f.deployment.happens depth tx w))
    (hself : frame.self = f.account)
    (hmessage : frame.message = .validateUserOp op (EntryPoint.getUserOpHash f.cfg op) missing)
    (hnot : (accountOf before).upgradedTo = none)
    (hdecode : ret.decodeWord = some validationData)
    (hdata : EntryPoint.getValidationData timestamp validationData = (aggregator, false))
    (haggregator : aggregator ≠ 1)
    : f.Verified (accountOf before) op (f.deployment.happens depth tx w) := by
  obtain ⟨_, m, s1, hok, rfl, rfl, rfl, rfl⟩ := hcommitted.invoked f.system
  obtain ⟨sig, success, before', after', ret', body', hsig, hsuccess, hret, hcall⟩ :=
    invoke_validates hself hok hnot hmessage
  refine ⟨sig, frame.env, before', after', ret', body', hsig, hcommitted.trans (.here hcall), ?_⟩
  cases success with
  | true => exact hsuccess
  | false =>
    -- the prefund has been paid all the same, but no bundle goes on with this aggregator
    rw [hret] at hdecode
    have hfailed : (EntryPoint.getValidationData timestamp validationData).1 = 1 :=
      getValidationData_failed hdecode
    rw [hdata] at hfailed
    exact absurd hfailed haggregator

/-- The storage of the account between two events of a committed frame. -/
theorem keeps_between {v0 : Storage} {e e' : Event (Chain (Storage × Y)) Message ReturnData Log}
    {before1 after1 before2 after2 w' : World (Chain (Storage × Y))} {pre post : Chain.Trace (Storage × Y)}
    (hv0 : Initialised f.accountCfg v0)
    (hframe : Committed (.call frame before after true ret (.enter w' :: (pre ++ post)))
      (f.deployment.happens depth tx w))
    (he : e ∈ pre) (hmove : e.Moves before1 after1) (he' : e' ∈ post) (hmove' : e'.Moves before2 after2)
    : FalconSimpleAccount.Keeps v0 (accountOf before1) (accountOf before2) := by
  have hmoves := (frame_keeps hv0 hframe).1
  obtain ⟨_, m, s1, hok, _, _, _, hbody⟩ := hframe.invoked f.system
  obtain ⟨w1, _, hleads⟩ := invoke_leads f.system hok
  rw [hbody] at hleads
  cases hleads with
  | move hmove => cases hmove
  | enter hleads =>
    obtain ⟨t, ht, hleads⟩ := hleads.between he hmove he' hmove'
    refine hleads.rel (C := fun w w' => FalconSimpleAccount.Keeps v0 (accountOf w) (accountOf w'))
      (fun _ => .refl) (fun _ _ _ => .trans) ?_
    exact fun e he before after hmove => hmoves e (List.mem_cons_of_mem _ (ht e he)) before after hmove

section

variable {w0 : World (Chain (Storage × Y))} (hinit : Initialised f.accountCfg (accountOf w0))
  (hlater : f.Later w0 w)

include hinit hlater

/-- A bundle that is not taken back has asked the verifier before it goes on. -/
theorem of_validation {before0 after0 : World (Chain (Storage × Y))} {ret0 : ReturnData}
    {body0 : Chain.Trace (Storage × Y)} {opas : List UserOpsPerAggregator} {beneficiary : Address}
    {op : PackedUserOperation} {userOpHash : Word} {missing : Nat}
    (hcommitted : Committed (.call msg before0 after0 true ret0 body0) (f.deployment.happens depth tx w))
    (hself : msg.self = f.entryPoint)
    (hopas : Deployment.bundleOf (EntryPoint.decodeMessage f.cfg msg.message) = some (opas, beneficiary))
    (he : .call frame before after true ret body ∈ body0) (hframe : frame.self = f.account)
    (hmessage : frame.message = .validateUserOp op userOpHash missing)
    (hnot : (accountOf before).upgradedTo = none)
    : f.Authorised (accountOf w0) (f.deployment.happens depth tx w)
        (.call frame before after true ret body) := by
  have hcommitted' := hcommitted.trans (.here he)
  have hbefore := hlater.accountOf_eq hinit hcommitted' .call hnot
  obtain ⟨_, m, s1, hok, _, _, _, rfl⟩ := hcommitted.invoked f.system
  obtain ⟨hne, happroved⟩ := Deployment.invoke_approved (d := f.deployment) hself hopas hok
  obtain ⟨hcallee, _, aggregator, validationData, hop, hdecode, hdata⟩ :=
    happroved _ _ _ _ _ _ _ _ _ he hmessage
  have hsender : op.sender = f.account := by
    rw [hcallee] at hframe
    exact hframe
  have hverified : f.Verified (accountOf w0) op (f.deployment.happens depth tx w) := by
    rw [← hbefore]
    have hmessage' := congrArg Frame.message hcallee
    exact verified_of_agrees hcommitted' hframe hmessage' hnot hdecode hdata (hne _ hop)
  rw [hsender, hself] at hcallee
  rw [hcallee] at he ⊢
  exact .validation hcommitted ⟨hself, opas, beneficiary, aggregator, hopas, hop⟩ hsender hverified he

/-- An operation that is executed has been validated in the same bundle. -/
theorem of_execution {before0 after0 : World (Chain (Storage × Y))} {ret0 : ReturnData}
    {body0 : Chain.Trace (Storage × Y)} {callData : CallData} {opInfo : UserOpInfo} {context : Bytes}
    (htx : tx.origin ≠ f.entryPoint)
    (hcommitted : Committed (.call msg before0 after0 true ret0 body0) (f.deployment.happens depth tx w))
    (hself : msg.self = f.entryPoint)
    (hmessage : EntryPoint.decodeMessage f.cfg msg.message = .innerHandleOp callData opInfo context)
    (he : .call ⟨opInfo.mUserOp.sender, msg.self, 0, callData.message, msg.env⟩ before after true ret body
      ∈ body0)
    (hsender : opInfo.mUserOp.sender = f.account) (hnot : (accountOf before).upgradedTo = none)
    : f.Authorised (accountOf w0) (f.deployment.happens depth tx w)
        (.call ⟨opInfo.mUserOp.sender, msg.self, 0, callData.message, msg.env⟩ before after true ret
          body) := by
  obtain ⟨bundle, before1, after1, ret1, w1, t, opas, beneficiary, opInfos, costs, _, hbundle, hbundleSelf,
    hopas, htrace, hmem, _, _⟩ := Deployment.committed_innerHandleOp (d := f.deployment) htx hself hmessage
      hcommitted
  obtain ⟨pre, post, aop, opInfo', ht, hpost, hframe, hop, hvalidated⟩ :=
    htrace.validated_innerCall hmem (Deployment.innerCall_eq hself hmessage)
  subst hframe
  cases hmessage
  rw [ht] at hbundle
  have hopSender : aop.2.sender = f.account :=
    (EntryPoint.copyUserOpToMemory_eq hvalidated.mUserOp).1.symm.trans hsender
  obtain ⟨missing, ret2, validationData, ⟨before2, after2, body2, hcall⟩, hdecode, hdata⟩ :=
    hvalidated.account
  have hvalidation := hbundle.trans (.here (List.mem_cons_of_mem _ (List.mem_append_left _ hcall)))
  -- the validation comes before the call, so the account had not been upgraded then either
  have hnot2 : (accountOf before2).upgradedTo = none := by
    have hinner := keeps_between hinit hbundle hcall .call hpost .call
    have haccount := (frame_keeps hinit hcommitted).2 _ _ _ (.here he) .call
    exact (hinner.trans haccount).not_upgraded hnot
  have haggregator : aop.1 ≠ 1 := by
    obtain ⟨_, m, s1, hok, _⟩ := hbundle.invoked f.system
    exact (Deployment.invoke_approved (d := f.deployment) hbundleSelf hopas hok).1 _ hop
  have hverified : f.Verified (accountOf w0) aop.2 (f.deployment.happens depth tx w) := by
    rw [← hlater.accountOf_eq hinit hvalidation .call hnot2]
    exact verified_of_agrees hvalidation hopSender rfl hnot2 hdecode hdata haggregator
  have hmem' := List.mem_cons_of_mem (.enter w1) (List.mem_append_right pre hpost)
  rw [hsender] at he ⊢
  rw [hself] at he ⊢
  change f.Authorised _ _ (.call ⟨f.account, f.entryPoint, 0, _, bundle.env⟩ _ _ true _ _)
  exact .execution hbundle ⟨hbundleSelf, opas, beneficiary, aop.1, hopas, hop⟩ hopSender hverified hmem' he

/-- Of all the calls that the entry point makes to addresses that users choose, these are the ones that
the account listens to. -/
theorem of_entryPoint {before0 after0 : World (Chain (Storage × Y))} {ret0 : ReturnData}
    {body0 : Chain.Trace (Storage × Y)} (htx : tx.origin ≠ f.entryPoint)
    (hcommitted : Committed (.call msg before0 after0 true ret0 body0) (f.deployment.happens depth tx w))
    (hself : msg.self = f.entryPoint) (he : .call frame before after true ret body ∈ body0)
    (hframe : frame.self = f.account) (hnot : (accountOf before).upgradedTo = none)
    (hguarded : Guarded (FalconSimpleAccount.decodeMessage f.accountCfg frame.message) = true)
    : f.Authorised (accountOf w0) (f.deployment.happens depth tx w)
        (.call frame before after true ret body) := by
  obtain ⟨_, m, s1, hok, _, _, _, rfl⟩ := hcommitted.invoked f.system
  obtain ⟨w1, t, _, hbody, heffect⟩ := Deployment.invoke_effect (d := f.deployment) hself hok
  have hmem := he
  rw [hbody] at hmem
  have hmem := (List.mem_cons.mp hmem).resolve_left fun h => by cases h
  generalize hmessage : EntryPoint.decodeMessage f.deployment.cfg msg.message = message at heffect
  cases heffect with
  | deposit | addStake | unlockStake | incrementNonce | view => simp at hmem
  -- a withdrawal to the account, which receives it without asking
  | withdrawStake | withdrawTo =>
    simp only [List.mem_cons, reduceCtorEq, false_or, List.not_mem_nil, or_false] at hmem
    cases hmem
    cases hguarded
  | inner _ hcall hpost hsettled =>
    rcases List.mem_append.mp hmem with hmem | hmem
    . rcases List.mem_append.mp hmem with hmem | hmem
      . cases hcall with
        | none => exact absurd hmem List.not_mem_nil
        | call =>
          cases List.mem_singleton.mp hmem
          exact of_execution hinit hlater htx hcommitted hself hmessage he hframe hnot
        | reason => simp at hmem
      . cases hpost with
        | none => exact absurd hmem List.not_mem_nil
        | call =>
          cases List.mem_singleton.mp hmem
          cases hguarded
    . cases hsettled <;> simp at hmem
  | bundle hopas hbundle =>
    rw [← hmessage] at hopas
    -- the account as an aggregator, a factory, a paymaster or a beneficiary is sent other messages
    cases hbundle.bundling _ hmem with
    | check => cases hguarded
    | validating _ hop _ hevent =>
      cases hop.events _ hevent with
      | create => cases hguarded
      | account => exact of_validation hinit hlater hcommitted hself hopas he hframe rfl hnot
      | paymaster => cases hguarded
    | inner => cases hguarded
    | compensate => cases hguarded

/-- A call that does not come from the account itself. -/
theorem of_outside
    (hcommitted : Committed (.call frame before after true ret body) (f.deployment.happens depth tx w))
    (hframe : frame.self = f.account) (hcaller : frame.caller ≠ f.account)
    (hnot : (accountOf before).upgradedTo = none)
    : (f.Authorised (accountOf w0) (f.deployment.happens depth tx w)
          (.call frame before after true ret body)
        ∨ Harmless f frame before after body)
      ∨ frame.caller = f.entryPoint
        ∧ Guarded (FalconSimpleAccount.decodeMessage f.accountCfg frame.message) = true := by
  have hbefore := hlater.accountOf_eq hinit hcommitted .call hnot
  obtain ⟨_, m, s1, hok, rfl, rfl, _, rfl⟩ := hcommitted.invoked f.system
  rcases invoke_harmless hframe hok (by rwa [hbefore]) hcaller with
    hharmless | howner | ⟨hentryPoint, hmessage⟩
  . exact .inl (.inr hharmless)
  . rw [hbefore] at howner
    exact .inl (.inl (.owner hcommitted hframe howner))
  . refine .inr ⟨hentryPoint, ?_⟩
    rcases hmessage with h | ⟨op, userOpHash, missing, h⟩
    . exact h.guarded
    . rw [h]
      rfl

/-- The step from a frame to the calls that it makes. -/
theorem step_authorised_or_harmless {callee : Frame Message} {before' after' : World (Chain (Storage × Y))}
    {ret' : ReturnData} {body' : Chain.Trace (Storage × Y)} (htx : tx.origin ≠ f.entryPoint)
    (hcommitted : Committed (.call frame before after true ret body) (f.deployment.happens depth tx w))
    (hframe : frame.self = f.account → (accountOf before).upgradedTo = none →
      f.Authorised (accountOf w0) (f.deployment.happens depth tx w) (.call frame before after true ret body)
        ∨ Harmless f frame before after body)
    (he : .call callee before' after' true ret' body' ∈ body) (hself : callee.self = f.account)
    (hnot : (accountOf before').upgradedTo = none)
    : f.Authorised (accountOf w0) (f.deployment.happens depth tx w)
          (.call callee before' after' true ret' body')
        ∨ Harmless f callee before' after' body' := by
  have hcaller : callee.caller = frame.self := by
    obtain ⟨_, m, s1, _, _, _, _, hbody⟩ := hcommitted.invoked f.system
    rw [← hbody] at he
    exact (invoke_call f.system he).1
  by_cases haccount : frame.self = f.account
  -- harmless calls of the account do not call the account
  . have hnot' := ((frame_keeps hinit hcommitted).2 _ _ _ (.here he) .call).not_upgraded hnot
    rcases hframe haccount hnot' with hauthorised | hharmless
    . exact .inl (.nested hauthorised hself (hcaller.trans haccount) he)
    . have hentryPoint := hharmless.calls _ _ _ _ _ _ he
      exact absurd (hself.symm.trans hentryPoint) f.account_ne_entryPoint
  . rcases of_outside hinit hlater (hcommitted.trans (.here he)) hself (by rwa [hcaller]) hnot with
      h | ⟨hentryPoint, hguarded⟩
    . exact h
    . rw [hcaller] at hentryPoint
      exact .inl (of_entryPoint hinit hlater htx hcommitted hentryPoint he hself hnot hguarded)

/-- The same for all calls of the account that a transaction makes. -/
theorem authorised_or_harmless (htx : tx.origin ≠ f.entryPoint) (htx' : tx.origin ≠ f.account)
    (hcommitted : Committed (.call frame before after true ret body) (f.deployment.happens depth tx w))
    (hself : frame.self = f.account) (hnot : (accountOf before).upgradedTo = none)
    : f.Authorised (accountOf w0) (f.deployment.happens depth tx w)
          (.call frame before after true ret body)
        ∨ Harmless f frame before after body := by
  let P (e : Event (Chain (Storage × Y)) Message ReturnData Log) : Prop :=
    ∀ frame before after ret body, e = .call frame before after true ret body → frame.self = f.account →
      (accountOf before).upgradedTo = none →
        f.Authorised (accountOf w0) (f.deployment.happens depth tx w) e ∨ Harmless f frame before after body
  -- from the transaction inwards: who calls the account is known before what that call does
  refine Committed.induct (P := P) ?_ ?_ hcommitted _ _ _ _ _ rfl hself hnot
  . intro e he frame before after ret body heq hself hnot
    subst heq
    have hframe : frame = tx.frame := by
      injection List.mem_singleton.mp he
    rcases of_outside hinit hlater (.here he) hself (by rwa [hframe]) hnot with h | ⟨hentryPoint, _⟩
    . exact h
    . rw [hframe] at hentryPoint
      exact absurd hentryPoint htx
  . intro frame before after ret body hcommitted hframe e he callee before' after' ret' body' heq hself hnot
    subst heq
    exact step_authorised_or_harmless hinit hlater htx hcommitted (hframe _ _ _ _ _ rfl) he hself hnot

theorem authorised_of_acts (htx : tx.origin ≠ f.entryPoint) (htx' : tx.origin ≠ f.account)
    (hcommitted : Committed (.call frame before after true ret body) (f.deployment.happens depth tx w))
    (hself : frame.self = f.account) (hnot : (accountOf before).upgradedTo = none)
    (hacts : f.Acts frame before after body)
    : f.Authorised (accountOf w0) (f.deployment.happens depth tx w)
        (.call frame before after true ret body) := by
  refine (authorised_or_harmless hinit hlater htx htx' hcommitted hself hnot).resolve_right ?_
  intro hharmless
  rcases hacts with hexecutes | hbalance | ⟨before', after', he, _⟩
  . exact hharmless.message hexecutes
  . exact absurd hharmless.balance (Nat.not_le.mpr hbalance)
  . exact hharmless.writes _ _ he

/-- A write that changes the account is one of a call of the account. -/
theorem authorised_of_sstore (htx : tx.origin ≠ f.entryPoint) (htx' : tx.origin ≠ f.account)
    (hcommitted : Committed (.sstore before after) (f.deployment.happens depth tx w))
    (hnot : (accountOf before).upgradedTo = none) (hne : accountOf after ≠ accountOf before)
    : ∃ frame before' after' ret body, frame.self = f.account ∧ .sstore before after ∈ body
        ∧ f.Authorised (accountOf w0) (f.deployment.happens depth tx w)
          (.call frame before' after' true ret body) := by
  rcases hcommitted.frame with hmem | ⟨frame, before', after', ret, body, hframe, hmem⟩
  . cases List.mem_singleton.mp hmem
  have hself : frame.self = f.account := by
    by_contra hself
    obtain ⟨_, m, s1, hok, _, _, _, hbody⟩ := hframe.invoked f.system
    rw [← hbody] at hmem
    exact hne (invoke_other_sstore hself hok hmem)
  have hnot' := ((frame_keeps hinit hframe).2 _ _ _ (.here hmem) .sstore).not_upgraded hnot
  exact ⟨frame, before', after', ret, body, hself, hmem, authorised_of_acts hinit hlater htx htx' hframe
    hself hnot' (.inr (.inr ⟨before, after, hmem, hne⟩))⟩

end

/-- The storage of the account only changes by writes. -/
theorem exists_sstore_of_ne (hnot : (accountOf w).upgradedTo = none)
    (hne : accountOf (execute f.system depth tx w).state.world ≠ accountOf w)
    : ∃ before after, Committed (.sstore before after) (f.deployment.happens depth tx w)
        ∧ (accountOf before).upgradedTo = none ∧ accountOf after ≠ accountOf before := by
  by_contra hnone
  have hsame : ∀ before after, Committed (.sstore before after) (f.deployment.happens depth tx w) →
      (accountOf before).upgradedTo = none → accountOf after = accountOf before := by
    intro before after he hbefore
    by_contra hafter
    exact hnone ⟨before, after, he, hbefore, hafter⟩
  let C (v v' : Chain (Storage × Y)) : Prop :=
    (accountPart.get v).upgradedTo = none → accountPart.get v' = accountPart.get v
  apply hne
  unfold execute
  cases hok : (invoke f.system depth tx.frame
      ⟨{ w with storage := f.system.clearTransient w.storage }, tx.gas, 0⟩).ok with
  | false =>
    rw [invoke_failed f.system hok]
    rfl
  | true =>
    refine (invoke_rel f.system (C := C) (fun _ _ => rfl) ?_ ?_ hok).1 hnot
    . intro v1 v2 v3 h h' hv1
      have hv2 := h hv1
      rw [← hv2] at hv1
      exact (h' hv1).trans hv2
    . intro before after he hbefore
      rcases he with he | ⟨body, he⟩
      . exact hsame before after (committed_callEvent f.system hok he) hbefore
      . rw [(Deployment.delegate_eq (d := f.deployment) (committed_callEvent f.system hok he)).1]

/-- Until it is upgraded, an initialised account acts for its owner and for whoever signs its operations,
and for nobody else. That goes for every call in which it runs `_call`, which leaves it with less than
it had, or which changes its storage, as long as the call is not taken back; and nothing but such a call
changes its storage. -/
theorem authority {w0 : World (Chain (Storage × Y))} (hinit : Initialised f.accountCfg (accountOf w0))
    (hlater : f.Later w0 w) (htx : tx.origin ≠ f.entryPoint) (htx' : tx.origin ≠ f.account)
    : (∀ frame before after ret body,
          Committed (.call frame before after true ret body) (f.deployment.happens depth tx w) →
          frame.self = f.account → (accountOf before).upgradedTo = none → f.Acts frame before after body →
            f.Authorised (accountOf w0) (f.deployment.happens depth tx w)
              (.call frame before after true ret body))
      ∧ (∀ before after, Committed (.sstore before after) (f.deployment.happens depth tx w) →
          (accountOf before).upgradedTo = none → accountOf after ≠ accountOf before →
            ∃ frame before' after' ret body, frame.self = f.account ∧ .sstore before after ∈ body
              ∧ f.Authorised (accountOf w0) (f.deployment.happens depth tx w)
                (.call frame before' after' true ret body))
      ∧ ((accountOf w).upgradedTo = none →
          accountOf (execute f.system depth tx w).state.world ≠ accountOf w →
            ∃ frame before after ret body, frame.self = f.account
              ∧ f.Authorised (accountOf w0) (f.deployment.happens depth tx w)
                (.call frame before after true ret body)) := by
  refine ⟨?_, ?_, ?_⟩
  . intro frame before after ret body hcommitted hself hnot hacts
    exact authorised_of_acts hinit hlater htx htx' hcommitted hself hnot hacts
  . intro before after hcommitted hnot hne
    exact authorised_of_sstore hinit hlater htx htx' hcommitted hnot hne
  . intro hnot hne
    obtain ⟨before, after, hcommitted, hbefore, hchanged⟩ := exists_sstore_of_ne hnot hne
    obtain ⟨frame, before', after', ret, body, hself, _, hauthorised⟩ :=
      authorised_of_sstore hinit hlater htx htx' hcommitted hbefore hchanged
    exact ⟨frame, before', after', ret, body, hself, hauthorised⟩

/-- A call of the account by the entry point. -/
def executesFor : Event (Chain (Storage × Unit)) Message ReturnData Log → Bool
  | .call ⟨3, 1, _, .bytes [1], _⟩ before _ true _ _ => (accountOf before).upgradedTo.isNone
  | _ => false

/-- An inner call with such a call in it. -/
def executesWithin : Event (Chain (Storage × Unit)) Message ReturnData Log → Bool
  | .call _ _ _ true _ body => body.any executesFor
  | _ => false

theorem of_executesFor {e : Event (Chain (Storage × Unit)) Message ReturnData Log}
    (h : executesFor e = true)
    : ∃ value env before after ret body, e = .call ⟨3, 1, value, .bytes [1], env⟩ before after true ret body
        ∧ (accountOf before).upgradedTo = none := by
  unfold executesFor at h
  split at h
  . exact ⟨_, _, _, _, _, _, rfl, Option.isNone_iff_eq_none.mp h⟩
  . cases h

theorem of_executesWithin {e : Event (Chain (Storage × Unit)) Message ReturnData Log}
    (h : executesWithin e = true)
    : ∃ frame before after ret body, e = .call frame before after true ret body
        ∧ ∃ e' ∈ body, executesFor e' = true := by
  unfold executesWithin at h
  split at h
  . exact ⟨_, _, _, _, _, rfl, List.any_eq_true.mp h⟩
  . cases h

/-- The owner sends something, and so does an operation that the verifier agrees to. -/
theorem authority_ownerTx_sendTx
    : (∃ before after ret body,
        Committed (.call ownerTx.frame before after true ret body)
          (sample.deployment.happens 3 ownerTx sampleWorld)
        ∧ sample.Authorised (accountOf sampleWorld) (sample.deployment.happens 3 ownerTx sampleWorld)
          (.call ownerTx.frame before after true ret body))
      ∧ ∃ frame before after ret body, frame.self = 3 ∧ frame.caller = 1
        ∧ Executes (FalconSimpleAccount.decodeMessage sample.accountCfg frame.message)
        ∧ Committed (.call frame before after true ret body)
          (sample.deployment.happens 6 sendTx sampleWorld)
        ∧ sample.Authorised (accountOf sampleWorld) (sample.deployment.happens 6 sendTx sampleWorld)
          (.call frame before after true ret body) := by
  have hinit : Initialised sample.accountCfg (accountOf sampleWorld) := ⟨rfl, ⟨0, false⟩, rfl⟩
  constructor
  . have hok : (execute sample.system 3 ownerTx sampleWorld).ok = true := by decide +kernel
    let result := execute sample.system 3 ownerTx sampleWorld
    have hcommitted : Committed (.call ownerTx.frame
        { sampleWorld with storage := sample.system.clearTransient sampleWorld.storage } result.state.world
        true result.data result.body) (sample.deployment.happens 3 ownerTx sampleWorld) := by
      apply Committed.here
      rw [← hok]
      exact List.mem_singleton_self _
    exact ⟨_, _, _, _, hcommitted, (authority hinit .refl (by decide) (by decide)).1 _ _ _ _ _ hcommitted rfl
      rfl (.inl .execute)⟩
  . have hrun : (execute sample.system 6 sendTx sampleWorld).ok = true
        ∧ (execute sample.system 6 sendTx sampleWorld).body.any executesWithin = true := by
      decide +kernel
    obtain ⟨e, he, hwithin⟩ := List.any_eq_true.mp hrun.2
    obtain ⟨_, _, _, _, body, rfl, e', he', hexecutes⟩ := of_executesWithin hwithin
    obtain ⟨value, env, before, after, ret, body', rfl, hnot⟩ := of_executesFor hexecutes
    have hcommitted : Committed (.call ⟨3, 1, value, .bytes [1], env⟩ before after true ret body')
        (sample.deployment.happens 6 sendTx sampleWorld) :=
      (Deployment.committed_happens hrun.1 he).trans (.here he')
    have hmessage : Executes (FalconSimpleAccount.decodeMessage sample.accountCfg (.bytes [1])) := .execute
    exact ⟨_, before, after, ret, body', rfl, rfl, hmessage, hcommitted,
      (authority hinit .refl (by decide) (by decide)).1 _ _ _ _ _ hcommitted rfl hnot (.inl hmessage)⟩

end AccountDeployment
