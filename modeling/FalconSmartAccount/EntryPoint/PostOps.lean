import FalconSmartAccount.EntryPoint.Unrolled

/-!
The contexts of paymasters: what a paymaster returns when it agrees to pay goes into the inner call of the
operation, and from there back to the paymaster.
-/

open Evm

namespace Deployment

open EntryPoint

variable {X : Type}

def contextReturned : Event (Chain X) Message ReturnData Log → Option (Address × Bytes)
  | .call callee _ _ true ret _ =>
    match callee.message with
    | .validatePaymasterUserOp _ _ _ => ret.decodeContext.map fun r => (callee.self, r.1)
    | _ => none
  | _ => none

/-- An inner call is listed if it reverts, too. -/
def contextPassed : Event (Chain X) Message ReturnData Log → Option (Address × Bytes)
  | .call callee _ _ _ _ _ =>
    match callee.message with
    | .innerHandleOp _ opInfo context =>
      if opInfo.mUserOp.paymaster = 0 then none else some (opInfo.mUserOp.paymaster, context)
    | _ => none
  | _ => none

def contextOf (opInfo : UserOpInfo) : Option (Address × Bytes) :=
  if opInfo.mUserOp.paymaster = 0 then none else some (opInfo.mUserOp.paymaster, opInfo.context)

/-- The paymaster gets the context back, if there are both. -/
inductive HandsBack (msg : Frame Message) (mode : PostOpMode) (opInfo : UserOpInfo) (context : Bytes)
    : Chain.Trace X → Prop where
  | none : opInfo.mUserOp.paymaster = 0 ∨ context = [] → HandsBack msg mode opInfo context []
  | call {cost price before after ret body} :
      opInfo.mUserOp.paymaster ≠ 0 → context ≠ [] →
      HandsBack msg mode opInfo context
        [.call ⟨opInfo.mUserOp.paymaster, msg.self, 0, .postOp mode context cost price, msg.env⟩
          before after true ret body]

/-- All that an inner call does: it calls the account, tells the paymaster whether that succeeded, and
settles. -/
inductive Carried (msg : Frame Message) (callData : CallData) (opInfo : UserOpInfo) (context : Bytes)
    : Chain.Trace X → Prop where
  | mk {mode cost w ta tp ts} :
      mode ≠ .postOpReverted → AccountCall msg callData opInfo (mode == .opSucceeded) ta →
      HandsBack msg mode opInfo context tp → Settled opInfo (mode == .opSucceeded) cost ts →
      Carried msg callData opInfo context (.enter w :: (ta ++ tp ++ ts))

variable {d : Deployment X} {msg : Frame Message}
  {inv : Frame Message → State (Chain X) → Reply (Chain X) Message ReturnData Log}
  {s s' : State (Chain X)} {t : Chain.Trace X} {op : PackedUserOperation} {opInfo : UserOpInfo}
  {opInfos : List UserOpInfo} {context : Bytes} {cost : Nat}

theorem AccountCall.target_eq {callData : CallData} {success : Bool} {callee : Frame Message}
    {before after : World (Chain X)} {ok : Bool} {ret : ReturnData} {body : Chain.Trace X}
    (h : AccountCall msg callData opInfo success t) (he : .call callee before after ok ret body ∈ t)
    : callee.self = opInfo.mUserOp.sender := by
  cases h with
  | none => exact absurd he List.not_mem_nil
  | call =>
    cases List.mem_singleton.mp he
    rfl
  | reason =>
    rcases List.mem_cons.mp he with heq | he
    . cases heq
      rfl
    . cases List.mem_singleton.mp he

theorem Settled.not_call {success : Bool} {callee : Frame Message} {before after : World (Chain X)} {ok : Bool}
    {ret : ReturnData} {body : Chain.Trace X} (h : Settled opInfo success cost t)
    : .call callee before after ok ret body ∉ t := by
  cases h <;> simp

/-! ## Inner calls -/

theorem callPostOp_handsBack {mode : PostOpMode} {actualGasCost gasPrice : Nat} {u : Unit}
    (hmode : mode ≠ .postOpReverted)
    (h : d.Returns inv msg (callPostOp mode opInfo.mUserOp context actualGasCost gasPrice) s u s' t)
    : HandsBack msg mode opInfo context t := by
  unfold callPostOp at h
  split at h
  . next hnone =>
    rw [h.pure.2.2]
    apply HandsBack.none
    rcases hnone with hnone | hnone | hreverted
    . exact .inl hnone
    . exact .inr (List.length_eq_zero_iff.mp hnone)
    . exact absurd hreverted hmode
  . next hsome =>
    simp only [not_or, List.length_eq_zero_iff] at hsome
    obtain ⟨_, s1, t1, t2, h1, h, ht⟩ := h.bind
    obtain ⟨s2, _, h1⟩ := h1.bind_codeLength
    obtain ⟨_, _, ht1⟩ := h1.require
    obtain ⟨r, s3, s4, s5, body, t3, _, _, _, ht2, h⟩ := h.bind_call
    obtain ⟨hsuccess, _, ht3⟩ := h.require
    rw [ht, ht1, ht2, ht3, hsuccess]
    exact .call hsome.1 hsome.2.1

theorem postExecution_handsBack {mode : PostOpMode} {actualGas : Nat} (hmode : mode ≠ .postOpReverted)
    (h : d.Returns inv msg (postExecution msg mode opInfo context actualGas) s cost s' t)
    : ∃ tp ts, t = tp ++ ts ∧ HandsBack msg mode opInfo context tp
        ∧ Settled opInfo (mode == .opSucceeded) cost ts := by
  obtain ⟨preGas, s1, _, h⟩ := h.bind_gasleft
  obtain ⟨_, s2, tp, ts, hpost, h, ht⟩ := h.bind
  refine ⟨tp, ts, ht, callPostOp_handsBack hmode hpost, ?_⟩
  obtain ⟨gas, s3, _, h⟩ := h.bind_gasleft
  dsimp only at h
  split at h
  . exact absurd h Evm.Returns.not_revert
  . next hle =>
    obtain ⟨n, s4, t2, t3, hinc, h, ht1⟩ := h.bind
    obtain ⟨before, ht2⟩ := incrementDeposit_returns hinc
    obtain ⟨s5, t4, _, ht3, h⟩ := h.bind_emit
    obtain ⟨hcost, _, ht4⟩ := h.pure
    rw [← hcost] at hle
    rw [ht1, ht2, ht3, ht4, ← hcost]
    exact .credit ⟨Nat.le_of_not_lt hle, rfl⟩

theorem callAccount_ne_postOpReverted {callData : CallData} {mode : PostOpMode}
    (h : d.Returns inv msg (callAccount callData opInfo) s mode s' t)
    : mode ≠ .postOpReverted := by
  unfold callAccount at h
  split at h
  . rw [h.pure.1]
    exact PostOpMode.noConfusion
  . obtain ⟨r, s1, s2, s3, body, t1, _, _, _, ht, h⟩ := h.bind_call
    dsimp only at h
    split at h
    . rw [h.pure.1]
      exact PostOpMode.noConfusion
    . split at h
      . obtain ⟨s4, t2, _, ht1, h⟩ := h.bind_emit
        rw [h.pure.1]
        exact PostOpMode.noConfusion
      . rw [h.pure.1]
        exact PostOpMode.noConfusion

theorem innerHandleOp_carried {callData : CallData} {ret : ReturnData} {w : World (Chain X)}
    (h : d.Returns inv msg (innerHandleOp msg callData opInfo context) s ret s' t)
    : Carried msg callData opInfo context (.enter w :: t) := by
  obtain ⟨preGas, s1, _, h⟩ := h.bind_gasleft
  obtain ⟨_, h⟩ := h.bind_require
  obtain ⟨gas, s2, _, h⟩ := h.bind_gasleft
  obtain ⟨_, h⟩ := h.bind_require
  obtain ⟨mode, s3, ta, t1, hcall, h, ht⟩ := h.bind
  obtain ⟨gas', s4, _, h⟩ := h.bind_gasleft
  obtain ⟨cost, s5, t2, t3, hpost, h, ht1⟩ := h.bind
  have hmode := callAccount_ne_postOpReverted hcall
  obtain ⟨tp, ts, ht2, hback, hsettled⟩ := postExecution_handsBack hmode hpost
  rw [ht, ht1, ht2, h.pure.2.2, List.append_nil, ← List.append_assoc]
  exact .mk hmode (callAccount_returns hcall) hback hsettled

theorem invoke_carried {n : Nat} {callData : CallData} (hself : msg.self = d.entryPoint)
    (hmessage : decodeMessage d.cfg msg.message = .innerHandleOp callData opInfo context)
    (hok : (invoke d.system n msg s).ok = true)
    : Carried msg callData opInfo context (invoke d.system n msg s).body := by
  obtain ⟨m, _, s1, t, _, hrun, hbody⟩ := invoke_entryPoint_ok hself hok
  unfold dispatch at hrun
  rw [hmessage] at hrun
  rw [hbody]
  exact innerHandleOp_carried hrun.bind_require.2

/-! ## Validation -/

theorem Prepayment.contexts {validationData pmValidationData : Nat}
    (h : Prepayment d msg op opInfo validationData pmValidationData t)
    : t.filterMap contextReturned = (contextOf opInfo).toList := by
  have hcreated {tc : Chain.Trace X} (h : SenderCreated d msg op tc) : tc.filterMap contextReturned = [] := by
    cases h <;> rfl
  unfold contextOf
  cases h.trace with
  | bySender hnone _ htc =>
    rw [List.filterMap_append, hcreated htc, if_pos hnone]
    rfl
  | byPaymaster hsome htc _ _ _ hdecode =>
    rw [List.filterMap_append, hcreated htc, if_neg hsome]
    -- of the calls only the one of the paymaster returns a context
    rw [List.nil_append, List.filterMap_cons_none rfl, List.filterMap_cons_none rfl,
      List.filterMap_cons_none rfl]
    apply List.filterMap_cons_some
    exact congrArg (Option.map _) hdecode

theorem Validating.contextPassed {mUserOp : MemoryUserOp} {e : Event (Chain X) Message ReturnData Log}
    (h : d.Validating msg op mUserOp e)
    : Deployment.contextPassed e = none := by
  cases h <;> rfl

theorem ValidationRuns.contexts {aops : List (Address × PackedUserOperation)}
    (h : ValidationRuns d msg inv aops opInfos t)
    : t.filterMap contextReturned = opInfos.filterMap contextOf ∧ t.filterMap contextPassed = [] := by
  induction h with
  | nil => exact ⟨rfl, rfl⟩
  | @cons _ _ _ _ _ opInfo opInfos _ _ _ _ t t' h1 _ _ _ ih =>
    have hop := validatePrepayment_returns h1
    have hpassed : t.filterMap contextPassed = [] :=
      List.filterMap_eq_nil_iff.mpr fun e he => (hop.events e he).contextPassed
    rw [List.filterMap_append, List.filterMap_append, hop.contexts, ih.1, ih.2, hpassed]
    refine ⟨?_, rfl⟩
    rw [List.filterMap_cons]
    cases contextOf opInfo <;> rfl

/-! ## Execution -/

theorem Settled.contexts {success : Bool} (h : Settled opInfo success cost t)
    : t.filterMap contextReturned = [] ∧ t.filterMap contextPassed = [] := by
  cases h <;> exact ⟨rfl, rfl⟩

theorem Settlement.contexts (h : Settlement msg op opInfo cost t)
    : t.filterMap contextReturned = [] ∧ t.filterMap contextPassed = (contextOf opInfo).toList := by
  have hframe (ts : Chain.Trace X) (hts : ts.filterMap contextPassed = []) (before after ok ret body)
      : (.call (innerHandleOpFrame msg op opInfo) before after ok ret body :: ts).filterMap contextPassed
          = (contextOf opInfo).toList := by
    have hpassed : contextPassed (.call (innerHandleOpFrame msg op opInfo) before after ok ret body)
        = contextOf opInfo := rfl
    rw [List.filterMap_cons, hts, hpassed]
    cases contextOf opInfo <;> rfl
  cases h with
  | inner => exact ⟨rfl, hframe [] rfl _ _ _ _ _⟩
  | lowPrefund h => exact ⟨h.contexts.1, hframe _ h.contexts.2 _ _ _ _ _⟩
  | postOpReverted h => exact ⟨h.contexts.1, hframe _ h.contexts.2 _ _ _ _ _⟩

theorem Executions.contexts {ops : List PackedUserOperation} {costs : List Nat}
    (h : Executions msg ops opInfos costs t)
    : t.filterMap contextReturned = [] ∧ t.filterMap contextPassed = opInfos.filterMap contextOf := by
  induction h with
  | nil => exact ⟨rfl, rfl⟩
  | changed _ ih => exact ih
  | @cons _ _ opInfo _ _ _ _ _ hop _ ih =>
    obtain ⟨hreturned, hpassed⟩ := hop.contexts
    obtain ⟨hreturned', hpassed'⟩ := ih
    rw [List.filterMap_append, List.filterMap_append, hreturned, hreturned', hpassed, hpassed']
    refine ⟨rfl, ?_⟩
    rw [List.filterMap_cons]
    cases contextOf opInfo <;> rfl

theorem SignatureChecks.contexts {opas : List UserOpsPerAggregator} (h : SignatureChecks msg opas t)
    : t.filterMap contextReturned = [] ∧ t.filterMap contextPassed = [] :=
  ⟨List.filterMap_eq_nil_iff.mpr (h.forall_mem fun _ _ _ _ _ _ => rfl),
    List.filterMap_eq_nil_iff.mpr (h.forall_mem fun _ _ _ _ _ _ => rfl)⟩

/-! ## Bundles -/

theorem BundleRuns.contexts {m : Nat} {opas : List UserOpsPerAggregator} {beneficiary : Address}
    {costs : List Nat} (hself : msg.self = d.entryPoint)
    (h : BundleRuns d msg (invoke d.system m) opas beneficiary opInfos costs t)
    : ∃ pre post, t = pre ++ post ∧ post.filterMap contextPassed = pre.filterMap contextReturned
        ∧ pre.filterMap contextPassed = [] ∧ post.filterMap contextReturned = [] := by
  obtain @⟨before0, after0, ts, tv, te, before1, after1, before2, after2, ret, body, before3, after3,
    _, hchecks, hvalidations, hruns, _, _, ht⟩ := h
  obtain ⟨hreturned, hpassed⟩ := hvalidations.contexts
  obtain ⟨hreturned', hpassed'⟩ := (hruns.executions hself hvalidations.validations.prefund_lt).contexts
  rw [← List.cons_append] at ht
  refine ⟨_, _, ht, ?_, ?_, ?_⟩
  . rw [List.filterMap_cons_none rfl, List.filterMap_cons_none rfl, List.filterMap_append,
      List.filterMap_append, hreturned, hpassed', hchecks.contexts.1]
    exact List.append_nil _
  . rw [List.filterMap_cons_none rfl, List.filterMap_append, hpassed, hchecks.contexts.2]
    rfl
  . rw [List.filterMap_cons_none rfl, List.filterMap_append, hreturned']
    rfl

theorem Bundling.inner_eq {opas : List UserOpsPerAggregator} {beneficiary : Address} {whole : Chain.Trace X}
    {callee : Frame Message} {before after : World (Chain X)} {ok : Bool} {ret : ReturnData}
    {body : Chain.Trace X} {callData : CallData}
    (h : Bundling d msg opas beneficiary opInfos whole (.call callee before after ok ret body))
    (hmessage : callee.message = .innerHandleOp callData opInfo context)
    : callee.self = msg.self := by
  cases h with
  | inner => rfl
  | validating _ hop _ he => cases hop.events _ he <;> cases hmessage
  | _ => cases hmessage

/-- The contexts that paymasters return in a bundle go in the same order into the inner calls after it. An
inner call that is not rolled back hands its context back once, after the call of the account. -/
theorem contexts_handed_back {depth : Nat} {tx : Transaction Message} {w before after : World (Chain X)}
    {ret : ReturnData} {body : Chain.Trace X} {opas : List UserOpsPerAggregator} {beneficiary : Address}
    (hcommitted : Committed (.call msg before after true ret body) (d.happens depth tx w))
    (hself : msg.self = d.entryPoint)
    (hbundle : bundleOf (decodeMessage d.cfg msg.message) = some (opas, beneficiary))
    : ∃ pre post, body = pre ++ post ∧ post.filterMap contextPassed = pre.filterMap contextReturned
        ∧ pre.filterMap contextPassed = [] ∧ post.filterMap contextReturned = []
        ∧ ∀ callee before' after' ok ret' body' callData opInfo context,
            .call callee before' after' ok ret' body' ∈ body →
            callee.message = .innerHandleOp callData opInfo context →
              if ok then Carried callee callData opInfo context body' else after' = before' := by
  obtain ⟨_, n, s1, hok, _, _, _, rfl⟩ := hcommitted.invoked d.system
  obtain ⟨m, w1, opInfos, costs, t, hbody, hruns⟩ := invoke_bundleRuns hself hbundle hok
  obtain ⟨pre, post, rfl, hcontexts, hpre, hpost⟩ := hruns.contexts hself
  refine ⟨.enter w1 :: pre, post, hbody, hcontexts, hpre, hpost, ?_⟩
  intro callee before' after' ok ret' body' callData opInfo context he hmessage
  obtain ⟨_, _, m', _, s2, s3, hinvoke, rfl, rfl⟩ := invoke_call d.system he
  cases ok with
  | false =>
    have hfailed := invoke_failed d.system (congrArg Reply.ok hinvoke)
    rw [hinvoke] at hfailed
    exact hfailed
  | true =>
    have hcallee : callee.self = d.entryPoint := by
      obtain ⟨_, t', _, hbody', heffect⟩ := invoke_effect hself hok
      rw [hbody'] at he
      have he := (List.mem_cons.mp he).resolve_left fun h => by cases h
      generalize decodeMessage d.cfg msg.message = message at hbundle heffect
      cases heffect with
      | bundle _ hruns' => exact ((hruns'.bundling _ he).inner_eq hmessage).trans hself
      | deposit hmessage => rcases hmessage with rfl | ⟨rfl, _⟩ <;> cases hbundle
      | _ => cases hbundle
    have hcarried := invoke_carried hcallee (by rw [hmessage]; rfl) (congrArg Reply.ok hinvoke)
    rw [hinvoke] at hcarried
    exact hcarried

theorem committed_execute {depth : Nat} {tx : Transaction Message} {w : World (Chain X)}
    (hok : (execute d.system depth tx w).ok = true)
    : Committed (.call tx.frame { w with storage := d.system.clearTransient w.storage }
          (execute d.system depth tx w).state.world true (execute d.system depth tx w).data
          (execute d.system depth tx w).body)
        (d.happens depth tx w) := by
  apply Committed.here
  rw [← hok]
  exact List.mem_singleton_self _

/-- A paymaster at `8` that agrees to everything, with a context of one byte. -/
def sponsored : Deployment Unit where
  cfg := sample.cfg
  entryPoint := 1
  entryPoint_ne := sample.entryPoint_ne
  code s a :=
    if a = 8 then
      some fun msg =>
        match msg.message with
        | .validatePaymasterUserOp _ _ _ => pure (.words [64, 0, 1, 2 ^ 255])
        | _ => pure default
    else
      sample.code s a
  codeLength _ a := if a = 3 ∨ a = 8 then 1 else 0
  delegate := sample.delegate
  clearTransient := id

def sponsoredOp : PackedUserOperation :=
  { sampleOp 3 with paymasterAndData := (Abi.wordBytes 8).drop 12 ++ List.replicate 32 0 }

def sponsoredTx : Transaction Message := bundleTx (.handleOps [sponsoredOp] 5)

def sponsoredWorld : World (Chain Unit) :=
  (execute sponsored.system 2 { depositTx with message := .depositTo 8 } sampleWorld).state.world

theorem contexts_handed_back_sponsoredOp
    : ∃ pre post, (execute sponsored.system 5 sponsoredTx sponsoredWorld).body = pre ++ post
        ∧ post.filterMap contextPassed = pre.filterMap contextReturned
        ∧ pre.filterMap contextReturned = [(8, [128])] := by
  have hok : (execute sponsored.system 5 sponsoredTx sponsoredWorld).ok = true := by decide +kernel
  have hreturned : (execute sponsored.system 5 sponsoredTx sponsoredWorld).body.filterMap contextReturned
      = [(8, [128])] := by decide +kernel
  obtain ⟨pre, post, hbody, hcontexts, _, hpost, _⟩ := contexts_handed_back (committed_execute hok) rfl rfl
  rw [hbody, List.filterMap_append, hpost, List.append_nil] at hreturned
  exact ⟨pre, post, hbody, hcontexts, hreturned⟩

end Deployment
