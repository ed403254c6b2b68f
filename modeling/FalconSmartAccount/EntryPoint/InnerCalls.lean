import FalconSmartAccount.EntryPoint.Effect

/-!
Who gets past the caller check of `innerHandleOp`. The entry point calls addresses that users choose
with data that users choose, but the account of an operation has been validated before it is called,
and the entry point validates nothing.
-/

open Evm

namespace Deployment

open EntryPoint

variable {X : Type}

section

variable (d : Deployment X)

/-- The frame of a call of `innerHandleOp` that did not revert. -/
def innerCall : Event (Chain X) Message ReturnData Log → Option (Frame Message)
  | .call frame _ _ true _ _ =>
    match decodeMessage d.cfg frame.message with
    | .innerHandleOp _ _ _ => if frame.self = d.entryPoint then some frame else none
    | _ => none
  | _ => none

def innerCalls (t : Chain.Trace X) : List (Frame Message) := t.filterMap d.innerCall

end

variable {d : Deployment X} {msg : Frame Message} {t : Chain.Trace X} {op : PackedUserOperation}
  {opInfo : UserOpInfo} {cost : Nat}

theorem innerCalls_append (t t' : Chain.Trace X)
    : d.innerCalls (t ++ t') = d.innerCalls t ++ d.innerCalls t' :=
  List.filterMap_append

theorem innerCalls_cons (e : Event (Chain X) Message ReturnData Log) (t : Chain.Trace X)
    : d.innerCalls (e :: t) = (d.innerCall e).toList ++ d.innerCalls t := by
  unfold innerCalls
  rw [List.filterMap_cons]
  cases d.innerCall e <;> rfl

theorem innerCalls_nil_of (h : ∀ e ∈ t, d.innerCall e = none) : d.innerCalls t = [] :=
  List.filterMap_eq_nil_iff.mpr h

/-- A call with any other message. -/
theorem innerCall_none {frame : Frame Message} {before after : World (Chain X)} {ok : Bool}
    {ret : ReturnData} {body : Chain.Trace X}
    (h : ∀ callData opInfo context,
      decodeMessage d.cfg frame.message ≠ .innerHandleOp callData opInfo context)
    : d.innerCall (.call frame before after ok ret body) = none := by
  unfold innerCall
  cases ok with
  | false => rfl
  | true =>
    dsimp only
    split
    . next heq => exact absurd heq (h _ _ _)
    . rfl

/-- A call of another contract. -/
theorem innerCall_other {frame : Frame Message} {before after : World (Chain X)} {ok : Bool}
    {ret : ReturnData} {body : Chain.Trace X} (hself : frame.self ≠ d.entryPoint)
    : d.innerCall (.call frame before after ok ret body) = none := by
  unfold innerCall
  cases ok with
  | false => rfl
  | true =>
    dsimp only
    split
    . exact if_neg hself
    . rfl

theorem innerCall_eq_some {frame : Frame Message} {e : Event (Chain X) Message ReturnData Log}
    (h : d.innerCall e = some frame)
    : ∃ before after ret body, e = .call frame before after true ret body
        ∧ frame.self = d.entryPoint
        ∧ ∃ callData opInfo context,
            decodeMessage d.cfg frame.message = .innerHandleOp callData opInfo context := by
  unfold innerCall at h
  split at h
  . split at h
    . next heq =>
      split at h
      . next hself =>
        cases h
        exact ⟨_, _, _, _, rfl, hself, _, _, _, heq⟩
      . cases h
    . cases h
  . cases h

theorem innerCall_eq {frame : Frame Message} {before after : World (Chain X)} {ret : ReturnData}
    {body : Chain.Trace X} {callData : CallData} {context : Bytes} (hself : frame.self = d.entryPoint)
    (hmessage : decodeMessage d.cfg frame.message = .innerHandleOp callData opInfo context)
    : d.innerCall (.call frame before after true ret body) = some frame := by
  unfold innerCall
  simp only [hmessage, hself, if_true]

/-! ## Bundles -/

theorem Validating.innerCall {mUserOp : MemoryUserOp} {e : Event (Chain X) Message ReturnData Log}
    (h : d.Validating msg op mUserOp e)
    : d.innerCall e = none := by
  cases h with
  | create => exact innerCall_none fun _ _ _ => Message.noConfusion
  | deployed => rfl
  | account => exact innerCall_none fun _ _ _ => Message.noConfusion
  | paymaster => exact innerCall_none fun _ _ _ => Message.noConfusion
  | locks _ => rfl
  | accepts _ => rfl

theorem Settled.innerCalls {success : Bool} (h : Settled opInfo success cost t)
    : d.innerCalls t = [] := by
  cases h <;> rfl

theorem Settlement.innerCalls (h : Settlement msg op opInfo cost t)
    : (d.innerCalls t).Sublist [innerHandleOpFrame msg op opInfo] := by
  have hcall : ∀ before after ok ret body, ∀ ts : Chain.Trace X, d.innerCalls ts = [] →
      (d.innerCalls (.call (innerHandleOpFrame msg op opInfo) before after ok ret body :: ts)).Sublist
        [innerHandleOpFrame msg op opInfo] := by
    intro before after ok ret body ts hts
    rw [innerCalls_cons, hts, List.append_nil]
    cases hframe : d.innerCall (.call (innerHandleOpFrame msg op opInfo) before after ok ret body) with
    | none => exact List.nil_sublist _
    | some frame =>
      obtain ⟨_, _, _, _, heq, _⟩ := innerCall_eq_some hframe
      cases heq
      exact .refl _
  cases h with
  | inner => exact hcall _ _ _ _ _ [] rfl
  | lowPrefund h => exact hcall _ _ _ _ _ _ h.innerCalls
  | postOpReverted h => exact hcall _ _ _ _ _ _ h.innerCalls

theorem SignatureChecks.innerCalls {opas : List UserOpsPerAggregator} (h : SignatureChecks msg opas t)
    : d.innerCalls t = [] :=
  innerCalls_nil_of (h.forall_mem fun _ _ _ _ _ _ => innerCall_none fun _ _ _ => Message.noConfusion)

theorem Validations.innerCalls {ops : List (Address × PackedUserOperation)} {opInfos : List UserOpInfo}
    (h : Validations d msg ops opInfos t)
    : d.innerCalls t = [] :=
  innerCalls_nil_of (h.forall_mem fun _ _ _ he => he.innerCall)

theorem Executions.innerCalls {ops : List PackedUserOperation} {opInfos : List UserOpInfo}
    {costs : List Nat} (h : Executions msg ops opInfos costs t)
    : (d.innerCalls t).Sublist (List.zipWith (innerHandleOpFrame msg) ops opInfos) := by
  induction h with
  | nil => exact .refl _
  | changed _ ih => exact ih
  | cons hop _ ih =>
    rw [innerCalls_append]
    exact hop.innerCalls.append ih

/-- A bundle validates all its operations before it makes the first inner call, and makes at most one
for each of them. -/
theorem Bundle.split {opas : List UserOpsPerAggregator} {beneficiary : Address}
    {opInfos : List UserOpInfo} {costs : List Nat} (h : Bundle d msg opas beneficiary opInfos costs t)
    : ∃ pre post, t = pre ++ post ∧ d.innerCalls pre = []
        ∧ (d.innerCalls post).Sublist (List.zipWith (fun aop opInfo => innerHandleOpFrame msg aop.2 opInfo)
          (UserOpsPerAggregator.flatten opas) opInfos)
        ∧ List.Forall₂ (fun aop opInfo => Validated d msg aop.1 aop.2 opInfo pre)
          (UserOpsPerAggregator.flatten opas) opInfos := by
  obtain @⟨before0, after0, ts, tv, te, before1, after1, before2, after2, ret, body, before3, after3,
    _, hchecks, hvalidations, hexecutions, _, _, ht⟩ := h
  have hexecutions := hexecutions.innerCalls (d := d)
  rw [List.zipWith_map_left] at hexecutions
  have hend : d.innerCalls [.sstore before1 after1,
      .call ⟨beneficiary, msg.self, costs.sum % Yul.wordSize, .bytes [], msg.env⟩ before2 after2 true ret
        body, .sstore before3 after3] = [] := by
    apply innerCalls_nil_of
    simp only [List.mem_cons, List.not_mem_nil, or_false]
    rintro e (rfl | rfl | rfl)
    . rfl
    . exact innerCall_none fun _ _ _ => Message.noConfusion
    . rfl
  refine ⟨.sstore before0 after0 :: (ts ++ tv ++ [.log .beforeExecution]), te
    ++ [.sstore before1 after1,
      .call ⟨beneficiary, msg.self, costs.sum % Yul.wordSize, .bytes [], msg.env⟩ before2 after2 true ret
        body, .sstore before3 after3], ?_, ?_, ?_, ?_⟩
  . rw [ht]
    simp
  . change d.innerCalls (ts ++ tv ++ [.log .beforeExecution]) = []
    rw [innerCalls_append, innerCalls_append, hchecks.innerCalls, hvalidations.innerCalls]
    rfl
  . rw [innerCalls_append, hend, List.append_nil]
    exact hexecutions
  . exact hvalidations.validated.imp fun _ _ hv => hv.mono fun e he => by simp [he]

theorem Bundle.innerCalls {opas : List UserOpsPerAggregator} {beneficiary : Address}
    {opInfos : List UserOpInfo} {costs : List Nat} (h : Bundle d msg opas beneficiary opInfos costs t)
    : (d.innerCalls t).Sublist (List.zipWith (fun aop opInfo => innerHandleOpFrame msg aop.2 opInfo)
        (UserOpsPerAggregator.flatten opas) opInfos) := by
  obtain ⟨pre, post, ht, hpre, hpost, _⟩ := h.split
  rw [ht, innerCalls_append, hpre, List.nil_append]
  exact hpost

/-- An inner call comes after the validation of its operation. -/
theorem Bundle.validated_innerCall {opas : List UserOpsPerAggregator} {beneficiary : Address}
    {opInfos : List UserOpInfo} {costs : List Nat} {frame : Frame Message}
    {e : Event (Chain X) Message ReturnData Log} (h : Bundle d msg opas beneficiary opInfos costs t)
    (he : e ∈ t) (hinner : d.innerCall e = some frame)
    : ∃ pre post aop opInfo, t = pre ++ post ∧ e ∈ post ∧ frame = innerHandleOpFrame msg aop.2 opInfo
        ∧ aop ∈ UserOpsPerAggregator.flatten opas ∧ Validated d msg aop.1 aop.2 opInfo pre := by
  obtain ⟨pre, post, ht, hpre, hpost, hvalidated⟩ := h.split
  rw [ht] at he
  have hmem : e ∈ post := by
    rcases List.mem_append.mp he with he | he
    . rw [List.filterMap_eq_nil_iff.mp hpre e he] at hinner
      cases hinner
    . exact he
  have hframe := hpost.subset (List.mem_filterMap.mpr ⟨e, hmem, hinner⟩)
  rw [← List.map_uncurry_zip_eq_zipWith] at hframe
  obtain ⟨⟨aop, opInfo⟩, hzip, rfl⟩ := List.mem_map.mp hframe
  exact ⟨pre, post, aop, opInfo, ht, hmem, rfl, (List.of_mem_zip hzip).1, List.forall₂_zip hvalidated hzip⟩

/-! ## Calls of the entry point -/

/-- An inner call is for an account other than the entry point. -/
def Vetted (d : Deployment X) (frame : Frame Message) : Prop :=
  frame.caller = d.entryPoint → frame.self = d.entryPoint → ∀ callData opInfo context,
    decodeMessage d.cfg frame.message = .innerHandleOp callData opInfo context →
      opInfo.mUserOp.sender ≠ d.entryPoint

theorem AccountCall.innerCalls {callData : CallData} {success : Bool}
    (h : AccountCall msg callData opInfo success t) (hsender : opInfo.mUserOp.sender ≠ d.entryPoint)
    : d.innerCalls t = [] := by
  cases h with
  | none _ => rfl
  | call =>
    rw [innerCalls_cons, innerCall_other hsender]
    rfl
  | reason =>
    rw [innerCalls_cons, innerCall_other hsender]
    rfl

theorem PostOpCall.innerCalls (h : PostOpCall msg opInfo t) : d.innerCalls t = [] := by
  cases h with
  | none => rfl
  | call =>
    rw [innerCalls_cons, innerCall_none fun _ _ _ => Message.noConfusion]
    rfl

/-- Only bundles make inner calls. -/
theorem Effect.innerCalls {message : Message} (h : Effect d msg message t)
    (hmessage : decodeMessage d.cfg msg.message = message) (hself : msg.self = d.entryPoint)
    (hvetted : Vetted d msg)
    : d.innerCalls t = [] ∨ ∃ opas beneficiary opInfos costs n,
        bundleOf message = some (opas, beneficiary) ∧ Bundle d msg opas beneficiary opInfos costs t
        ∧ Fills d msg (invoke d.system n) (UserOpsPerAggregator.flatten opas) opInfos t := by
  cases h with
  | bundle hmessage hbundle hfills => exact .inr ⟨_, _, _, _, _, hmessage, hbundle, hfills⟩
  | inner hcaller hcall hpost hsettled =>
    apply Or.inl
    have hsender := hvetted (hcaller.trans hself) hself _ _ _ hmessage
    rw [innerCalls_append, innerCalls_append, hcall.innerCalls hsender, hpost.innerCalls,
      hsettled.innerCalls]
    rfl
  | withdrawStake | withdrawTo =>
    apply Or.inl
    rw [innerCalls_cons, innerCalls_cons, innerCalls_cons, innerCall_none fun _ _ _ => Message.noConfusion]
    rfl
  | _ => exact .inl rfl

/-- An inner call that does not revert is made by a bundle. -/
theorem invoke_innerCall {n : Nat} {frame : Frame Message} {s : State (Chain X)} {callee : Frame Message}
    {e : Event (Chain X) Message ReturnData Log} (hvetted : Vetted d frame)
    (hok : (invoke d.system n frame s).ok = true) (he : e ∈ (invoke d.system n frame s).body)
    (hcall : d.innerCall e = some callee) (hcaller : callee.caller = d.entryPoint)
    : ∃ w t opas beneficiary opInfos costs m, (invoke d.system n frame s).body = .enter w :: t ∧ e ∈ t
        ∧ frame.self = d.entryPoint
        ∧ bundleOf (decodeMessage d.cfg frame.message) = some (opas, beneficiary)
        ∧ Bundle d frame opas beneficiary opInfos costs t
        ∧ Fills d frame (invoke d.system m) (UserOpsPerAggregator.flatten opas) opInfos t := by
  obtain ⟨before, after, ret, body, rfl, _⟩ := innerCall_eq_some hcall
  obtain ⟨hframe, _⟩ := invoke_call d.system he
  rw [hcaller] at hframe
  obtain ⟨w, t, _, hbody, heffect⟩ := invoke_effect hframe.symm hok
  rw [hbody] at he
  have hmem := (List.mem_cons.mp he).resolve_left fun h => by cases h
  rcases heffect.innerCalls rfl hframe.symm hvetted with
    hnil | ⟨opas, beneficiary, opInfos, costs, m, hmessage, hbundle, hfills⟩
  . rw [List.filterMap_eq_nil_iff.mp hnil _ hmem] at hcall
    cases hcall
  . exact ⟨w, t, opas, beneficiary, opInfos, costs, m, hbody, hmem, hframe.symm, hmessage, hbundle, hfills⟩

/-- Who has agreed to an operation in a call that does not revert is not the entry point. -/
theorem Validated.sender_ne {n : Nat} {frame : Frame Message} {s : State (Chain X)} {w : World (Chain X)}
    {aggregator : Address} (h : Validated d frame aggregator op opInfo t)
    (hbody : (invoke d.system n frame s).body = .enter w :: t)
    : opInfo.mUserOp.sender ≠ d.entryPoint := by
  obtain ⟨missing, ret, validationData, ⟨before, after, body, hcall⟩, _⟩ := h.account
  rw [(copyUserOpToMemory_eq h.mUserOp).1]
  intro hsender
  have hcall' := List.mem_cons_of_mem (.enter w) hcall
  rw [← hbody] at hcall'
  obtain ⟨_, _, m, _, s1, s2, hinvoke, _⟩ := invoke_call d.system hcall'
  have hrefused := (handles m).refused
    ⟨op.sender, frame.self, 0, .validateUserOp op (getUserOpHash d.cfg op) missing, frame.env⟩ s1 hsender
    (refused_validateUserOp _)
  rw [hinvoke] at hrefused
  cases hrefused

/-- The entry point calls `innerHandleOp` for accounts that have agreed to the operation. -/
theorem vetted_step {n : Nat} {frame : Frame Message} {s : State (Chain X)} {callee : Frame Message}
    {before after : World (Chain X)} {ret : ReturnData} {body : Chain.Trace X} (hvetted : Vetted d frame)
    (hok : (invoke d.system n frame s).ok = true)
    (hcall : .call callee before after true ret body ∈ (invoke d.system n frame s).body)
    : Vetted d callee := by
  intro hcaller hself callData opInfo context hmessage
  have hinner : d.innerCall (.call callee before after true ret body) = some callee :=
    innerCall_eq hself hmessage
  obtain ⟨w, t, opas, beneficiary, opInfos, costs, m, hbody, hmem, _, _, hbundle, _⟩ :=
    invoke_innerCall hvetted hok hcall hinner hcaller
  cases hbundle.bundling _ hmem with
  | check => cases hmessage
  | compensate => cases hmessage
  | validating _ hop _ he =>
    rw [(hop.events _ he).innerCall] at hinner
    cases hinner
  | inner hzip =>
    cases hmessage
    exact (List.forall₂_zip hbundle.validated hzip).sender_ne hbody

/-! ## Transactions -/

theorem Effect.not_delegate {message : Message} {before after : World (Chain X)} {body : Chain.Trace X}
    (h : Effect d msg message t)
    : .delegate before after body ∉ t := by
  intro he
  cases h with
  | bundle _ hbundle _ =>
    cases hbundle.bundling _ he with
    | validating _ hop _ he => cases hop.events _ he
  | inner _ hcall hpost hsettled =>
    cases hcall <;> cases hpost <;> cases hsettled <;> simp at he
  | _ => simp at he

/-- A frame that does not revert has delegated to nobody. -/
theorem invoke_delegate {n : Nat} {frame : Frame Message} {s : State (Chain X)}
    {before after : World (Chain X)} {body : Chain.Trace X} (hok : (invoke d.system n frame s).ok = true)
    (hmem : .delegate before after body ∈ (invoke d.system n frame s).body)
    : after = before ∧ body = [] := by
  by_cases hself : frame.self = d.entryPoint
  . obtain ⟨w, t, _, hbody, heffect⟩ := invoke_effect hself hok
    rw [hbody] at hmem
    exact absurd ((List.mem_cons.mp hmem).resolve_left fun h => by cases h) heffect.not_delegate
  . rcases invoke_body d.system hmem with ⟨w, hw⟩ | ⟨m, _, program, s1, he⟩
    . cases hw
    . apply run_events (C := fun e => ∀ before after body, e = .delegate before after body →
        after = before ∧ body = []) d.system _ program s1 _ he before after body rfl
      intro o s e he before after body heq
      subst heq
      cases o with
      | delegatecall target message =>
        simp only [perform, d.delegate_other hself, List.mem_singleton] at he
        cases he
        exact ⟨rfl, rfl⟩
      | push target value =>
        simp only [perform] at he
        split at he <;> simp at he
      | _ => simp [perform] at he

/-- What a `delegatecall` of the entry point does is always taken back. -/
theorem delegate_eq {depth : Nat} {tx : Transaction Message} {w before after : World (Chain X)}
    {body : Chain.Trace X} (h : Committed (.delegate before after body) (d.happens depth tx w))
    : after = before ∧ body = [] := by
  rcases h.frame with hmem | ⟨frame, before', after', ret, outer, hframe, hmem⟩
  . cases List.mem_singleton.mp hmem
  obtain ⟨_, m, s1, hok, _, _, _, rfl⟩ := hframe.invoked d.system
  exact invoke_delegate hok hmem

/-- An inner call that is not taken back is made by a bundle. -/
theorem committed_innerHandleOp {depth : Nat} {tx : Transaction Message} {w : World (Chain X)}
    (htx : tx.origin ≠ d.entryPoint) {frame : Frame Message} {before after : World (Chain X)}
    {ret : ReturnData} {body : Chain.Trace X} {callData : CallData} {context : Bytes}
    (hself : frame.self = d.entryPoint)
    (hmessage : decodeMessage d.cfg frame.message = .innerHandleOp callData opInfo context)
    (hcommitted : Committed (.call frame before after true ret body) (d.happens depth tx w))
    : ∃ msg before' after' ret' w' t opas beneficiary opInfos costs n,
        Committed (.call msg before' after' true ret' (.enter w' :: t)) (d.happens depth tx w)
        ∧ msg.self = d.entryPoint
        ∧ bundleOf (decodeMessage d.cfg msg.message) = some (opas, beneficiary)
        ∧ Bundle d msg opas beneficiary opInfos costs t
        ∧ .call frame before after true ret body ∈ t
        ∧ (d.innerCalls t).Sublist (List.zipWith
            (fun aop opInfo => innerHandleOpFrame msg aop.2 opInfo)
            (UserOpsPerAggregator.flatten opas) opInfos)
        ∧ List.Forall₂ (fun aop opInfo => Filled d (invoke d.system n) msg aop.2 opInfo t)
            (UserOpsPerAggregator.flatten opas) opInfos := by
  have hinner : d.innerCall (.call frame before after true ret body) = some frame :=
    innerCall_eq hself hmessage
  -- the caller check of a call that has not reverted
  have hcaller : frame.caller = d.entryPoint := by
    obtain ⟨_, m, s1, hok, _⟩ := hcommitted.invoked d.system
    obtain ⟨w', t, _, _, heffect⟩ := invoke_effect hself hok
    rw [hmessage] at heffect
    cases heffect with
    | deposit h => rcases h with h | ⟨h, _⟩ <;> cases h
    | bundle h => cases h
    | inner hcaller => exact hcaller.trans hself
  rcases hcommitted.frame with hmem | ⟨msg, before', after', ret', body', hmsg, hmem⟩
  . injection List.mem_singleton.mp hmem with heq
    rw [heq] at hcaller
    exact absurd hcaller htx
  have hvetted : Vetted d msg := committed_induct d.system
    (fun n frame s callee before after data body hframe hok hcall => vetted_step hframe hok hcall)
    (fun hcaller => absurd hcaller htx) hmsg
  obtain ⟨_, m, s1, hok, _, _, _, rfl⟩ := hmsg.invoked d.system
  obtain ⟨w', t, opas, beneficiary, opInfos, costs, n, hbody, he, hmsgSelf, hmsgMessage, hbundle, hfills⟩ :=
    invoke_innerCall hvetted hok hmem hinner hcaller
  rw [hbody] at hmsg
  exact ⟨msg, before', after', ret', w', t, opas, beneficiary, opInfos, costs, n, hmsg, hmsgSelf,
    hmsgMessage, hbundle, he, hbundle.innerCalls, hfills⟩

/-- Every execution of `innerHandleOp` that gets past the check of its caller and is not taken back
is the call that a bundle makes for one of its operations, with what `validatePrepayment` has filled
for it, and no other such call is made for the same operation. A `delegatecall` is of no use, for all
that it does is taken back. -/
theorem innerHandleOp_executions {depth : Nat} {tx : Transaction Message} {w : World (Chain X)}
    (htx : tx.origin ≠ d.entryPoint)
    : (∀ before after body, Committed (.delegate before after body) (d.happens depth tx w) →
        after = before ∧ body = [])
      ∧ ∀ frame before after ret body callData opInfo context, frame.self = d.entryPoint →
        decodeMessage d.cfg frame.message = .innerHandleOp callData opInfo context →
        Committed (.call frame before after true ret body) (d.happens depth tx w) →
          ∃ msg before' after' ret' w' t opas beneficiary opInfos costs n,
            Committed (.call msg before' after' true ret' (.enter w' :: t)) (d.happens depth tx w)
            ∧ msg.self = d.entryPoint
            ∧ bundleOf (decodeMessage d.cfg msg.message) = some (opas, beneficiary)
            ∧ Bundle d msg opas beneficiary opInfos costs t
            ∧ .call frame before after true ret body ∈ t
            ∧ (d.innerCalls t).Sublist (List.zipWith
                (fun aop opInfo => innerHandleOpFrame msg aop.2 opInfo)
                (UserOpsPerAggregator.flatten opas) opInfos)
            ∧ List.Forall₂ (fun aop opInfo => Filled d (invoke d.system n) msg aop.2 opInfo t)
                (UserOpsPerAggregator.flatten opas) opInfos := by
  refine ⟨fun before after body => delegate_eq, ?_⟩
  intro frame before after ret body callData opInfo context hself hmessage hcommitted
  exact committed_innerHandleOp htx hself hmessage hcommitted

theorem innerHandleOp_executions_mixedTx
    : let inner := mixed.innerCalls (execute mixed.system 7 mixedTx mixedWorld).body
      inner.length = 3
        ∧ ∀ frame ∈ inner, ∃ before after ret body msg opas beneficiary opInfos costs t,
          Committed (.call frame before after true ret body) (mixed.happens 7 mixedTx mixedWorld)
          ∧ Bundle mixed msg opas beneficiary opInfos costs t
          ∧ .call frame before after true ret body ∈ t
          ∧ (mixed.innerCalls t).Sublist (List.zipWith
              (fun aop opInfo => innerHandleOpFrame msg aop.2 opInfo)
              (UserOpsPerAggregator.flatten opas) opInfos) := by
  intro inner
  have hrun : (execute mixed.system 7 mixedTx mixedWorld).ok = true ∧ inner.length = 3 := by
    decide +kernel
  refine ⟨hrun.2, ?_⟩
  intro frame hframe
  obtain ⟨e, he, hinner⟩ := List.mem_filterMap.mp hframe
  obtain ⟨before, after, ret, body, rfl, hself, callData, opInfo, context, hmessage⟩ :=
    innerCall_eq_some hinner
  have hcommitted := committed_happens hrun.1 he
  obtain ⟨msg, _, _, _, _, t, opas, beneficiary, opInfos, costs, _, _, _, _, hbundle, hmem, hsub, _⟩ :=
    (innerHandleOp_executions (by decide)).2 frame before after ret body callData opInfo context hself
      hmessage hcommitted
  exact ⟨before, after, ret, body, msg, opas, beneficiary, opInfos, costs, t, hcommitted, hbundle, hmem, hsub⟩

end Deployment
