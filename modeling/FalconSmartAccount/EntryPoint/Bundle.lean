import FalconSmartAccount.EntryPoint.BundleRuns
import FalconSmartAccount.EntryPoint.Settlement

/-!
The trace of a whole bundle: all operations are validated before the first one is executed, and each
one is executed with what its own validation returned.
-/

open Evm

namespace Deployment

open EntryPoint

variable {X : Type}

section

variable (d : Deployment X) (msg : Frame Message)

inductive Validations
    : List (Address × PackedUserOperation) → List UserOpInfo → Chain.Trace X → Prop where
  | nil : Validations [] [] []
  | cons {aggregator op ops opInfo opInfos t t'} :
      d.Validation msg aggregator op opInfo t → Validations ops opInfos t' →
      Validations ((aggregator, op) :: ops) (opInfo :: opInfos) (t ++ t')

inductive Executions
    : List PackedUserOperation → List UserOpInfo → List Nat → Chain.Trace X → Prop where
  | nil : Executions [] [] [] []
  | changed {ops opInfos costs a t} :
      Executions ops opInfos costs t →
      Executions ops opInfos costs (.log (.signatureAggregatorChanged a) :: t)
  | cons {op ops opInfo opInfos cost costs t t'} :
      Settlement msg op opInfo cost t → Executions ops opInfos costs t' →
      Executions (op :: ops) (opInfo :: opInfos) (cost :: costs) (t ++ t')

/-- The trace of a bundle, which `opInfos` and `costs` are the results of. -/
inductive Bundle (opas : List UserOpsPerAggregator) (beneficiary : Address) (opInfos : List UserOpInfo)
    (costs : List Nat) (t : Chain.Trace X) : Prop where
  | mk {before0 after0 ts tv te before1 after1 before2 after2 ret body before3 after3} :
      Guards before0 after0 →
      SignatureChecks msg opas ts →
      Validations d msg (UserOpsPerAggregator.flatten opas) opInfos tv →
      Executions msg ((UserOpsPerAggregator.flatten opas).map Prod.snd) opInfos costs te →
      Pays (costs.sum % Yul.wordSize) before1 after1 →
      Guards before3 after3 →
      t = .sstore before0 after0 :: (ts ++ tv ++ .log .beforeExecution :: (te ++
          [.sstore before1 after1,
            .call ⟨beneficiary, msg.self, costs.sum % Yul.wordSize, .bytes [], msg.env⟩
              before2 after2 true ret body,
            .sstore before3 after3])) →
      Bundle opas beneficiary opInfos costs t

/-- All of `opInfos` have been filled for their operations, in parts of `t`. -/
def Fills (inv : Frame Message → State (Chain X) → Reply (Chain X) Message ReturnData Log)
    (ops : List (Address × PackedUserOperation)) (opInfos : List UserOpInfo) (t : Chain.Trace X) : Prop :=
  List.Forall₂ (fun aop opInfo => Filled d inv msg aop.2 opInfo t) ops opInfos

end

variable {d : Deployment X} {msg : Frame Message}

theorem Fills.mono {inv : Frame Message → State (Chain X) → Reply (Chain X) Message ReturnData Log}
    {ops : List (Address × PackedUserOperation)} {opInfos : List UserOpInfo} {t t' : Chain.Trace X}
    (h : Fills d msg inv ops opInfos t) (hpart : t <:+: t')
    : Fills d msg inv ops opInfos t' := by
  refine h.imp fun aop opInfo hfilled => ?_
  obtain ⟨opIndex, outOpInfo, validationData, pmValidationData, s, s', t0, ht0, hrun⟩ := hfilled
  exact ⟨opIndex, outOpInfo, validationData, pmValidationData, s, s', t0, ht0.trans hpart, hrun⟩

/-! ## Runs -/

variable {inv : Frame Message → State (Chain X) → Reply (Chain X) Message ReturnData Log} {m : Nat}
  {s s' : State (Chain X)} {t : Chain.Trace X} {ops : List PackedUserOperation}
  {opas : List UserOpsPerAggregator} {opInfos opInfos' : List UserOpInfo}

theorem Validations.prefund_lt {ops : List (Address × PackedUserOperation)}
    (h : Validations d msg ops opInfos t)
    : ∀ opInfo ∈ opInfos, opInfo.prefund < Yul.wordSize := by
  induction h with
  | nil => exact fun opInfo hmem => absurd hmem List.not_mem_nil
  | cons hop _ ih =>
    intro opInfo hmem
    rcases List.mem_cons.mp hmem with rfl | hmem
    . rw [hop.prefund]
      exact Nat.mod_lt _ (by unfold Yul.wordSize; omega)
    . exact ih opInfo hmem

theorem ValidationRuns.validations {aops : List (Address × PackedUserOperation)}
    (h : ValidationRuns d msg inv aops opInfos t)
    : Validations d msg aops opInfos t := by
  induction h with
  | nil => exact .nil
  | cons h1 hdata hpmdata _ ih => exact .cons ((validatePrepayment_returns h1).validation hdata hpmdata) ih

theorem ValidationRuns.fills {aops : List (Address × PackedUserOperation)}
    (h : ValidationRuns d msg inv aops opInfos t)
    : Fills d msg inv aops opInfos t := by
  induction h with
  | nil => exact .nil
  | cons h1 _ _ _ ih =>
    refine .cons ⟨_, _, _, _, _, _, _, ?_, h1⟩ (ih.mono ?_)
    . exact (List.prefix_append _ _).isInfix
    . exact (List.suffix_append _ _).isInfix

theorem ExecutionRuns.executions {costs : List Nat} (hself : msg.self = d.entryPoint)
    (hprefund : ∀ opInfo ∈ opInfos, opInfo.prefund < Yul.wordSize)
    (h : ExecutionRuns d msg (invoke d.system m) ops opInfos costs t)
    : Executions msg ops opInfos costs t := by
  induction h with
  | nil => exact .nil
  | changed _ ih => exact .changed (ih hprefund)
  | cons h1 _ ih =>
    have hop := executeUserOp_returns hself (hprefund _ List.mem_cons_self) h1
    exact .cons hop (ih fun opInfo hopInfo => hprefund opInfo (List.mem_cons_of_mem _ hopInfo))

theorem BundleRuns.bundle {beneficiary : Address} {costs : List Nat} (hself : msg.self = d.entryPoint)
    (h : BundleRuns d msg (invoke d.system m) opas beneficiary opInfos costs t)
    : Bundle d msg opas beneficiary opInfos costs t := by
  obtain ⟨hguard, hchecks, hvalidations, hexecutions, hpays, hguard', ht⟩ := h
  have hprefund := hvalidations.validations.prefund_lt
  exact ⟨hguard, hchecks, hvalidations.validations, hexecutions.executions hself hprefund, hpays, hguard', ht⟩

theorem BundleRuns.fills {beneficiary : Address} {costs : List Nat}
    (h : BundleRuns d msg inv opas beneficiary opInfos costs t)
    : Fills d msg inv (UserOpsPerAggregator.flatten opas) opInfos t := by
  obtain @⟨before0, after0, ts, tv, te, before1, after1, before2, after2, ret, body, before3, after3,
    _, _, hvalidations, _, _, _, ht⟩ := h
  apply hvalidations.fills.mono
  rw [ht, List.append_assoc, ← List.cons_append]
  exact ⟨_, _, List.append_assoc _ _ _⟩

/-! ## Calls -/

theorem dispatch_bundle {beneficiary : Address} {ret : ReturnData} (hself : msg.self = d.entryPoint)
    (hbundle : bundleOf (decodeMessage d.cfg msg.message) = some (opas, beneficiary))
    (h : d.Returns (invoke d.system m) msg (dispatch d.cfg msg) s ret s' t)
    : ∃ opInfos costs, Bundle d msg opas beneficiary opInfos costs t
        ∧ Fills d msg (invoke d.system m) (UserOpsPerAggregator.flatten opas) opInfos t := by
  obtain ⟨opInfos, costs, hruns⟩ := dispatch_runs hbundle h
  exact ⟨opInfos, costs, hruns.bundle hself, hruns.fills⟩

/-- A bundle that does not revert. -/
theorem invoke_bundle {n : Nat} {beneficiary : Address} (hself : msg.self = d.entryPoint)
    (hbundle : bundleOf (decodeMessage d.cfg msg.message) = some (opas, beneficiary))
    (hok : (invoke d.system n msg s).ok = true)
    : ∃ w opInfos costs t, (invoke d.system n msg s).body = .enter w :: t
        ∧ Bundle d msg opas beneficiary opInfos costs t := by
  obtain ⟨m, w, opInfos, costs, t, hbody, hruns⟩ := invoke_bundleRuns hself hbundle hok
  exact ⟨w, opInfos, costs, t, hbody, hruns.bundle hself⟩

/-! ## Events -/

variable {P : Event (Chain X) Message ReturnData Log → Prop}

theorem SignatureChecks.forall_mem (h : SignatureChecks msg opas t)
    (hcheck : ∀ opa ∈ opas, ∀ before after ret body, P (.call ⟨opa.aggregator, msg.self, 0,
      .validateSignatures opa.userOps opa.signature, msg.env⟩ before after true ret body))
    : ∀ e ∈ t, P e := by
  induction h with
  | nil => exact fun e he => absurd he List.not_mem_nil
  | skip _ _ ih => exact ih fun opa hopa => hcheck opa (List.mem_cons_of_mem _ hopa)
  | check _ _ _ ih =>
    intro e he
    rcases List.mem_cons.mp he with rfl | he
    . exact hcheck _ List.mem_cons_self _ _ _ _
    . exact ih (fun opa hopa => hcheck opa (List.mem_cons_of_mem _ hopa)) e he

theorem Validations.forall_mem {aops : List (Address × PackedUserOperation)}
    (h : Validations d msg aops opInfos t) (hop : ∀ op mUserOp e, d.Validating msg op mUserOp e → P e)
    : ∀ e ∈ t, P e := by
  induction h with
  | nil => exact fun e he => absurd he List.not_mem_nil
  | cons hfirst _ ih =>
    intro e he
    rcases List.mem_append.mp he with he | he
    . exact hop _ _ e (hfirst.events e he)
    . exact ih e he

theorem Executions.forall_mem {costs : List Nat} (h : Executions msg ops opInfos costs t)
    (hchanged : ∀ a, P (.log (.signatureAggregatorChanged a)))
    (hop : ∀ op opInfo cost t, Settlement msg op opInfo cost t → ∀ e ∈ t, P e)
    : ∀ e ∈ t, P e := by
  induction h with
  | nil => exact fun e he => absurd he List.not_mem_nil
  | changed _ ih =>
    intro e he
    rcases List.mem_cons.mp he with rfl | he
    . exact hchanged _
    . exact ih e he
  | cons hfirst _ ih =>
    intro e he
    rcases List.mem_append.mp he with he | he
    . exact hop _ _ _ _ hfirst e he
    . exact ih e he

/-! ## Validation comes first -/

/-- What an event executes, if it is the call that executes an operation. -/
def execution : Event (Chain X) Message ReturnData Log → Option (CallData × UserOpInfo × Bytes)
  | .call ⟨_, _, _, .innerHandleOp callData opInfo context, _⟩ _ _ _ _ _ =>
    some (callData, opInfo, context)
  | _ => none

/-- What a frame executes. -/
def executed (t : Chain.Trace X) : List (CallData × UserOpInfo × Bytes) := t.filterMap execution

theorem executed_append (t t' : Chain.Trace X) : executed (t ++ t') = executed t ++ executed t' :=
  List.filterMap_append

theorem executed_nil_of {t : Chain.Trace X} (h : ∀ e ∈ t, execution e = none) : executed t = [] :=
  List.filterMap_eq_nil_iff.mpr h

theorem Validating.execution {op : PackedUserOperation} {mUserOp : MemoryUserOp}
    {e : Event (Chain X) Message ReturnData Log} (h : d.Validating msg op mUserOp e)
    : Deployment.execution e = none := by
  cases h <;> rfl

theorem Settled.executed {opInfo : UserOpInfo} {success : Bool} {cost : Nat}
    (h : Settled opInfo success cost t)
    : Deployment.executed t = [] := by
  cases h <;> rfl

theorem Settlement.executed {op : PackedUserOperation} {opInfo : UserOpInfo} {cost : Nat}
    (h : Settlement msg op opInfo cost t)
    : Deployment.executed t = [(innerCallData op opInfo, opInfo, opInfo.context)] := by
  cases h with
  | inner => rfl
  | lowPrefund h => exact congrArg _ h.executed
  | postOpReverted h => exact congrArg _ h.executed

theorem SignatureChecks.executed (h : SignatureChecks msg opas t) : Deployment.executed t = [] :=
  executed_nil_of (h.forall_mem fun _ _ _ _ _ _ => rfl)

theorem Validations.executed {ops : List (Address × PackedUserOperation)}
    (h : Validations d msg ops opInfos t)
    : Deployment.executed t = [] :=
  executed_nil_of (h.forall_mem fun _ _ _ he => he.execution)

theorem Executions.executed {costs : List Nat} (h : Executions msg ops opInfos costs t)
    : Deployment.executed t
        = List.zipWith (fun op opInfo => (innerCallData op opInfo, opInfo, opInfo.context)) ops opInfos := by
  induction h with
  | nil => rfl
  | changed _ ih => exact ih
  | cons hop _ ih =>
    rw [executed_append, hop.executed, ih]
    rfl

theorem SignatureChecks.called (h : SignatureChecks msg opas t)
    : ∀ opa ∈ opas, opa.aggregator ≠ 0 → ∃ ret,
        Called msg opa.aggregator (.validateSignatures opa.userOps opa.signature) ret t := by
  induction h with
  | nil => exact fun opa hmem => absurd hmem List.not_mem_nil
  | skip hzero _ ih =>
    intro opa hmem hne
    rcases List.mem_cons.mp hmem with rfl | hmem
    . exact absurd hzero hne
    . exact ih opa hmem hne
  | check _ _ _ ih =>
    intro opa hmem hne
    rcases List.mem_cons.mp hmem with rfl | hmem
    . exact ⟨_, _, _, _, List.mem_cons_self⟩
    . obtain ⟨ret, hcalled⟩ := ih opa hmem hne
      exact ⟨ret, hcalled.mono fun e he => List.mem_cons_of_mem _ he⟩

/-- The operation has been validated in the trace: it is what `opInfo` says, and its account and its
paymaster have agreed. -/
structure Validated (d : Deployment X) (msg : Frame Message) (aggregator : Address)
    (op : PackedUserOperation) (opInfo : UserOpInfo) (t : Chain.Trace X) : Prop where
  mUserOp : copyUserOpToMemory op = some opInfo.mUserOp
  userOpHash : opInfo.userOpHash = getUserOpHash d.cfg op
  account : d.AccountAgrees msg aggregator op t
  paymaster : opInfo.mUserOp.paymaster ≠ 0 →
    d.PaymasterAgrees msg op opInfo.mUserOp opInfo.context t

theorem Validated.mono {aggregator : Address} {op : PackedUserOperation} {opInfo : UserOpInfo}
    {t t' : Chain.Trace X} (h : Validated d msg aggregator op opInfo t) (hsub : ∀ e ∈ t, e ∈ t')
    : Validated d msg aggregator op opInfo t' :=
  ⟨h.mUserOp, h.userOpHash, h.account.mono hsub, fun hne => (h.paymaster hne).mono hsub⟩

theorem Validations.validated {ops : List (Address × PackedUserOperation)}
    (h : Validations d msg ops opInfos t)
    : List.Forall₂ (fun aop opInfo => Validated d msg aop.1 aop.2 opInfo t) ops opInfos := by
  induction h with
  | nil => exact .nil
  | cons hop _ ih =>
    refine .cons ?_ (ih.imp fun _ _ hv => hv.mono fun e he => List.mem_append_right _ he)
    exact (Validated.mk hop.mUserOp hop.userOpHash hop.account hop.paymaster).mono fun e he =>
      List.mem_append_left _ he

theorem Bundle.validated {beneficiary : Address} {costs : List Nat}
    (h : Bundle d msg opas beneficiary opInfos costs t)
    : List.Forall₂ (fun aop opInfo => Validated d msg aop.1 aop.2 opInfo t)
        (UserOpsPerAggregator.flatten opas) opInfos := by
  obtain @⟨before0, after0, ts, tv, te, before1, after1, before2, after2, ret, body, before3, after3,
    _, _, hvalidations, _, _, _, ht⟩ := h
  exact hvalidations.validated.imp fun _ _ hv => hv.mono fun e he => by
    rw [ht]
    simp [he]

/-- A bundle either changes nothing, or validates all its operations before it executes the first one,
and executes each one with what its own validation returned. -/
theorem validated_before_executed {n : Nat} {beneficiary : Address} (hself : msg.self = d.entryPoint)
    (hbundle : bundleOf (decodeMessage d.cfg msg.message) = some (opas, beneficiary))
    : ((invoke d.system n msg s).ok = false → (invoke d.system n msg s).state.world = s.world)
      ∧ ((invoke d.system n msg s).ok = true → ∃ pre post opInfos,
          (invoke d.system n msg s).body = pre ++ .log .beforeExecution :: post
          ∧ executed pre = []
          ∧ executed post = List.zipWith
              (fun aop opInfo => (innerCallData aop.2 opInfo, opInfo, opInfo.context))
              (UserOpsPerAggregator.flatten opas) opInfos
          ∧ (∀ opa ∈ opas, opa.aggregator ≠ 0 → ∃ ret,
              Called msg opa.aggregator (.validateSignatures opa.userOps opa.signature) ret pre)
          ∧ List.Forall₂ (fun aop opInfo => Validated d msg aop.1 aop.2 opInfo pre)
              (UserOpsPerAggregator.flatten opas) opInfos) := by
  refine ⟨invoke_failed d.system, fun hok => ?_⟩
  obtain ⟨w, opInfos, costs, t, hbody, hrun⟩ := invoke_bundle hself hbundle hok
  obtain @⟨before0, after0, ts, tv, te, before1, after1, before2, after2, ret, body, before3, after3,
    _, hchecks, hvalidations, hexecutions, _, _, ht⟩ := hrun
  have hpost := hexecutions.executed
  rw [List.zipWith_map_left] at hpost
  rw [ht] at hbody
  refine ⟨.enter w :: .sstore before0 after0 :: (ts ++ tv), te ++ [.sstore before1 after1,
    .call ⟨beneficiary, msg.self, costs.sum % Yul.wordSize, .bytes [], msg.env⟩ before2 after2 true ret
      body, .sstore before3 after3], opInfos, by rw [hbody]; rfl, ?_, ?_, ?_, ?_⟩
  . change executed (ts ++ tv) = []
    rw [executed_append, hchecks.executed, hvalidations.executed]
    rfl
  . rw [executed_append, hpost]
    exact List.append_nil _
  . intro opa hmem hne
    obtain ⟨ret, hcalled⟩ := hchecks.called opa hmem hne
    exact ⟨ret, hcalled.mono fun e he => by simp [he]⟩
  . exact hvalidations.validated.imp fun _ _ hv => hv.mono fun e he => by simp [he]

/-- Two groups, the second one with an aggregator. -/
theorem validated_before_executed_mixedTx
    : let r := invoke mixed.system 7 mixedTx.frame mixedStart
      ∃ pre post opInfos, r.body = pre ++ .log .beforeExecution :: post ∧ opInfos.length = 3
        ∧ executed pre = []
        ∧ executed post = List.zipWith
            (fun (aop : Address × PackedUserOperation) opInfo =>
              (innerCallData aop.2 opInfo, opInfo, opInfo.context))
            [(0, callOp 3 0), (0, paidOp 3 1), (9, paidOp 7 0)] opInfos
        ∧ (∃ ret, Called mixedTx.frame 9 (.validateSignatures [paidOp 7 0] [1, 2]) ret pre)
        ∧ List.Forall₂ (fun aop opInfo => Validated mixed mixedTx.frame aop.1 aop.2 opInfo pre)
            [(0, callOp 3 0), (0, paidOp 3 1), (9, paidOp 7 0)] opInfos := by
  intro r
  have hok : r.ok = true := by decide +kernel
  obtain ⟨pre, post, opInfos, hbody, hpre, hpost, hchecks, hvalidated⟩ :=
    (@validated_before_executed _ mixed _ mixedStart mixedGroups 7 5 rfl rfl).2 hok
  refine ⟨pre, post, opInfos, hbody, hvalidated.length_eq.symm, hpre, hpost, ?_, hvalidated⟩
  apply hchecks ⟨[paidOp 7 0], 9, [1, 2]⟩
  . exact List.mem_cons_of_mem _ (List.mem_singleton_self _)
  . decide

end Deployment
