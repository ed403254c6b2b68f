import FalconSmartAccount.EntryPoint.InnerCalls

/-!
Every account that a bundle asks has to agree: what a call of `validateUserOp` returned is what the
group of the operation expects, or the bundle reverts.
-/

open Evm

namespace Deployment

open EntryPoint

variable {X : Type} {d : Deployment X} {msg : Frame Message}
  {inv : Frame Message → State (Chain X) → Reply (Chain X) Message ReturnData Log}
  {s : State (Chain X)} {t t' : Chain.Trace X} {ops : List (Address × PackedUserOperation)}
  {op : PackedUserOperation} {opInfo : UserOpInfo} {opInfos : List UserOpInfo}
  {opas : List UserOpsPerAggregator} {aggregator : Address}

/-- The event asks an account to validate an operation. -/
def asks : Event (Chain X) Message ReturnData Log → Bool
  | .call ⟨_, _, _, .validateUserOp _ _ _, _⟩ _ _ _ _ _ => true
  | _ => false

/-- Whoever is asked in the trace to validate an operation is the sender of one in `ops`, and agrees as
its group expects. -/
def Approved (d : Deployment X) (msg : Frame Message) (ops : List (Address × PackedUserOperation))
    (t : Chain.Trace X) : Prop :=
  ∀ callee before after ok ret body op userOpHash missing,
    .call callee before after ok ret body ∈ t →
    callee.message = .validateUserOp op userOpHash missing →
      callee = ⟨op.sender, msg.self, 0, .validateUserOp op (getUserOpHash d.cfg op) missing, msg.env⟩
        ∧ ok = true
        ∧ ∃ aggregator validationData, (aggregator, op) ∈ ops
          ∧ ret.decodeWord = some validationData
          ∧ getValidationData msg.env.timestamp validationData = (aggregator, false)

namespace Approved

theorem append (h : Approved d msg ops t) (h' : Approved d msg ops t') : Approved d msg ops (t ++ t') := by
  intro callee before after ok ret body op userOpHash missing he hmessage
  rcases List.mem_append.mp he with he | he
  . exact h _ _ _ _ _ _ _ _ _ he hmessage
  . exact h' _ _ _ _ _ _ _ _ _ he hmessage

theorem of_unasking (h : t.filter asks = []) : Approved d msg ops t := by
  intro callee before after ok ret body op userOpHash missing he hmessage
  obtain ⟨target, caller, value, message, env⟩ := callee
  cases hmessage
  exact absurd rfl (List.filter_eq_nil_iff.mp h _ he)

/-- The account of one of the operations has agreed. -/
theorem account {missing validationData : Nat} {before after : World (Chain X)} {ret : ReturnData}
    {body : Chain.Trace X} (hop : (aggregator, op) ∈ ops) (hdecode : ret.decodeWord = some validationData)
    (hdata : getValidationData msg.env.timestamp validationData = (aggregator, false))
    (h : Approved d msg ops t)
    : Approved d msg ops (.call ⟨op.sender, msg.self, 0,
        .validateUserOp op (getUserOpHash d.cfg op) missing, msg.env⟩ before after true ret body :: t) := by
  intro callee before' after' ok ret' body' op' userOpHash missing' he hmessage
  rcases List.mem_cons.mp he with heq | he
  . cases heq
    cases hmessage
    exact ⟨rfl, rfl, aggregator, validationData, hop, hdecode, hdata⟩
  . exact h _ _ _ _ _ _ _ _ _ he hmessage

end Approved

/-! ## Validation -/

theorem SenderCreated.asks (h : SenderCreated d msg op t) : t.filter Deployment.asks = [] := by
  cases h <;> rfl

theorem Prepayment.approved {validationData pmValidationData : Nat} (hop : (aggregator, op) ∈ ops)
    (hdata : getValidationData msg.env.timestamp validationData = (aggregator, false))
    (h : Prepayment d msg op opInfo validationData pmValidationData t)
    : Approved d msg ops t := by
  cases h.trace with
  | bySender _ _ hcreated hdecode =>
    apply (Approved.of_unasking hcreated.asks).append
    apply Approved.account hop hdecode hdata
    apply Approved.of_unasking rfl
  | byPaymaster _ hcreated hdecode =>
    apply (Approved.of_unasking hcreated.asks).append
    apply Approved.account hop hdecode hdata
    apply Approved.of_unasking rfl

theorem ValidationRuns.approved {aops : List (Address × PackedUserOperation)} (hops : ∀ p ∈ aops, p ∈ ops)
    (h : ValidationRuns d msg inv aops opInfos t)
    : Approved d msg ops t := by
  induction h with
  | nil => exact .of_unasking rfl
  | cons h1 hdata _ _ ih =>
    have hfirst := (validatePrepayment_returns h1).approved (hops _ List.mem_cons_self) hdata
    exact hfirst.append (ih fun p hp => hops p (List.mem_cons_of_mem _ hp))

/-! ## The rest of a bundle -/

theorem SignatureChecks.asks (h : SignatureChecks msg opas t) : t.filter Deployment.asks = [] :=
  List.filter_eq_nil_iff.mpr (h.forall_mem fun _ _ _ _ _ _ => Bool.false_ne_true)

/-- No group of a bundle that gets past the checks expects signatures to be wrong. -/
theorem SignatureChecks.ne_one (h : SignatureChecks msg opas t)
    : ∀ p ∈ UserOpsPerAggregator.flatten opas, p.1 ≠ 1 := by
  have hcons (opa : UserOpsPerAggregator) (opas : List UserOpsPerAggregator) (hne : opa.aggregator ≠ 1)
      (ih : ∀ p ∈ UserOpsPerAggregator.flatten opas, p.1 ≠ 1)
      : ∀ p ∈ UserOpsPerAggregator.flatten (opa :: opas), p.1 ≠ 1 := by
    intro p hp
    rcases List.mem_append.mp hp with hp | hp
    . obtain ⟨op, _, rfl⟩ := List.mem_map.mp hp
      exact hne
    . exact ih p hp
  induction h with
  | nil => exact fun p hp => absurd hp List.not_mem_nil
  | skip hzero _ ih => exact hcons _ _ (by rw [hzero]; decide) ih
  | check _ hne _ ih => exact hcons _ _ hne ih

theorem Settled.asks {success : Bool} {cost : Nat} (h : Settled opInfo success cost t)
    : t.filter Deployment.asks = [] := by
  cases h <;> rfl

theorem Settlement.asks {cost : Nat} (h : Settlement msg op opInfo cost t)
    : t.filter Deployment.asks = [] := by
  cases h with
  | inner => rfl
  | lowPrefund h => exact h.asks
  | postOpReverted h => exact h.asks

theorem Executions.asks {ops : List PackedUserOperation} {costs : List Nat}
    (h : Executions msg ops opInfos costs t)
    : t.filter Deployment.asks = [] := by
  apply List.filter_eq_nil_iff.mpr
  refine h.forall_mem ?_ ?_
  . exact fun _ => Bool.false_ne_true
  . exact fun _ _ _ _ hop => List.filter_eq_nil_iff.mp hop.asks

/-- A bundle that does not revert. -/
theorem invoke_approved {n : Nat} {beneficiary : Address} (hself : msg.self = d.entryPoint)
    (hopas : bundleOf (decodeMessage d.cfg msg.message) = some (opas, beneficiary))
    (hok : (invoke d.system n msg s).ok = true)
    : (∀ p ∈ UserOpsPerAggregator.flatten opas, p.1 ≠ 1)
        ∧ Approved d msg (UserOpsPerAggregator.flatten opas) (invoke d.system n msg s).body := by
  obtain ⟨m, w, opInfos, costs, t, hbody, hruns⟩ := invoke_bundleRuns hself hopas hok
  obtain @⟨before0, after0, ts, tv, te, before1, after1, before2, after2, ret, body, before3, after3,
    _, hchecks, hvalidations, hruns', _, _, ht⟩ := hruns
  have hexecutions := hruns'.executions hself hvalidations.validations.prefund_lt
  refine ⟨hchecks.ne_one, ?_⟩
  have hpre : Approved d msg (UserOpsPerAggregator.flatten opas) (.enter w :: .sstore before0 after0 :: ts) :=
    .of_unasking hchecks.asks
  have hpost : Approved d msg (UserOpsPerAggregator.flatten opas) (.log .beforeExecution :: (te ++
      [.sstore before1 after1,
        .call ⟨beneficiary, msg.self, costs.sum % Yul.wordSize, .bytes [], msg.env⟩ before2 after2 true ret
          body,
        .sstore before3 after3])) := by
    apply Approved.of_unasking
    rw [List.filter_cons_of_neg Bool.false_ne_true, List.filter_append, hexecutions.asks]
    rfl
  rw [hbody, ht, List.append_assoc, ← List.cons_append, ← List.cons_append]
  exact hpre.append ((hvalidations.approved fun p hp => hp).append hpost)

end Deployment
