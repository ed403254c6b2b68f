import FalconSmartAccount.EntryPoint.ReceiptsOnce

/-!
How the sender of an operation comes into being. The entry point has the `SenderCreator` call the factory
that the operation names, and the `SenderCreator` calls a factory for no other reason.
-/

open Evm

namespace SenderCreator

/-- Calldata is decoded. -/
def decodeMessage (abiDecode : Bytes → Option Message) : Message → Message
  | .bytes data => (abiDecode data).getD (.bytes data)
  | message => message

theorem dispatch_eq (entryPoint : Address) (abiDecode : Bytes → Option Message) (msg : Frame Message)
    : dispatch entryPoint abiDecode msg = Prog.require (msg.value == 0) default >>= fun _ =>
        match decodeMessage abiDecode msg.message with
        | .createSender initCode => createSender entryPoint msg initCode
        | _ => .revert default := by
  rfl

/-- How the `SenderCreator` calls the factory. -/
def factoryFrame (senderCreator : Address) (initCode : Bytes) (env : Env) : Frame Message :=
  ⟨Abi.addressAt initCode 0, senderCreator, 0, .bytes (initCode.drop 20), env⟩

end SenderCreator

namespace Deployment

open EntryPoint

variable {X : Type}

/-- The senders of the operations are created one after the other. -/
inductive SendersCreated (d : Deployment X) (msg : Frame Message)
    : List PackedUserOperation → Chain.Trace X → Prop where
  | nil : SendersCreated d msg [] []
  | cons {op ops t t'} :
      SenderCreated d msg op t → SendersCreated d msg ops t' → SendersCreated d msg (op :: ops) (t ++ t')

/-- The event belongs to the creation of a sender. -/
def creates : Event (Chain X) Message ReturnData Log → Bool
  | .log (.accountDeployed _ _ _ _) => true
  | .call ⟨_, _, _, .createSender _, _⟩ _ _ _ _ _ => true
  | _ => false

variable {d : Deployment X} {msg frame : Frame Message}
  {inv : Frame Message → State (Chain X) → Reply (Chain X) Message ReturnData Log}
  {s s' : State (Chain X)} {t : Chain.Trace X} {op : PackedUserOperation} {opInfo : UserOpInfo}
  {opInfos : List UserOpInfo} {cost : Nat}

/-! ## Validation -/

theorem SenderCreated.creates_eq_true (h : SenderCreated d msg op t) : t.filter Deployment.creates = t := by
  cases h <;> rfl

theorem Prepayment.created {validationData pmValidationData : Nat}
    (h : Prepayment d msg op opInfo validationData pmValidationData t)
    : SenderCreated d msg op (t.filter creates) := by
  cases h.trace with
  | bySender _ _ hcreated =>
    rw [List.filter_append]
    rw [hcreated.creates_eq_true]
    rw [show List.filter creates _ = [] from rfl]
    rw [List.append_nil]
    apply hcreated
  | byPaymaster _ hcreated =>
    rw [List.filter_append]
    rw [hcreated.creates_eq_true]
    rw [show List.filter creates _ = [] from rfl]
    rw [List.append_nil]
    apply hcreated

/-! ## Bundles -/

theorem ValidationRuns.created {aops : List (Address × PackedUserOperation)}
    (h : ValidationRuns d msg inv aops opInfos t)
    : SendersCreated d msg (aops.map Prod.snd) (t.filter creates) := by
  induction h with
  | nil => apply SendersCreated.nil
  | cons h1 _ _ _ ih =>
    rw [List.filter_append]
    apply SendersCreated.cons
    . apply (validatePrepayment_returns h1).created
    . apply ih

theorem SignatureChecks.creates {opas : List UserOpsPerAggregator} (h : SignatureChecks msg opas t)
    : t.filter Deployment.creates = [] := by
  apply List.filter_eq_nil_iff.mpr
  refine h.forall_mem ?_
  intro opa hopa before after ret body
  apply Bool.false_ne_true

theorem Settled.creates {success : Bool} (h : Settled opInfo success cost t)
    : t.filter Deployment.creates = [] := by
  cases h <;> rfl

theorem Settlement.creates (h : Settlement msg op opInfo cost t) : t.filter Deployment.creates = [] := by
  cases h with
  | inner => rfl
  | lowPrefund h => apply h.creates
  | postOpReverted h => apply h.creates

theorem Executions.creates {ops : List PackedUserOperation} {costs : List Nat}
    (h : Executions msg ops opInfos costs t)
    : t.filter Deployment.creates = [] := by
  apply List.filter_eq_nil_iff.mpr
  refine h.forall_mem ?_ ?_
  . intro a
    apply Bool.false_ne_true
  . intro op opInfo cost t hop
    apply List.filter_eq_nil_iff.mp hop.creates

theorem BundleRuns.created {m : Nat} {opas : List UserOpsPerAggregator} {beneficiary : Address}
    {costs : List Nat} (hself : msg.self = d.entryPoint)
    (h : BundleRuns d msg (invoke d.system m) opas beneficiary opInfos costs t)
    : SendersCreated d msg ((UserOpsPerAggregator.flatten opas).map Prod.snd) (t.filter creates) := by
  obtain @⟨before0, after0, ts, tv, te, before1, after1, before2, after2, ret, body, before3, after3,
    _, hchecks, hvalidations, hruns, _, _, ht⟩ := h
  have hexecutions := hruns.executions hself hvalidations.validations.prefund_lt
  have hsplit : t.filter creates = ts.filter creates ++ tv.filter creates ++ te.filter creates := by
    rw [ht]
    rw [List.filter_cons_of_neg (by simp [Deployment.creates])]
    simp only [List.filter_append]
    rw [List.filter_cons_of_neg (by simp [Deployment.creates])]
    rw [List.filter_append]
    rw [← List.append_assoc]
    apply List.append_nil
  rw [hsplit]
  rw [hchecks.creates]
  rw [hexecutions.creates]
  rw [List.append_nil]
  apply hvalidations.created

theorem AccountCall.creates {callData : CallData} {success : Bool}
    (h : AccountCall msg callData opInfo success t)
    : t.filter Deployment.creates = [] := by
  cases callData <;> cases h <;> rfl

theorem PostOpCall.creates (h : PostOpCall msg opInfo t) : t.filter Deployment.creates = [] := by
  cases h <;> rfl

theorem Effect.creates {message : Message} (hbundle : bundleOf message = none) (h : Effect d msg message t)
    : t.filter Deployment.creates = [] := by
  cases h with
  | bundle hsome =>
    rw [hbundle] at hsome
    cases hsome
  | inner _ hcall hpost hsettled =>
    rw [List.filter_append]
    rw [List.filter_append]
    rw [hcall.creates]
    rw [hpost.creates]
    rw [hsettled.creates]
    rfl
  | _ => rfl

/-- A frame of the entry point creates the senders of its own operations. -/
theorem invoke_created {n : Nat} (hself : frame.self = d.entryPoint)
    (hok : (invoke d.system n frame s).ok = true)
    : SendersCreated d frame (d.opsOf frame) ((invoke d.system n frame s).body.filter creates) := by
  cases hopas : bundleOf (decodeMessage d.cfg frame.message) with
  | some bundle =>
    obtain ⟨m, w, opInfos, costs, t, hbody, hruns⟩ := invoke_bundleRuns hself hopas hok
    rw [hbody]
    rw [mem_opsOf hself hopas]
    apply hruns.created hself
  | none =>
    obtain ⟨w, t, _, hbody, heffect⟩ := invoke_effect hself hok
    rw [hbody]
    rw [opsOf_of_none hopas]
    rw [List.filter_cons_of_neg (by simp [Deployment.creates])]
    rw [heffect.creates hopas]
    apply SendersCreated.nil

/-- A call of the `SenderCreator` is part of the creation of a sender. -/
theorem SendersCreated.of_mem {ops : List PackedUserOperation} {e : Event (Chain X) Message ReturnData Log}
    (h : SendersCreated d msg ops t) (he : e ∈ t)
    : ∃ op ∈ ops, ∃ t', SenderCreated d msg op t' ∧ e ∈ t' := by
  induction h with
  | nil => cases he
  | @cons op ops t t' hop _ ih =>
    rcases List.mem_append.mp he with he | he
    . exact ⟨op, List.mem_cons_self, t, hop, he⟩
    . obtain ⟨op', hmem, hrest⟩ := ih he
      exact ⟨op', List.mem_cons_of_mem _ hmem, hrest⟩

theorem SendersCreated.of_op {ops : List PackedUserOperation} (h : SendersCreated d msg ops t) (hop : op ∈ ops)
    : ∃ t', SenderCreated d msg op t' ∧ ∀ e ∈ t', e ∈ t := by
  induction h with
  | nil => cases hop
  | @cons op' ops t t' hfirst _ ih =>
    rcases List.mem_cons.mp hop with rfl | hop
    . exact ⟨t, hfirst, fun e he => List.mem_append_left _ he⟩
    . obtain ⟨t1, hcreated, hmem⟩ := ih hop
      exact ⟨t1, hcreated, fun e he => List.mem_append_right _ (hmem e he)⟩

/-! ## The `SenderCreator` -/

/-- The `SenderCreator` only does what the entry point asks of it, which is to call one factory. -/
theorem invoke_senderCreator {n : Nat} (hself : frame.self = d.cfg.senderCreator)
    (hok : (invoke d.system n frame s).ok = true)
    : ∃ initCode w before after ok ret body,
        SenderCreator.decodeMessage d.cfg.abiDecode frame.message = .createSender initCode
        ∧ frame.caller = d.entryPoint
        ∧ (invoke d.system n frame s).body = [.enter w,
            .call (SenderCreator.factoryFrame d.cfg.senderCreator initCode frame.env) before after ok ret body]
        ∧ before.storage = s.world.storage
        ∧ after.storage = (invoke d.system n frame s).state.world.storage
        ∧ (invoke d.system n frame s).data
            = .words [if ok then Abi.wordAt ret.toBytes 0 % 2 ^ 160 else 0] := by
  have hcode : d.system.code s.world.storage frame.self = some fun msg =>
      (SenderCreator.dispatch d.entryPoint d.cfg.abiDecode msg).zoom Chain.noPart.get Chain.noPart.set := by
    rw [hself]
    change d.codeAt _ _ = _
    unfold codeAt
    rw [if_neg d.entryPoint_ne.symm]
    rw [if_pos rfl]
  obtain ⟨m, _, ledger, _, ⟨hnone, _⟩ | ⟨program, t, hprogram, hrun, hbody⟩⟩ := invoke_ok _ hok
  . rw [hcode] at hnone
    cases hnone
  . rw [hcode] at hprogram
    cases hprogram
    have hrun : Evm.Returns d.system (invoke d.system m) frame Chain.noPart
        (SenderCreator.dispatch d.entryPoint d.cfg.abiDecode frame) _ _ _ t := hrun
    rw [SenderCreator.dispatch_eq] at hrun
    obtain ⟨_, hrun⟩ := hrun.bind_require
    cases hmessage : SenderCreator.decodeMessage d.cfg.abiDecode frame.message with
    | createSender initCode =>
      rw [hmessage] at hrun
      obtain ⟨hcaller, hrun⟩ := hrun.bind_require
      obtain ⟨_, hrun⟩ := hrun.bind_require
      obtain ⟨r, s1, s2, s3, body, t', hw1, hw3, _, ht, hrun⟩ := hrun.bind_call
      obtain ⟨hdata, hstate, ht'⟩ := hrun.pure
      refine ⟨initCode, { s.world with ledger := ledger }, { s.world with ledger := ledger }, s2.world, r.1,
        r.2, body, rfl, beq_iff_eq.mp hcaller, ?_, rfl, ?_, hdata⟩
      . rw [hbody]
        rw [ht]
        rw [ht']
        rw [hself]
        rfl
      . rw [hstate]
        rw [hw3]
    | _ =>
      rw [hmessage] at hrun
      exact absurd hrun Evm.Returns.not_revert

end Deployment
