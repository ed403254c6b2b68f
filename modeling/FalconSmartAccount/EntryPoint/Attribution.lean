import FalconSmartAccount.EntryPoint.Turns

/-!
Which operation a bundle blames when it reverts.
-/

open Evm

/-- The index that the error of a failed operation carries. -/
def ReturnData.failedOpIndex : ReturnData → Option Nat
  | .failedOp opIndex _ | .failedOpWithRevert opIndex _ _ => some opIndex
  | _ => none

namespace Deployment

open EntryPoint

variable {X : Type}

/-! ## Blame -/

section

variable {S α β : Type} (d : Deployment X)
  (inv : Frame Message → State (Chain X) → Reply (Chain X) Message ReturnData Log)
  (msg : Frame Message)

/-- If the program reverts with the error of a failed operation, the index satisfies `C`. -/
abbrev Blames (l : Lens (Chain X) S) (C : Nat → Prop) (p : Prog S Message ReturnData Log α) : Prop :=
  Errs d.system inv msg l (fun data => ∀ k, data.failedOpIndex = some k → C k) p

variable {d inv msg} {l : Lens (Chain X) S} {C : Nat → Prop}

namespace Blames

theorem op {o : Op S Message ReturnData Log} : d.Blames inv msg l C (.op o .ret) :=
  Errs.op fun _ hk => by cases hk

theorem error {c : Bool} {reason : String}
    : d.Blames inv msg l C (Prog.require c (.error reason) : Prog S Message ReturnData Log Unit) :=
  Errs.require fun _ hk => by cases hk

end Blames

end

section

variable {d : Deployment X}
  {inv : Frame Message → State (Chain X) → Reply (Chain X) Message ReturnData Log}
  {msg : Frame Message} {C : Nat → Prop}

/-- The same for the programs of the entry point. -/
abbrev EntryPointBlames (d : Deployment X)
    (inv : Frame Message → State (Chain X) → Reply (Chain X) Message ReturnData Log)
    (msg : Frame Message) (C : Nat → Prop) {α : Type} (p : EntryPoint.Code α) : Prop :=
  d.Blames inv msg Chain.entryPointPart C p

variable {α : Type}

theorem lift_blames {c : Checked α} : d.EntryPointBlames inv msg C (lift c) := by
  cases c with
  | ok a => exact .pure
  | error e =>
    apply Errs.revert
    intro k hk
    cases e <;> cases hk

theorem decodeRevert_failedOpIndex {buffer : Bytes} {head offset : Nat}
    : (ReturnData.decodeRevert buffer head offset).failedOpIndex = none := by
  unfold ReturnData.decodeRevert
  split <;> rfl

theorem getOrRevert_blames {data : ReturnData} {o : Option α} (h : data.failedOpIndex = none)
    : d.EntryPointBlames inv msg C (getOrRevert data o) := by
  cases o with
  | some a => exact .pure
  | none =>
    apply Errs.revert
    intro k hk
    rw [h] at hk
    cases hk

theorem failUnless_blames {c : Bool} {opIndex : Nat} {reason : String} (h : C opIndex)
    : d.EntryPointBlames inv msg C (failUnless c opIndex reason) := by
  apply Errs.require
  intro k hk
  cases hk
  exact h

theorem require_blames {c : Bool} {reason : String} : d.EntryPointBlames inv msg C (require c reason) :=
  Blames.error

theorem requireCode_blames {target : Address} : d.EntryPointBlames inv msg C (requireCode target) := by
  refine .bind Blames.op fun _ => .require ?_
  intro k hk
  cases hk

/-- The `SenderCreator` does not blame anybody when it reverts. -/
def CreatorQuiet (d : Deployment X)
    (inv : Frame Message → State (Chain X) → Reply (Chain X) Message ReturnData Log) : Prop :=
  ∀ frame s, frame.self = d.cfg.senderCreator → (inv frame s).ok = false →
    (inv frame s).data.failedOpIndex = none

/-! ## What each function blames -/

variable {opIndex : Nat} {opInfo : UserOpInfo} {op : PackedUserOperation}

theorem createSenderIfNeeded_blames {initCode : Bytes} (hcreator : d.CreatorQuiet inv)
    : d.EntryPointBlames inv msg (· = opIndex) (createSenderIfNeeded d.cfg opIndex opInfo initCode) := by
  unfold createSenderIfNeeded
  split
  . exact .pure
  . refine .bind Blames.op fun _ => .bind (failUnless_blames rfl) fun _ => .bind_call (fun _ hk => by cases hk) fun r s hok hdata => ?_
    refine .bind ?_ fun _ => .bind (getOrRevert_blames rfl) fun _ => ?_
    . unfold Prog.require
      split
      . exact .pure
      . next hfailed =>
        apply Errs.revert
        intro k hk
        rw [← hdata] at hk
        rw [hcreator _ s rfl (hok.trans (Bool.eq_false_iff.mpr hfailed))] at hk
        cases hk
    . refine .bind (failUnless_blames rfl) fun _ => .bind (failUnless_blames rfl) fun _ => ?_
      exact .bind Blames.op fun _ => .bind (failUnless_blames rfl) fun _ => Blames.op

theorem balanceOf_blames {account : Address} : d.EntryPointBlames inv msg C (balanceOf account) :=
  .bind Blames.op fun _ => .pure

theorem validateAccountPrepayment_blames {requiredPrefund verificationGasLimit : Nat}
    (hcreator : d.CreatorQuiet inv)
    : d.EntryPointBlames inv msg (· = opIndex) (validateAccountPrepayment d.cfg opIndex op opInfo
        requiredPrefund verificationGasLimit) := by
  refine .bind (createSenderIfNeeded_blames hcreator) fun _ => .bind ?_ fun missing => ?_
  . unfold missingAccountFunds
    split
    . exact .bind balanceOf_blames fun _ => .pure
    . exact .pure
  . refine .bind Blames.op fun r => .bind (.require fun k hk => ?_) fun _ => ?_
    . cases hk
      rfl
    . refine .bind (getOrRevert_blames rfl) fun _ => .bind ?_ fun _ => .pure
      unfold deductAccountPrefund
      split
      . exact .bind balanceOf_blames fun _ => .bind (failUnless_blames rfl) fun _ => Blames.op
      . exact .pure

theorem validatePaymasterPrepayment_blames {requiredPreFund : Nat}
    : d.EntryPointBlames inv msg (· = opIndex)
        (validatePaymasterPrepayment opIndex op opInfo requiredPreFund) := by
  refine .bind Blames.op fun _ => .bind balanceOf_blames fun _ => .bind (failUnless_blames rfl) fun _ => ?_
  refine .bind Blames.op fun _ => .bind Blames.op fun r => .bind (.require fun k hk => ?_) fun _ => ?_
  . cases hk
    rfl
  . refine .bind (getOrRevert_blames decodeRevert_failedOpIndex) fun _ => .bind Blames.op fun _ => ?_
    exact .bind lift_blames fun _ => .bind (failUnless_blames rfl) fun _ => .pure

theorem validateAndUpdateNonce_blames {sender : Address} {nonce : Word}
    : d.EntryPointBlames inv msg C (validateAndUpdateNonce sender nonce) :=
  .bind Blames.op fun _ => .bind lift_blames fun _ => .bind Blames.op fun _ => .pure

theorem validatePrepayment_blames (hcreator : d.CreatorQuiet inv)
    : d.EntryPointBlames inv msg (· = opIndex) (validatePrepayment d.cfg opIndex op opInfo) := by
  refine .bind Blames.op fun _ => .bind (getOrRevert_blames rfl) fun mUserOp => ?_
  refine .bind require_blames fun _ => .bind (validateAccountPrepayment_blames hcreator) fun _ => ?_
  refine .bind validateAndUpdateNonce_blames fun _ => .bind (failUnless_blames rfl) fun _ => ?_
  refine .bind Blames.op fun _ => .bind lift_blames fun _ => .bind (failUnless_blames rfl) fun _ => ?_
  refine .bind ?_ fun _ => ?_
  . split
    . exact .pure
    . exact validatePaymasterPrepayment_blames
  . exact .bind Blames.op fun _ => .pure

theorem validateValidationData_blames {i validationData paymasterValidationData : Nat}
    {expectedAggregator : Address}
    : d.EntryPointBlames inv msg (· = i) (validateAccountAndPaymasterValidationData msg i validationData
        paymasterValidationData expectedAggregator) := by
  refine .bind (failUnless_blames rfl) fun _ => .bind (failUnless_blames rfl) fun _ => ?_
  exact .bind (failUnless_blames rfl) fun _ => failUnless_blames rfl

theorem gasSince_blames {preGas : Nat} : d.EntryPointBlames inv msg C (gasSince preGas opInfo) :=
  .bind Blames.op fun _ => .bind lift_blames fun _ => lift_blames

theorem chargePrefund_blames {actualGas : Nat}
    : d.EntryPointBlames inv msg C (chargePrefund opInfo actualGas) :=
  .bind Blames.op fun _ => .bind Blames.op fun _ => .bind Blames.op fun _ => .pure

theorem postExecution_blames {mode : PostOpMode} {context : Bytes} {actualGas : Nat}
    : d.EntryPointBlames inv msg C (postExecution msg mode opInfo context actualGas) := by
  refine .bind Blames.op fun _ => .bind ?_ fun _ => .bind Blames.op fun gas => ?_
  . unfold callPostOp
    split
    . exact .pure
    . refine .bind requireCode_blames fun _ => .bind Blames.op fun _ => .require fun k hk => ?_
      cases hk
  . dsimp only
    split
    . split
      . exact chargePrefund_blames
      . exact .revert fun k hk => by cases hk
    . refine .bind ?_ fun _ => .bind Blames.op fun _ => .pure
      exact .bind Blames.op fun _ => .bind lift_blames fun _ => .bind Blames.op fun _ => .pure

theorem executeUserOp_blames
    : d.EntryPointBlames inv msg (· = opIndex) (executeUserOp msg opIndex op opInfo) := by
  refine .bind Blames.op fun _ => .bind Blames.op fun r => ?_
  dsimp only
  split
  . exact .pure
  . split
    . exact .revert fun k hk => by
        cases hk
        rfl
    . split
      . exact .bind gasSince_blames fun _ => chargePrefund_blames
      . exact .bind Blames.op fun _ => .bind gasSince_blames fun _ => postExecution_blames

/-- A turn reports its own index. -/
theorem turn_blames (hcreator : d.CreatorQuiet inv) {add : Nat → Nat → Checked Nat} {p : Progress}
    {turn : Turn}
    : d.EntryPointBlames inv msg (turn.reported = some ·) (turn.run d.cfg msg add p) := by
  cases turn with
  | prepayment position op =>
    refine .bind lift_blames fun opInfo => .bind ?_ fun _ => .pure
    exact (validatePrepayment_blames hcreator).mono fun _ h k hk => congrArg some (h k hk).symm
  | validationData start i aggregator op =>
    exact .bind (validateValidationData_blames.mono fun _ h k hk => congrArg some (h k hk).symm) fun _ => .pure
  | beforeExecution => exact .bind Blames.op fun _ => .pure
  | changeAggregator aggregator => exact .bind Blames.op fun _ => .pure
  | execution position op =>
    refine .bind lift_blames fun opInfo => .bind ?_ fun _ => .bind lift_blames fun _ => .pure
    exact executeUserOp_blames.mono fun _ h k hk => congrArg some (h k hk).symm

theorem validateAggregators_blames {opas : List UserOpsPerAggregator}
    : d.EntryPointBlames inv msg C (validateAggregators opas) := by
  induction opas with
  | nil => exact .pure
  | cons opa opas ih =>
    refine .bind require_blames fun _ => .bind ?_ fun _ => ih
    unfold validateAggregators.validateSignatures
    split
    . exact .pure
    . refine .bind requireCode_blames fun _ => .bind Blames.op fun _ => .require fun k hk => ?_
      cases hk

theorem beforeTurns_blames {opas : List UserOpsPerAggregator}
    : d.EntryPointBlames inv msg C (beforeTurns d.cfg opas) := by
  refine .bind Blames.op fun _ => .bind (getOrRevert_blames rfl) fun _ => .bind Blames.op fun _ => ?_
  exact .bind validateAggregators_blames fun _ => .pure

theorem afterTurns_blames {beneficiary : Address} {p : Progress}
    : d.EntryPointBlames inv msg C (afterTurns d.cfg beneficiary p) := by
  refine .bind Blames.op fun _ => .bind ?_ fun _ => .bind Blames.op fun _ => .pure
  exact .bind require_blames fun _ => .bind Blames.op fun _ => .bind Blames.op fun _ => require_blames

end

/-! ## Calls -/

variable {d : Deployment X} {msg : Frame Message} {s : State (Chain X)} {n k : Nat}
  {opas : List UserOpsPerAggregator} {beneficiary : Address}

theorem senderCreator_blames
    {inv : Frame Message → State (Chain X) → Reply (Chain X) Message ReturnData Log}
    : d.Blames inv msg Chain.noPart (fun _ => False)
        (SenderCreator.dispatch d.entryPoint d.cfg.abiDecode msg) := by
  refine .bind (.require fun k hk => by cases hk) fun _ => ?_
  split
  . refine .bind Blames.error fun _ => .bind (.require fun k hk => by cases hk) fun _ => ?_
    exact .bind Blames.op fun _ => .pure
  . exact .revert fun k hk => by cases hk

theorem creatorQuiet (m : Nat) : d.CreatorQuiet (invoke d.system m) := by
  intro frame s hself hok
  rcases invoke_error d.system hok with hdata | ⟨m', ledger, program, _, _, hcode, hrun⟩
  . rw [hdata]
    rfl
  . have hcreator : d.system.code s.world.storage frame.self = some fun msg =>
        (SenderCreator.dispatch d.entryPoint d.cfg.abiDecode msg).zoom
          Chain.noPart.get Chain.noPart.set := by
      rw [hself]
      change d.codeAt _ _ = _
      unfold codeAt
      rw [if_neg d.entryPoint_ne.symm]
      rw [if_pos rfl]
    rw [hcreator] at hcode
    cases hcode
    cases hindex : (invoke d.system m frame s).data.failedOpIndex with
    | none => rfl
    | some k => exact absurd (senderCreator_blames _ _ hrun k hindex) id

/-- A bundle that blames an operation fails in a turn that reports its index. -/
theorem exists_failedTurn (hself : msg.self = d.entryPoint)
    (hmessage : decodeMessage d.cfg msg.message = .handleAggregatedOps opas beneficiary)
    (hok : (invoke d.system n msg s).ok = false)
    (hk : (invoke d.system n msg s).data.failedOpIndex = some k)
    : ∃ turn, d.FailedTurn n msg (.handleAggregatedOps opas) s turn ∧ turn.reported = some k := by
  rcases invoke_entryPoint_error hself hok with hdata | ⟨m, ledger, hn, htransfer, hr⟩
  . rw [hdata] at hk
    cases hk
  . unfold dispatch at hr
    rw [hmessage] at hr
    dsimp only at hr
    rcases hr.bind with hr | ⟨_, s0, t0, hvalue, hr⟩
    . rw [hr.require.2] at hk
      cases hk
    . obtain ⟨hnone, rfl, rfl⟩ := hvalue.require
      rw [handleAggregatedOps_turns] at hr
      rcases hr.bind with hr | ⟨p0, s1, t1, hbefore, hr⟩
      . exact absurd (beforeTurns_blames (C := fun _ => False) _ _ hr k hk) id
      . rcases hr.bind with hr | ⟨p, s2, t2, _, hr⟩
        . obtain ⟨pre, turn, post, p1, s3, t3, hturns, hpre, hturn⟩ := hr.foldlM
          refine ⟨turn, ⟨m, p1, s3, _, ?_, hturn⟩, turn_blames (creatorQuiet m) _ _ hturn k hk⟩
          exact .mk hn (of_decide_eq_true hnone) htransfer hturns hbefore hpre
        . exact absurd (afterTurns_blames (C := fun _ => False) _ _ hr k hk) id

theorem start_eq_zero_iff {turn : Turn} {position : Nat} {op : PackedUserOperation}
    (hop : turn.operation = some (position, op)) (hreported : turn.reported = some k)
    : position = k
        ↔ ∀ start i aggregator op, turn = .validationData start i aggregator op → start = 0 := by
  cases turn with
  | validationData start i aggregator op' =>
    cases hop
    cases hreported
    constructor
    . intro hstart start' i' aggregator' op'' heq
      cases heq
      omega
    . intro h
      have := h start k aggregator op rfl
      omega
  | prepayment position' op' =>
    cases hop
    cases hreported
    simp
  | execution position' op' =>
    cases hop
    cases hreported
    simp
  | beforeExecution => cases hop
  | changeAggregator aggregator => cases hop

theorem operation_of_reported {turn : Turn} (hreported : turn.reported = some k)
    : ∃ position op, turn.operation = some (position, op) := by
  cases turn with
  | prepayment position op => exact ⟨position, op, rfl⟩
  | validationData start i aggregator op => exact ⟨start + i, op, rfl⟩
  | execution position op => exact ⟨position, op, rfl⟩
  | beforeExecution => cases hreported
  | changeAggregator aggregator => cases hreported

/-- The index is the position, among the operations of all groups, of the one that failed, unless that
one was refused for its validation data and is behind a group that is not empty. -/
theorem failedOp_position (hself : msg.self = d.entryPoint)
    (hmessage : decodeMessage d.cfg msg.message = .handleAggregatedOps opas beneficiary)
    (hok : (invoke d.system n msg s).ok = false)
    (hk : (invoke d.system n msg s).data.failedOpIndex = some k)
    : (∃ turn op, d.FailedTurn n msg (.handleAggregatedOps opas) s turn ∧ turn.operation = some (k, op)
          ∧ (allOps opas)[k]? = some op)
        ↔ ∀ start i aggregator op, d.FailedTurn n msg (.handleAggregatedOps opas) s (.validationData start i aggregator op) →
            start = 0 := by
  obtain ⟨turn, hfailed, hreported⟩ := exists_failedTurn hself hmessage hok hk
  obtain ⟨position, op, hop⟩ := operation_of_reported hreported
  have hiff := start_eq_zero_iff hop hreported
  constructor
  . rintro ⟨turn', op', hfailed', hop', _⟩ start i aggregator op'' hdata
    have heq := hfailed.unique hfailed'
    rw [heq, hop] at hop'
    cases hop'
    exact hiff.mp rfl start i aggregator op'' (hfailed.unique hdata).symm
  . intro h
    have hposition := hiff.mpr fun start i aggregator op' heq => h start i aggregator op' (heq ▸ hfailed)
    rw [hposition] at hop
    obtain ⟨m, p, s1, data, hcomes, _⟩ := id hfailed
    have hmem := hcomes.mem
    exact ⟨turn, op, hfailed, hop, operation_turns hmem hop⟩

/-! ## Two groups of one operation each, the second of which is refused -/

/-- The turn that fails is the first one that the bundle does not get past. -/
theorem FailedTurn.reaches {b : Schedule} {turn : Turn} (h : d.FailedTurn n msg b s turn)
    : ∃ m ledger i, n = m + 1
        ∧ s.world.ledger.transfer msg.caller msg.self msg.value = some ledger
        ∧ b.turns[i]? = some turn
        ∧ d.reaches m msg b { s with world := { s.world with ledger := ledger } } i = true
        ∧ d.reaches m msg b { s with world := { s.world with ledger := ledger } } (i + 1) = false := by
  obtain ⟨m, p, s1, data, @⟨ledger, pre, post, p0, s0, t0, t1, hn, _, htransfer, hturns, h0, h1⟩,
    hr⟩ := h
  have htake : b.turns.take pre.length = pre := by rw [hturns, List.take_left]
  have htake' : b.turns.take (pre.length + 1) = pre ++ [turn] := by
    rw [hturns, List.append_cons]
    exact List.take_left' List.length_append
  refine ⟨m, ledger, pre.length, hn, htransfer, by simp [hturns], ?_, ?_⟩
  . have hreturns := Evm.Returns.seq (f := fun p => pre.foldlM (Turn.run d.cfg msg b.add) p) h0 h1
    unfold Evm.Returns at hreturns
    unfold Deployment.reaches
    rw [htake, hreturns]
    rfl
  . have hreverts : Reverts d.system (invoke d.system m) msg Chain.entryPointPart
        (beforeTurns d.cfg b.groups >>= fun p =>
          (pre ++ [turn]).foldlM (Turn.run d.cfg msg b.add) p)
        { s with world := { s.world with ledger := ledger } } data := by
      refine .later h0 ?_
      rw [List.foldlM_append]
      refine .later h1 ?_
      rw [List.foldlM_cons]
      exact hr.first
    unfold Reverts at hreverts
    unfold Deployment.reaches
    rw [htake', hreverts]
    rfl

def sampleGroups : List UserOpsPerAggregator :=
  [⟨[sampleOp 3], 0, []⟩, ⟨[{ sampleOp 4 with gasFees := 0 }], 0, []⟩]

def sampleGroupsTx : Transaction Message := bundleTx (.handleAggregatedOps sampleGroups 5)

theorem failedOp_position_refused
    : (∃ turn op, sample.FailedTurn 5 sampleGroupsTx.frame (.handleAggregatedOps sampleGroups) ⟨fundedWorld, 1000000, 0⟩ turn
          ∧ turn.operation = some (0, op) ∧ (allOps sampleGroups)[0]? = some op)
        ↔ ∀ start i aggregator op, sample.FailedTurn 5 sampleGroupsTx.frame (.handleAggregatedOps sampleGroups)
            ⟨fundedWorld, 1000000, 0⟩ (.validationData start i aggregator op) → start = 0 :=
  failedOp_position rfl rfl (by decide +kernel) (by decide +kernel)

/-- The operation of the second group is refused, and the one of the first group is blamed. -/
theorem failedOp_position_sampleGroups
    : let r := invoke sample.system 5 sampleGroupsTx.frame ⟨fundedWorld, 1000000, 0⟩
      r.ok = false ∧ r.data.failedOpIndex = some 0
        ∧ ¬∃ turn op, sample.FailedTurn 5 sampleGroupsTx.frame (.handleAggregatedOps sampleGroups) ⟨fundedWorld, 1000000, 0⟩ turn
            ∧ turn.operation = some (0, op) := by
  refine ⟨by decide +kernel, by decide +kernel, ?_⟩
  rintro ⟨turn, op, hfailed, hop⟩
  obtain ⟨m, ledger, i, hm, htransfer, hturn, hreaches, hreaches'⟩ := hfailed.reaches
  cases hm
  have hrun : ∀ i < 10,
      (fundedWorld.ledger.transfer sampleGroupsTx.frame.caller sampleGroupsTx.frame.self
        sampleGroupsTx.frame.value).map (fun ledger => sample.reaches 4 sampleGroupsTx.frame
          (.handleAggregatedOps sampleGroups) ⟨⟨ledger, fundedWorld.storage⟩, 1000000, 0⟩ i)
        = some (decide (i ≤ 3)) := by
    decide +kernel
  have hi : i < 9 := (List.getElem?_eq_some_iff.mp hturn).1
  have hlow := hrun i (by omega)
  have hhigh := hrun (i + 1) (by omega)
  rw [htransfer, Option.map_some, Option.some.injEq] at hlow hhigh
  rw [hreaches] at hlow
  rw [hreaches'] at hhigh
  have hi : i = 3 := by
    have := of_decide_eq_true hlow.symm
    have := of_decide_eq_false hhigh.symm
    omega
  rw [hi] at hturn
  cases hturn
  cases hop

end Deployment
