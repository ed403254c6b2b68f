import FalconSmartAccount.EntryPoint.Keeps
import FalconSmartAccount.EntryPoint.Validation

/-!
A bundle as the runs of the functions that validate and execute its operations. They make up its whole
trace, so what single operations leave there can be read off them.
-/

open Evm

namespace Deployment

open EntryPoint

variable {X : Type}

section

variable (d : Deployment X) (msg : Frame Message)

/-- The signatures of all groups are checked that have an aggregator. -/
inductive SignatureChecks : List UserOpsPerAggregator → Chain.Trace X → Prop where
  | nil : SignatureChecks [] []
  | skip {opa opas t} :
      opa.aggregator = 0 → SignatureChecks opas t → SignatureChecks (opa :: opas) t
  | check {opa opas before after ret body t} :
      opa.aggregator ≠ 0 → opa.aggregator ≠ 1 → SignatureChecks opas t →
      SignatureChecks (opa :: opas)
        (.call ⟨opa.aggregator, msg.self, 0, .validateSignatures opa.userOps opa.signature, msg.env⟩
          before after true ret body :: t)

/-- The reentrancy guard changes. -/
def Guards (before after : World (Chain X)) : Prop :=
  ∃ entered : Storage → Bool,
    after = before.write Chain.entryPointPart fun s => { s with entered := entered s }

/-- What has been collected is taken out of the books. -/
def Pays (amount : Nat) (before after : World (Chain X)) : Prop :=
  after = before.write Chain.entryPointPart fun s => s.note (Books.pay amount)

variable (inv : Frame Message → State (Chain X) → Reply (Chain X) Message ReturnData Log)

/-- The operations are validated one after the other, which fills `opInfos`. -/
inductive ValidationRuns
    : List (Address × PackedUserOperation) → List UserOpInfo → Chain.Trace X → Prop where
  | nil : ValidationRuns [] [] []
  | cons {aggregator op ops opIndex outOpInfo opInfo opInfos validationData paymasterValidationData s s' t t'} :
      d.Returns inv msg (validatePrepayment d.cfg opIndex op outOpInfo) s
        (opInfo, validationData, paymasterValidationData) s' t →
      getValidationData msg.env.timestamp validationData = (aggregator, false) →
      getValidationData msg.env.timestamp paymasterValidationData = (0, false) →
      ValidationRuns ops opInfos t' → ValidationRuns ((aggregator, op) :: ops) (opInfo :: opInfos) (t ++ t')

/-- The operations are executed one after the other, at these costs. -/
inductive ExecutionRuns : List PackedUserOperation → List UserOpInfo → List Nat → Chain.Trace X → Prop where
  | nil : ExecutionRuns [] [] [] []
  | changed {ops opInfos costs a t} :
      ExecutionRuns ops opInfos costs t →
      ExecutionRuns ops opInfos costs (.log (.signatureAggregatorChanged a) :: t)
  | cons {op ops opIndex opInfo opInfos cost costs s s' t t'} :
      d.Returns inv msg (executeUserOp msg opIndex op opInfo) s cost s' t →
      ExecutionRuns ops opInfos costs t' →
      ExecutionRuns (op :: ops) (opInfo :: opInfos) (cost :: costs) (t ++ t')

/-- The trace of a bundle. -/
inductive BundleRuns (opas : List UserOpsPerAggregator) (beneficiary : Address) (opInfos : List UserOpInfo)
    (costs : List Nat) (t : Chain.Trace X) : Prop where
  | mk {before0 after0 ts tv te before1 after1 before2 after2 ret body before3 after3} :
      Guards before0 after0 →
      SignatureChecks msg opas ts →
      ValidationRuns d msg inv (UserOpsPerAggregator.flatten opas) opInfos tv →
      ExecutionRuns d msg inv ((UserOpsPerAggregator.flatten opas).map Prod.snd) opInfos costs te →
      Pays (costs.sum % Yul.wordSize) before1 after1 →
      Guards before3 after3 →
      t = .sstore before0 after0 :: (ts ++ tv ++ .log .beforeExecution :: (te ++
          [.sstore before1 after1,
            .call ⟨beneficiary, msg.self, costs.sum % Yul.wordSize, .bytes [], msg.env⟩
              before2 after2 true ret body,
            .sstore before3 after3])) →
      BundleRuns opas beneficiary opInfos costs t

end

variable {d : Deployment X} {msg : Frame Message}
  {inv : Frame Message → State (Chain X) → Reply (Chain X) Message ReturnData Log}
  {s s' : State (Chain X)} {t t' : Chain.Trace X} {ops : List PackedUserOperation}
  {opas : List UserOpsPerAggregator} {opInfos opInfos' : List UserOpInfo}

/-! ## Validation -/

theorem ValidationRuns.append {aops aops' : List (Address × PackedUserOperation)}
    (h : ValidationRuns d msg inv aops opInfos t) (h' : ValidationRuns d msg inv aops' opInfos' t')
    : ValidationRuns d msg inv (aops ++ aops') (opInfos ++ opInfos') (t ++ t') := by
  induction h with
  | nil => exact h'
  | cons h1 hdata hpmdata _ ih =>
    rw [List.append_assoc]
    exact .cons h1 hdata hpmdata ih

theorem validateOps_runs {aggregator : Address} {i opIndex : Nat}
    (h : d.Returns inv msg (validateOps d.cfg msg aggregator i opIndex ops opInfos) s opInfos' s' t)
    : ∃ new, opInfos' = opInfos.take opIndex ++ new ++ opInfos.drop (opIndex + ops.length)
        ∧ new.length = ops.length ∧ ValidationRuns d msg inv (ops.map (aggregator, ·)) new t := by
  induction ops generalizing i opIndex opInfos s t with
  | nil =>
    obtain ⟨heq, _, ht⟩ := h.pure
    rw [heq, ht]
    exact ⟨[], by simp, rfl, .nil⟩
  | cons op ops ih =>
    unfold validateOps at h
    obtain ⟨opInfo, hget, h⟩ := Returns.bind_lift h
    obtain ⟨r, s1, t1, t2, h1, h, ht⟩ := h.bind
    obtain ⟨u, s2, t3, t4, h2, h, ht2⟩ := h.bind
    obtain ⟨new, heq, hlength, hruns⟩ := ih h
    have hi : opIndex < opInfos.length := (List.getElem?_eq_some_iff.mp (getOpInfo_eq hget)).1
    obtain ⟨hdata, hpmdata, ht3⟩ := validateValidationData_returns h2
    refine ⟨r.1 :: new, fill_cons hi heq, by rw [List.length_cons, List.length_cons, hlength], ?_⟩
    rw [ht, ht2, ht3]
    exact .cons h1 hdata hpmdata hruns

theorem validateGroups_runs {opIndex : Nat} (hle : opIndex + totalOps opas ≤ opInfos.length)
    (h : d.Returns inv msg (validateGroups d.cfg msg opIndex opas opInfos) s opInfos' s' t)
    : ∃ new, opInfos' = opInfos.take opIndex ++ new ++ opInfos.drop (opIndex + totalOps opas)
        ∧ new.length = totalOps opas ∧ ValidationRuns d msg inv (UserOpsPerAggregator.flatten opas) new t := by
  induction opas generalizing opIndex opInfos s t with
  | nil =>
    obtain ⟨heq, _, ht⟩ := h.pure
    rw [heq, ht]
    exact ⟨[], by simp [totalOps], rfl, .nil⟩
  | cons opa opas ih =>
    have htotal : totalOps (opa :: opas) = opa.userOps.length + totalOps opas := rfl
    obtain ⟨opInfos1, s1, t1, t2, h1, h, ht⟩ := h.bind
    obtain ⟨new1, hfill1, hlength1, hruns1⟩ := validateOps_runs h1
    have hle1 : opIndex + opa.userOps.length + totalOps opas ≤ opInfos1.length := by
      rw [hfill1]
      simp only [List.length_append, List.length_take, List.length_drop]
      omega
    obtain ⟨new2, hfill2, hlength2, hruns2⟩ := ih hle1 h
    refine ⟨new1 ++ new2, ?_, ?_, ?_⟩
    . rw [hfill1, ← hlength1] at hfill2
      rw [htotal, ← hlength1]
      exact fill_append (by omega) hfill2
    . rw [List.length_append, hlength1, hlength2, htotal]
    . rw [ht]
      exact hruns1.append hruns2

/-! ## Execution -/

theorem ExecutionRuns.append {ops' : List PackedUserOperation} {costs costs' : List Nat}
    (h : ExecutionRuns d msg inv ops opInfos costs t) (h' : ExecutionRuns d msg inv ops' opInfos' costs' t')
    : ExecutionRuns d msg inv (ops ++ ops') (opInfos ++ opInfos') (costs ++ costs') (t ++ t') := by
  induction h with
  | nil => exact h'
  | changed _ ih => exact .changed ih
  | cons hop _ ih =>
    rw [List.append_assoc]
    exact .cons hop ih

theorem executeOps_runs {add : Nat → Nat → Checked Nat} {opIndex collected total : Nat}
    {new rest : List UserOpInfo} (hadd : ∀ a b c, add a b = .ok c → c = (a + b) % Yul.wordSize)
    (hnew : opInfos.drop opIndex = new ++ rest) (hlength : new.length = ops.length)
    (hcollected : collected < Yul.wordSize)
    (h : d.Returns inv msg (executeOps msg add opIndex ops opInfos collected) s total s' t)
    : ∃ costs, ExecutionRuns d msg inv ops new costs t
        ∧ total = (collected + costs.sum) % Yul.wordSize := by
  induction ops generalizing opIndex new collected s t with
  | nil =>
    obtain ⟨heq, _, ht⟩ := h.pure
    rw [List.length_eq_zero_iff.mp hlength, ht, heq]
    exact ⟨[], .nil, (Nat.mod_eq_of_lt hcollected).symm⟩
  | cons op ops ih =>
    cases new with
    | nil => cases hlength
    | cons opInfo new =>
      unfold executeOps at h
      obtain ⟨opInfo', hget, h⟩ := Returns.bind_lift h
      have hget' := getOpInfo_eq hget
      rw [← Nat.add_zero opIndex, ← List.getElem?_drop, hnew] at hget'
      cases hget'
      have hnew' : opInfos.drop (opIndex + 1) = new ++ rest := by
        rw [← List.drop_drop, hnew]
        rfl
      obtain ⟨paid, s1, t1, t2, h1, h, ht⟩ := h.bind
      obtain ⟨collected', hcollected', h⟩ := Returns.bind_lift h
      -- `collected +=` may wrap here, so the total is only known modulo a word
      have hsum := hadd _ _ _ hcollected'
      have hlt : collected' < Yul.wordSize := by
        rw [hsum]
        exact Nat.mod_lt _ (by unfold Yul.wordSize; omega)
      obtain ⟨costs, hruns, htotal⟩ := ih hnew' (Nat.succ.inj hlength) hlt h
      refine ⟨paid :: costs, ?_, ?_⟩
      . rw [ht]
        exact .cons h1 hruns
      . rw [htotal, hsum, Nat.mod_add_mod, List.sum_cons, Nat.add_assoc]

theorem executeGroups_runs {opIndex collected total : Nat} {new : List UserOpInfo}
    (hnew : opInfos.drop opIndex = new) (hlength : new.length = totalOps opas)
    (hcollected : collected < Yul.wordSize)
    (h : d.Returns inv msg (executeGroups msg opIndex opas opInfos collected) s total s' t)
    : ∃ costs, ExecutionRuns d msg inv ((UserOpsPerAggregator.flatten opas).map Prod.snd) new costs t
        ∧ total = (collected + costs.sum) % Yul.wordSize := by
  induction opas generalizing opIndex new collected s t with
  | nil =>
    obtain ⟨heq, _, ht⟩ := h.pure
    rw [List.length_eq_zero_iff.mp hlength, ht, heq]
    exact ⟨[], .nil, (Nat.mod_eq_of_lt hcollected).symm⟩
  | cons opa opas ih =>
    have htotal : totalOps (opa :: opas) = opa.userOps.length + totalOps opas := rfl
    have hnew' : opInfos.drop opIndex = new.take opa.userOps.length ++ new.drop opa.userOps.length := by
      rw [List.take_append_drop, hnew]
    have hlength1 : (new.take opa.userOps.length).length = opa.userOps.length := by
      rw [List.length_take]
      omega
    obtain ⟨s1, t1, _, ht, h⟩ := h.bind_emit
    obtain ⟨collected1, s2, t2, t3, h1, h, ht1⟩ := h.bind
    -- the groups are added up outside `unchecked`, which is stronger than what `executeOps_runs` asks for
    have hadd : ∀ a b c, Solidity.add a b = .ok c → c = (a + b) % Yul.wordSize := by
      intro a b c hadd
      rw [Nat.mod_eq_of_lt (Solidity.lt_of_add hadd)]
      exact Solidity.eq_of_add hadd
    obtain ⟨costs1, hruns1, hcollected1⟩ := executeOps_runs hadd hnew' hlength1 hcollected h1
    have hdrop : opInfos.drop (opIndex + opa.userOps.length) = new.drop opa.userOps.length := by
      rw [← List.drop_drop, hnew]
    have hlt : collected1 < Yul.wordSize := by
      rw [hcollected1]
      exact Nat.mod_lt _ (by unfold Yul.wordSize; omega)
    obtain ⟨costs2, hruns2, htotal2⟩ := ih hdrop (by rw [List.length_drop]; omega) hlt h
    refine ⟨costs1 ++ costs2, ?_, ?_⟩
    . have hflatten : (UserOpsPerAggregator.flatten (opa :: opas)).map Prod.snd
          = opa.userOps ++ (UserOpsPerAggregator.flatten opas).map Prod.snd := by
        simp [UserOpsPerAggregator.flatten]
      rw [ht, ht1, hflatten, ← List.take_append_drop opa.userOps.length new]
      exact .changed (hruns1.append hruns2)
    . rw [htotal2, hcollected1, Nat.mod_add_mod, List.sum_append, Nat.add_assoc]

/-! ## Bundles -/

theorem compensate_returns {beneficiary : Address} {amount : Nat} {u : Unit}
    (h : d.Returns inv msg (compensate beneficiary amount) s u s' t)
    : ∃ before1 after1 before2 after2 ret body, Pays amount before1 after1
        ∧ t = [.sstore before1 after1, .call ⟨beneficiary, msg.self, amount, .bytes [], msg.env⟩
            before2 after2 true ret body] := by
  obtain ⟨_, h⟩ := h.bind_require
  obtain ⟨s1, t1, _, ht, h⟩ := h.bind_sstore
  obtain ⟨r, s2, s3, s4, body, t2, _, _, _, ht1, h⟩ := h.bind_call
  obtain ⟨hsuccess, _, ht2⟩ := h.require
  rw [ht, ht1, ht2, hsuccess]
  exact ⟨_, _, _, _, r.2, body, rfl, rfl⟩

theorem validateAggregators_returns {u : Unit}
    (h : d.Returns inv msg (validateAggregators opas) s u s' t)
    : SignatureChecks msg opas t := by
  induction opas generalizing s t with
  | nil =>
    rw [h.pure.2.2]
    exact .nil
  | cons opa opas ih =>
    obtain ⟨hvalid, h⟩ := h.bind_require
    obtain ⟨_, s1, t1, t2, h1, h, ht⟩ := h.bind
    unfold validateAggregators.validateSignatures at h1
    split at h1
    . next hzero =>
      rw [ht, h1.pure.2.2]
      exact .skip hzero (ih h)
    . next hne =>
      obtain ⟨_, s2, t3, t4, h2, h1, ht1⟩ := h1.bind
      obtain ⟨s3, _, h2⟩ := h2.bind_codeLength
      obtain ⟨_, _, ht3⟩ := h2.require
      obtain ⟨r, s4, s5, s6, body, t5, _, _, _, ht4, h1⟩ := h1.bind_call
      obtain ⟨hsuccess, _, ht5⟩ := h1.require
      rw [ht, ht1, ht3, ht4, ht5, hsuccess]
      exact .check hne (bne_iff_ne.mp hvalid) (ih h)

theorem nonReentrant_returns {α : Type} {body : EntryPoint.Code α} {a : α}
    (h : d.Returns inv msg (nonReentrant d.cfg body) s a s' t)
    : ∃ before0 after0 s1 s2 t1 before3 after3, Guards before0 after0 ∧ Guards before3 after3
        ∧ after0 = s1.world ∧ s.world = before0 ∧ d.Returns inv msg body s1 a s2 t1
        ∧ t = .sstore before0 after0 :: (t1 ++ [.sstore before3 after3]) := by
  obtain ⟨s1, hw1, h⟩ := h.bind_sload
  obtain ⟨entered, _, h⟩ := Returns.bind_getOrRevert h
  obtain ⟨s2, t1, hw2, ht, h⟩ := h.bind_sstore
  obtain ⟨a', s3, t2, t3, h1, h, ht1⟩ := h.bind
  obtain ⟨s4, t4, _, ht3, h⟩ := h.bind_sstore
  obtain ⟨rfl, _, ht4⟩ := h.pure
  refine ⟨_, _, s2, s3, t2, s3.world, _, ⟨fun _ => entered, rfl⟩,
    ⟨fun s => d.cfg.nonReentrantAfter s.entered, rfl⟩, hw2.symm, hw1.symm, h1, ?_⟩
  rw [ht, ht1, ht3, ht4]

theorem handleOps_runs {beneficiary : Address} {ret : ReturnData}
    (h : d.Returns inv msg (handleOps d.cfg msg ops beneficiary) s ret s' t)
    : ∃ opInfos costs, BundleRuns d msg inv [⟨ops, 0, []⟩] beneficiary opInfos costs t := by
  obtain ⟨before0, after0, s1, s2, t1, before3, after3, hguard, hguard', _, _, h, ht⟩ :=
    nonReentrant_returns h
  obtain ⟨opInfos, s3, t2, t3, h1, h, ht1⟩ := h.bind
  obtain ⟨new, hfill, hlength, hvalidations⟩ := validateOps_runs h1
  obtain ⟨s4, t4, _, ht3, h⟩ := h.bind_emit
  obtain ⟨total, s5, t5, t6, h2, h, ht4⟩ := h.bind
  have hnew : opInfos.drop 0 = new ++ [] := by
    rw [hfill]
    simp
  obtain ⟨costs, hexecutions, htotal⟩ := executeOps_runs (fun a b c hadd => by cases hadd; rfl) hnew hlength
    (by unfold Yul.wordSize; omega) h2
  obtain ⟨_, s6, t7, t8, h3, h, ht6⟩ := h.bind
  obtain ⟨before1, after1, before2, after2, ret', body, hpays, ht7⟩ := compensate_returns h3
  obtain ⟨_, _, ht8⟩ := h.pure
  rw [Nat.zero_add] at htotal
  have hflatten : UserOpsPerAggregator.flatten [⟨ops, 0, []⟩] = ops.map ((0 : Address), ·) :=
    List.append_nil _
  have hops : (UserOpsPerAggregator.flatten [⟨ops, 0, []⟩]).map Prod.snd = ops := by
    rw [hflatten, List.map_map]
    exact List.map_id ops
  rw [htotal] at hpays ht7
  rw [← hflatten] at hvalidations
  rw [← hops] at hexecutions
  rw [ht1, ht3, ht4, ht6, ht7, ht8] at ht
  simp only [List.append_nil, List.append_assoc, List.cons_append, List.nil_append] at ht
  exact ⟨new, costs, .mk hguard (.skip rfl .nil) hvalidations hexecutions hpays hguard' ht⟩

theorem handleAggregatedOps_runs {beneficiary : Address} {ret : ReturnData}
    (h : d.Returns inv msg (handleAggregatedOps d.cfg msg opas beneficiary) s ret s' t)
    : ∃ opInfos costs, BundleRuns d msg inv opas beneficiary opInfos costs t := by
  obtain ⟨before0, after0, s1, s2, t1, before3, after3, hguard, hguard', _, _, h, ht⟩ :=
    nonReentrant_returns h
  obtain ⟨_, s3, ts, t2, h1, h, ht1⟩ := h.bind
  have hchecks := validateAggregators_returns h1
  obtain ⟨opInfos, s4, t3, t4, h2, h, ht2⟩ := h.bind
  obtain ⟨new, hfill, hlength, hvalidations⟩ := validateGroups_runs (by simp) h2
  obtain ⟨s5, t5, _, ht4, h⟩ := h.bind_emit
  obtain ⟨total, s6, t6, t7, h3, h, ht5⟩ := h.bind
  have hnew : opInfos.drop 0 = new := by
    rw [hfill]
    simp
  obtain ⟨costs, hexecutions, htotal⟩ := executeGroups_runs hnew hlength (by unfold Yul.wordSize; omega) h3
  obtain ⟨s7, t8, _, ht7, h⟩ := h.bind_emit
  obtain ⟨_, s8, t9, t10, h4, h, ht8⟩ := h.bind
  obtain ⟨before1, after1, before2, after2, ret', body, hpays, ht9⟩ := compensate_returns h4
  obtain ⟨_, _, ht10⟩ := h.pure
  rw [Nat.zero_add] at htotal
  rw [htotal] at hpays ht9
  -- the last change of the aggregator counts as part of the executions
  have hexecutions' := hexecutions.append (.changed (a := 0) .nil)
  rw [ht7, List.append_cons] at ht5
  simp only [List.append_nil] at hexecutions'
  generalize t6 ++ [.log (.signatureAggregatorChanged 0)] = te at hexecutions' ht5
  rw [ht1, ht2, ht4, ht5, ht8, ht9, ht10] at ht
  simp only [List.append_nil, List.append_assoc, List.cons_append, List.nil_append] at ht
  rw [← List.append_assoc] at ht
  exact ⟨new, costs, .mk hguard hchecks hvalidations hexecutions' hpays hguard' ht⟩

/-! ## Calls -/

/-- The groups and the beneficiary of a message that is a bundle. -/
def bundleOf : Message → Option (List UserOpsPerAggregator × Address)
  | .handleOps ops beneficiary => some ([⟨ops, 0, []⟩], beneficiary)
  | .handleAggregatedOps opas beneficiary => some (opas, beneficiary)
  | _ => none

theorem dispatch_runs {beneficiary : Address} {ret : ReturnData}
    (hbundle : bundleOf (decodeMessage d.cfg msg.message) = some (opas, beneficiary))
    (h : d.Returns inv msg (dispatch d.cfg msg) s ret s' t)
    : ∃ opInfos costs, BundleRuns d msg inv opas beneficiary opInfos costs t := by
  unfold dispatch at h
  cases hmessage : decodeMessage d.cfg msg.message with
  | handleOps ops' beneficiary' =>
    rw [hmessage] at h hbundle
    cases hbundle
    exact handleOps_runs h.bind_require.2
  | handleAggregatedOps opas' beneficiary' =>
    rw [hmessage] at h hbundle
    cases hbundle
    exact handleAggregatedOps_runs h.bind_require.2
  | _ =>
    rw [hmessage] at hbundle
    cases hbundle

/-- A bundle that does not revert. -/
theorem invoke_bundleRuns {n : Nat} {beneficiary : Address} (hself : msg.self = d.entryPoint)
    (hbundle : bundleOf (decodeMessage d.cfg msg.message) = some (opas, beneficiary))
    (hok : (invoke d.system n msg s).ok = true)
    : ∃ m w opInfos costs t, (invoke d.system n msg s).body = .enter w :: t
        ∧ BundleRuns d msg (invoke d.system m) opas beneficiary opInfos costs t := by
  obtain ⟨m, _, s1, t, _, hrun, hbody⟩ := invoke_entryPoint_ok hself hok
  obtain ⟨opInfos, costs, hruns⟩ := dispatch_runs hbundle hrun
  exact ⟨m, s1.world, opInfos, costs, t, hbody, hruns⟩

end Deployment
