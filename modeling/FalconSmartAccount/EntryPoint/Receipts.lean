import FalconSmartAccount.EntryPoint.InnerCalls

/-!
What a bundle pays and what it tells about it: one event for each operation, its payer's refund, and
the sum of all costs for the beneficiary.
-/

open Evm

namespace Deployment

open EntryPoint

variable {X : Type} {d : Deployment X} {msg : Frame Message} {t t' : Chain.Trace X}
  {opas : List UserOpsPerAggregator} {beneficiary : Address} {ops : List PackedUserOperation}
  {opInfos opInfos' : List UserOpInfo} {s s' : State (Chain X)} {ret : ReturnData} {m : Nat}

/-! ## The sum of the costs -/

/-- The prefunds are those of the operations. -/
theorem Validations.prefunds {ops : List (Address × PackedUserOperation)}
    (h : Validations d msg ops opInfos t) (h' : Validations d msg ops opInfos' t')
    : opInfos'.map UserOpInfo.prefund = opInfos.map UserOpInfo.prefund := by
  induction h generalizing opInfos' t' with
  | nil =>
    cases h'
    rfl
  | cons hop _ ih =>
    cases h' with
    | cons hop' h' =>
      have hmUserOp := hop.mUserOp.symm.trans hop'.mUserOp
      rw [List.map_cons, List.map_cons, ih h', hop.prefund, hop'.prefund, Option.some.inj hmUserOp]

theorem Executions.costs_le {costs : List Nat} (h : Executions msg ops opInfos costs t)
    : costs.sum ≤ (opInfos.map UserOpInfo.prefund).sum := by
  induction h with
  | nil => exact Nat.le_refl _
  | changed _ ih => exact ih
  | cons hop _ ih =>
    rw [List.map_cons, List.sum_cons, List.sum_cons]
    apply Nat.add_le_add _ ih
    cases hop with
    | inner _ _ hsettled => exact hsettled.cost_le
    | lowPrefund hsettled => exact hsettled.cost_le
    | postOpReverted hsettled => exact hsettled.cost_le

theorem Guards.holds {used : List (Address × Word)} {k locked collected : Nat}
    {before after : World (Chain X)} (h : Guards before after) (hholds : d.Holds used k locked collected before)
    : d.Holds used k locked collected after := by
  obtain ⟨entered, rfl⟩ := h
  exact hholds.congr rfl rfl rfl (Nat.le_refl _)

variable {used : List (Address × Word)} {locked collected : Nat}

/-- Once all operations are validated, the entry point holds their prefunds, so they fit a word. -/
theorem handleOps_prefunds (hself : msg.self = d.entryPoint)
    (hholds : d.Holds used 0 locked collected s.world)
    (h : d.Returns (invoke d.system m) msg (handleOps d.cfg msg ops beneficiary) s ret s' t)
    : ∃ new t1, Validations d msg (UserOpsPerAggregator.flatten [⟨ops, 0, []⟩]) new t1
        ∧ (new.map UserOpInfo.prefund).sum < Yul.wordSize := by
  obtain ⟨before0, after0, s1, s2, t1, before3, after3, hguard, _, hafter0, hbefore0, h, _⟩ :=
    nonReentrant_returns h
  rw [hbefore0] at hholds
  have hholds1 := hguard.holds hholds
  rw [hafter0] at hholds1
  obtain ⟨opInfos, s3, t2, t3, h1, _, _⟩ := h.bind
  obtain ⟨new, hfill, _, hvalidations⟩ := validateOps_runs h1
  obtain ⟨new', hfill', _, _, hkept⟩ := Sat.returns (validateOps_keeps (handles m) hself) hholds1 h1
  rw [hfill] at hfill'
  cases List.append_cancel_left (List.append_cancel_right hfill')
  have hflatten : UserOpsPerAggregator.flatten [⟨ops, 0, []⟩] = ops.map ((0 : Address), ·) :=
    List.append_nil _
  rw [hflatten]
  refine ⟨new, t2, hvalidations.validations, ?_⟩
  have hfits := hkept.collected_lt
  unfold Yul.wordSize
  omega

theorem handleAggregatedOps_prefunds (hself : msg.self = d.entryPoint)
    (hholds : d.Holds used 0 locked collected s.world)
    (h : d.Returns (invoke d.system m) msg (handleAggregatedOps d.cfg msg opas beneficiary) s ret s' t)
    : ∃ new t1, Validations d msg (UserOpsPerAggregator.flatten opas) new t1
        ∧ (new.map UserOpInfo.prefund).sum < Yul.wordSize := by
  obtain ⟨before0, after0, s1, s2, t1, before3, after3, hguard, _, hafter0, hbefore0, h, _⟩ :=
    nonReentrant_returns h
  rw [hbefore0] at hholds
  have hholds1 := hguard.holds hholds
  rw [hafter0] at hholds1
  obtain ⟨_, s3, t2, t3, h1, h, _⟩ := h.bind
  have hholds2 := Sat.returns (validateAggregators_keeps (handles m) hself) hholds1 h1
  obtain ⟨opInfos, s4, t4, t5, h2, _, _⟩ := h.bind
  obtain ⟨new, hfill, _, hvalidations⟩ := validateGroups_runs (by simp) h2
  obtain ⟨new', hfill', _, _, hkept⟩ :=
    Sat.returns (validateGroups_keeps (handles m) hself (by simp)) hholds2 h2
  rw [hfill] at hfill'
  cases List.append_cancel_left (List.append_cancel_right hfill')
  refine ⟨new, t4, hvalidations.validations, ?_⟩
  have hfits := hkept.collected_lt
  unfold Yul.wordSize
  omega

/-- The costs of a bundle that does not revert add up to what fits a word. -/
theorem Bundle.costs_lt {n : Nat} {costs : List Nat} (hself : msg.self = d.entryPoint)
    (hopas : bundleOf (decodeMessage d.cfg msg.message) = some (opas, beneficiary))
    (hok : (invoke d.system n msg s).ok = true)
    (hholds : ∀ w, Outside w (invoke d.system n msg s).body → d.Safe w)
    (h : Bundle d msg opas beneficiary opInfos costs t)
    : costs.sum < Yul.wordSize := by
  obtain @⟨before0, after0, ts, tv, te, before1, after1, before2, after2, ret, body, before3, after3,
    _, _, hvalidations, hexecutions, _, _, _⟩ := h
  obtain ⟨m, _, s1, t, _, hrun, hbody⟩ := invoke_entryPoint_ok hself hok
  have hholds1 := (hholds s1.world (by rw [hbody]; exact .enter List.mem_cons_self)).holds
  obtain ⟨new, t1, hnew, hlt⟩ : ∃ new t1, Validations d msg (UserOpsPerAggregator.flatten opas) new t1
      ∧ (new.map UserOpInfo.prefund).sum < Yul.wordSize := by
    unfold dispatch at hrun
    cases hmessage : decodeMessage d.cfg msg.message with
    | handleOps ops' beneficiary' =>
      rw [hmessage] at hrun hopas
      cases hopas
      exact handleOps_prefunds hself hholds1 hrun.bind_require.2
    | handleAggregatedOps opas' beneficiary' =>
      rw [hmessage] at hrun hopas
      cases hopas
      exact handleAggregatedOps_prefunds hself hholds1 hrun.bind_require.2
    | _ =>
      rw [hmessage] at hopas
      cases hopas
  rw [← hnew.prefunds hvalidations] at hlt
  exact Nat.lt_of_le_of_lt hexecutions.costs_le hlt

/-! ## The events of the entry point -/

/-- An event of the entry point, or what it does in an inner call that does not revert. -/
def unrolled (d : Deployment X) (e : Event (Chain X) Message ReturnData Log) : Chain.Trace X :=
  match e, d.innerCall e with
  | .call _ _ _ _ _ body, some _ => body
  | e, _ => [e]

def operationEvent : Event (Chain X) Message ReturnData Log → Option Log
  | .log (.userOperationEvent userOpHash sender paymaster nonce success actualGasCost actualGasUsed) =>
    some (.userOperationEvent userOpHash sender paymaster nonce success actualGasCost actualGasUsed)
  | _ => none

/-- The events for operations that the entry point emits. -/
def operationEvents (d : Deployment X) (t : Chain.Trace X) : List Log :=
  (t.flatMap d.unrolled).filterMap operationEvent

def store : Event (Chain X) Message ReturnData Log → Option (World (Chain X) × World (Chain X))
  | .sstore before after => some (before, after)
  | _ => none

/-- The writes that the entry point makes. -/
def stores (d : Deployment X) (t : Chain.Trace X) : List (World (Chain X) × World (Chain X)) :=
  (t.flatMap d.unrolled).filterMap store

theorem unrolled_of_none {e : Event (Chain X) Message ReturnData Log} (h : d.innerCall e = none)
    : d.unrolled e = [e] := by
  unfold unrolled
  rw [h]
  cases e <;> rfl

theorem unrolled_of_some {frame callee : Frame Message} {before after : World (Chain X)} {ok : Bool}
    {body : Chain.Trace X} (h : d.innerCall (.call callee before after ok ret body) = some frame)
    : d.unrolled (.call callee before after ok ret body) = body := by
  unfold unrolled
  rw [h]

theorem operationEvents_append (t t' : Chain.Trace X)
    : d.operationEvents (t ++ t') = d.operationEvents t ++ d.operationEvents t' := by
  unfold operationEvents
  rw [List.flatMap_append, List.filterMap_append]

theorem flatMap_unrolled (h : d.innerCalls t = []) : t.flatMap d.unrolled = t := by
  induction t with
  | nil => rfl
  | cons e t ih =>
    rw [innerCalls_cons, List.append_eq_nil_iff, Option.toList_eq_nil_iff] at h
    rw [List.flatMap_cons, unrolled_of_none h.1, ih h.2]
    rfl

/-! ## Receipts -/

/-- What the event of an operation says about its execution. -/
structure Receipt where
  success : Bool
  actualGasCost : Nat
  actualGasUsed : Nat

def Receipt.event (r : Receipt) (opInfo : UserOpInfo) : Log :=
  userOperationEvent opInfo r.success r.actualGasCost r.actualGasUsed

/-- The trace `t` of an operation that is executed and settled as its receipt says. -/
structure Settles (d : Deployment X) (msg : Frame Message) (op : PackedUserOperation)
    (opInfo : UserOpInfo) (r : Receipt) (t : Chain.Trace X) : Prop where
  event : d.operationEvents t = [r.event opInfo]
  cost_le : r.actualGasCost ≤ opInfo.prefund
  /-- The only write is the refund. -/
  refund : ∃ before after, d.stores t = [(before, after)]
    ∧ after.storage.entryPoint.deposits = Function.update before.storage.entryPoint.deposits
        opInfo.mUserOp.payer { infoOf before opInfo.mUserOp.payer with
          deposit := (infoOf before opInfo.mUserOp.payer).deposit + (opInfo.prefund - r.actualGasCost) }
  /-- Nothing is left of an inner call that is rolled back. -/
  inner : ∃ before after ok ret body t1,
    t = .call (innerHandleOpFrame msg op opInfo) before after ok ret body :: t1
      ∧ (ok = false → after = before ∧ r.success = false)

/-- The operations are executed and settled one after the other. -/
inductive Settlements (d : Deployment X) (msg : Frame Message)
    : List PackedUserOperation → List UserOpInfo → List Receipt → Chain.Trace X → Prop where
  | nil : Settlements d msg [] [] [] []
  | changed {ops opInfos rs a t} :
      Settlements d msg ops opInfos rs t →
      Settlements d msg ops opInfos rs (.log (.signatureAggregatorChanged a) :: t)
  | cons {op ops opInfo opInfos r rs t t'} :
      Settles d msg op opInfo r t → Settlements d msg ops opInfos rs t' →
      Settlements d msg (op :: ops) (opInfo :: opInfos) (r :: rs) (t ++ t')

theorem Settlements.events {rs : List Receipt} (h : Settlements d msg ops opInfos rs t)
    : d.operationEvents t = List.zipWith Receipt.event rs opInfos := by
  induction h with
  | nil => rfl
  | changed _ ih => exact ih
  | cons hop _ ih =>
    rw [operationEvents_append, hop.event, ih]
    rfl

variable {op : PackedUserOperation} {opInfo : UserOpInfo} {cost : Nat} {success : Bool}

/-- The last events of an operation make its receipt. -/
theorem Settled.receipt {ts : Chain.Trace X} (h : Settled opInfo success cost ts)
    : ∃ actualGasUsed before after,
        ts.filterMap operationEvent = [userOperationEvent opInfo success cost actualGasUsed]
        ∧ ts.filterMap store = [(before, after)]
        ∧ after.storage.entryPoint.deposits = Function.update before.storage.entryPoint.deposits
            opInfo.mUserOp.payer { infoOf before opInfo.mUserOp.payer with
              deposit := (infoOf before opInfo.mUserOp.payer).deposit + (opInfo.prefund - cost) } := by
  cases h with
  | @credit _ _ actualGas before after hcredits =>
    refine ⟨actualGas, before, after, rfl, rfl, ?_⟩
    rw [hcredits.2]
    rfl
  | @charge actualGas before after hcharges =>
    refine ⟨actualGas, before, after, rfl, rfl, ?_⟩
    rw [hcharges, Nat.sub_self, Nat.add_zero]
    exact (Function.update_eq_self _ _).symm

theorem SignatureChecks.silent (h : SignatureChecks msg opas t) : t.filterMap operationEvent = [] :=
  List.filterMap_eq_nil_iff.mpr (h.forall_mem fun _ _ _ _ _ _ => rfl)

theorem SignatureChecks.not_sstore {before after : World (Chain X)} (h : SignatureChecks msg opas t)
    : .sstore before after ∉ t :=
  fun hmem => h.forall_mem (P := (· ≠ .sstore before after)) (fun _ _ _ _ _ _ => nofun) _ hmem rfl

theorem Validations.silent {ops : List (Address × PackedUserOperation)} (h : Validations d msg ops opInfos t)
    : t.filterMap operationEvent = [] := by
  apply List.filterMap_eq_nil_iff.mpr
  refine h.forall_mem ?_
  intro op mUserOp e he
  cases he <;> rfl

theorem AccountCall.silent {callData : CallData} (h : AccountCall msg callData opInfo success t)
    : t.filterMap operationEvent = [] ∧ t.filterMap store = [] := by
  cases h <;> exact ⟨rfl, rfl⟩

theorem PostOpCall.silent (h : PostOpCall msg opInfo t)
    : t.filterMap operationEvent = [] ∧ t.filterMap store = [] := by
  cases h <;> exact ⟨rfl, rfl⟩

theorem innerCall_innerHandleOpFrame {before after : World (Chain X)} {body : Chain.Trace X}
    (hself : msg.self = d.entryPoint)
    : d.innerCall (.call (innerHandleOpFrame msg op opInfo) before after true ret body)
        = some (innerHandleOpFrame msg op opInfo) :=
  if_pos hself

/-- An inner call that is rolled back leaves the settlement to its caller. -/
theorem Settled.settles {before : World (Chain X)} {body ts : Chain.Trace X} (t1 : Chain.Trace X)
    (hlogs : t1.filterMap operationEvent = [] ∧ t1.filterMap store = [] ∧ d.innerCalls t1 = [])
    (h : Settled opInfo false cost ts)
    : ∃ r : Receipt, r.actualGasCost = cost
        ∧ Settles d msg op opInfo r (.call (innerHandleOpFrame msg op opInfo) before before false ret body
            :: (t1 ++ ts)) := by
  obtain ⟨actualGasUsed, before', after', hevent, hstore, hdeposits⟩ := h.receipt
  have hunrolled : List.flatMap d.unrolled (.call (innerHandleOpFrame msg op opInfo) before before false ret
      body :: (t1 ++ ts)) = .call (innerHandleOpFrame msg op opInfo) before before false ret body
        :: (t1 ++ ts) := by
    apply flatMap_unrolled
    rw [innerCalls_cons, innerCalls_append, hlogs.2.2, h.innerCalls]
    rfl
  refine ⟨⟨false, cost, actualGasUsed⟩, rfl, ?_, h.cost_le, ⟨before', after', ?_, hdeposits⟩,
    ⟨before, before, false, ret, body, t1 ++ ts, rfl, fun _ => ⟨rfl, rfl⟩⟩⟩
  . rw [operationEvents, hunrolled, List.filterMap_cons, List.filterMap_append, hlogs.1, hevent]
    rfl
  . rw [stores, hunrolled, List.filterMap_cons, List.filterMap_append, hlogs.2.1, hstore]
    rfl

theorem Settlement.settles (hself : msg.self = d.entryPoint) (h : Settlement msg op opInfo cost t)
    : ∃ r : Receipt, r.actualGasCost = cost ∧ Settles d msg op opInfo r t := by
  cases h with
  | @inner success cost w before after ta tp ts hcall hpost hsettled =>
    obtain ⟨actualGasUsed, before', after', hevent, hstore, hdeposits⟩ := hsettled.receipt
    have hunrolled : List.flatMap d.unrolled [.call (innerHandleOpFrame msg op opInfo) before after true
        (.words [cost]) (.enter w :: (ta ++ tp ++ ts))] = .enter w :: (ta ++ tp ++ ts) := by
      rw [List.flatMap_singleton, unrolled_of_some (innerCall_innerHandleOpFrame hself)]
    refine ⟨⟨success, cost, actualGasUsed⟩, rfl, ?_, hsettled.cost_le, ⟨before', after', ?_, hdeposits⟩,
      ⟨before, after, true, _, _, [], rfl, fun h => by cases h⟩⟩
    . rw [operationEvents, hunrolled, List.filterMap_cons, List.filterMap_append, List.filterMap_append,
        hcall.silent.1, hpost.silent.1, hevent]
      rfl
    . rw [stores, hunrolled, List.filterMap_cons, List.filterMap_append, List.filterMap_append,
        hcall.silent.2, hpost.silent.2, hstore]
      rfl
  | lowPrefund hsettled => exact Settled.settles [] ⟨rfl, rfl, rfl⟩ hsettled
  | postOpReverted hsettled => exact Settled.settles [.log _] ⟨rfl, rfl, rfl⟩ hsettled

theorem Executions.settlements {costs : List Nat} (hself : msg.self = d.entryPoint)
    (h : Executions msg ops opInfos costs t)
    : ∃ rs : List Receipt, rs.map Receipt.actualGasCost = costs ∧ Settlements d msg ops opInfos rs t := by
  induction h with
  | nil => exact ⟨[], rfl, .nil⟩
  | changed _ ih =>
    obtain ⟨rs, hcosts, hsettlements⟩ := ih
    exact ⟨rs, hcosts, .changed hsettlements⟩
  | cons hop _ ih =>
    obtain ⟨rs, hcosts, hsettlements⟩ := ih
    obtain ⟨r, hcost, hsettles⟩ := hop.settles hself
    exact ⟨r :: rs, by rw [List.map_cons, hcosts, hcost], .cons hsettles hsettlements⟩

/-! ## Bundles -/

/-- A bundle that settles all its operations, the only refunds being those of the settlements, and pays
their costs to the beneficiary. -/
inductive BundleSettles (d : Deployment X) (msg : Frame Message) (opas : List UserOpsPerAggregator)
    (beneficiary : Address) (opInfos : List UserOpInfo) (rs : List Receipt) (t : Chain.Trace X) : Prop where
  | mk {pre te before1 after1 before2 after2 ret body before3 after3 ledger} :
      List.Forall₂ (fun aop opInfo => Validated d msg aop.1 aop.2 opInfo pre
        ∧ opInfo.prefund = getRequiredPrefund opInfo.mUserOp) (UserOpsPerAggregator.flatten opas) opInfos →
      Settlements d msg ((UserOpsPerAggregator.flatten opas).map Prod.snd) opInfos rs te →
      d.operationEvents t = List.zipWith Receipt.event rs opInfos →
      (∀ before after, .sstore before after ∈ pre ++ [.sstore before1 after1, .sstore before3 after3] →
        ∀ account, (infoOf after account).deposit ≤ (infoOf before account).deposit) →
      before2.ledger.transfer msg.self beneficiary (rs.map Receipt.actualGasCost).sum = some ledger →
      .enter { before2 with ledger := ledger } ∈ body →
      t = pre ++ .log .beforeExecution :: (te ++
          [.sstore before1 after1,
            .call ⟨beneficiary, msg.self, (rs.map Receipt.actualGasCost).sum, .bytes [], msg.env⟩
              before2 after2 true ret body,
            .sstore before3 after3]) →
      BundleSettles d msg opas beneficiary opInfos rs t

theorem Validations.prefunded {ops : List (Address × PackedUserOperation)}
    (h : Validations d msg ops opInfos t)
    : List.Forall₂ (fun aop opInfo => Validated d msg aop.1 aop.2 opInfo t
        ∧ opInfo.prefund = getRequiredPrefund opInfo.mUserOp) ops opInfos := by
  induction h with
  | nil => exact .nil
  | cons hop _ ih =>
    refine .cons ⟨?_, hop.prefund⟩ (ih.imp fun _ _ hv => ⟨?_, hv.2⟩)
    . exact (Validated.mk hop.mUserOp hop.userOpHash hop.account hop.paymaster).mono fun e he =>
        List.mem_append_left _ he
    . exact hv.1.mono fun e he => List.mem_append_right _ he

/-- The validation refunds nothing. -/
theorem Validating.deposit_le {op : PackedUserOperation} {mUserOp : MemoryUserOp}
    {before after : World (Chain X)} (h : d.Validating msg op mUserOp (.sstore before after))
    (account : Address)
    : (infoOf after account).deposit ≤ (infoOf before account).deposit := by
  cases h with
  | locks h =>
    rw [h.2]
    change (Function.update before.storage.entryPoint.deposits mUserOp.payer _ account).deposit ≤ _
    rw [Function.update_apply]
    split
    . next heq =>
      rw [heq]
      exact Nat.sub_le _ _
    . exact Nat.le_refl _
  | accepts h =>
    rw [h.2]
    exact Nat.le_refl _

theorem Validations.deposit_le {ops : List (Address × PackedUserOperation)} {before after : World (Chain X)}
    (h : Validations d msg ops opInfos t) (hmem : .sstore before after ∈ t) (account : Address)
    : (infoOf after account).deposit ≤ (infoOf before account).deposit := by
  have hevents := h.forall_mem (P := fun e => ∃ op mUserOp, d.Validating msg op mUserOp e)
    fun op mUserOp _ he => ⟨op, mUserOp, he⟩
  obtain ⟨op, mUserOp, hevent⟩ := hevents _ hmem
  exact hevent.deposit_le account

theorem Bundle.settles {n : Nat} {costs : List Nat} {w : World (Chain X)} (hself : msg.self = d.entryPoint)
    (hopas : bundleOf (decodeMessage d.cfg msg.message) = some (opas, beneficiary))
    (hok : (invoke d.system n msg s).ok = true) (hbody : (invoke d.system n msg s).body = .enter w :: t)
    (hsafe : ∀ w, Outside w (invoke d.system n msg s).body → d.Safe w)
    (h : Bundle d msg opas beneficiary opInfos costs t)
    : ∃ rs, BundleSettles d msg opas beneficiary opInfos rs t := by
  have hfits := h.costs_lt hself hopas hok hsafe
  obtain @⟨before0, after0, ts, tv, te, before1, after1, before2, after2, ret, body, before3, after3,
    hguard, hchecks, hvalidations, hexecutions, hpays, hguard', ht⟩ := h
  obtain ⟨rs, hcosts, hsettlements⟩ := hexecutions.settlements hself
  rw [Nat.mod_eq_of_lt hfits, ← hcosts] at ht
  -- the call of the beneficiary
  have hcall : .call ⟨beneficiary, msg.self, (rs.map Receipt.actualGasCost).sum, .bytes [], msg.env⟩
      before2 after2 true ret body ∈ (invoke d.system n msg s).body := by
    rw [hbody, ht]
    simp
  obtain ⟨_, _, m, _, s1, s2, hinvoke, hbefore, _⟩ := invoke_call d.system hcall
  obtain ⟨_, _, ledger, htransfer, hentered⟩ := invoke_ok d.system (n := m) (s := s1) (by rw [hinvoke])
  rw [hbefore] at htransfer hentered
  rw [hinvoke] at hentered
  have henter : .enter { before2 with ledger := ledger } ∈ body := by
    rcases hentered with ⟨_, _, hbody⟩ | ⟨_, _, _, _, hbody⟩
    . rw [show body = _ from hbody]
      exact List.mem_cons_self
    . rw [show body = _ from hbody]
      exact List.mem_cons_self
  obtain ⟨pre, hpre⟩ : ∃ pre, pre = .sstore before0 after0 :: (ts ++ tv) := ⟨_, rfl⟩
  have ht' : t = pre ++ .log .beforeExecution :: (te ++ [.sstore before1 after1,
      .call ⟨beneficiary, msg.self, (rs.map Receipt.actualGasCost).sum, .bytes [], msg.env⟩ before2 after2 true
        ret body, .sstore before3 after3]) := by
    rw [ht, hpre]
    rfl
  refine ⟨rs, .mk ?_ hsettlements ?_ ?_ htransfer henter ht'⟩
  . refine hvalidations.prefunded.imp fun aop opInfo hv => ⟨hv.1.mono fun e he => ?_, hv.2⟩
    rw [hpre]
    exact List.mem_cons_of_mem _ (List.mem_append_right _ he)
  . have hsettled := hsettlements.events
    have hbefore : d.operationEvents pre = [] := by
      have hinner : d.innerCalls pre = [] := by
        rw [hpre, innerCalls_cons, innerCalls_append, hchecks.innerCalls, hvalidations.innerCalls]
        rfl
      rw [operationEvents, flatMap_unrolled hinner, hpre, List.filterMap_cons, List.filterMap_append,
        hchecks.silent, hvalidations.silent]
      rfl
    have hafter : d.operationEvents [.sstore before1 after1,
        .call ⟨beneficiary, msg.self, (rs.map Receipt.actualGasCost).sum, .bytes [], msg.env⟩ before2 after2
          true ret body, .sstore before3 after3] = [] := by
      have hinner : d.innerCalls [.sstore before1 after1,
          .call ⟨beneficiary, msg.self, (rs.map Receipt.actualGasCost).sum, .bytes [], msg.env⟩ before2 after2
            true ret body, .sstore before3 after3] = [] := by
        rw [innerCalls_cons, innerCalls_cons, innerCalls_cons, innerCall_none fun _ _ _ => Message.noConfusion]
        rfl
      rw [operationEvents, flatMap_unrolled hinner]
      rfl
    rw [ht', ← List.singleton_append, operationEvents_append, operationEvents_append, operationEvents_append,
      hbefore, hsettled, hafter, List.append_nil]
    rfl
  . intro before after hmem account
    rw [hpre] at hmem
    simp only [List.mem_append, List.mem_cons, List.not_mem_nil, or_false, Event.sstore.injEq] at hmem
    rcases hmem with (⟨rfl, rfl⟩ | hmem | hmem) | ⟨rfl, rfl⟩ | ⟨rfl, rfl⟩
    . obtain ⟨entered, rfl⟩ := hguard
      exact Nat.le_refl _
    . exact absurd hmem hchecks.not_sstore
    . exact hvalidations.deposit_le hmem account
    . cases hpays
      exact Nat.le_refl _
    . obtain ⟨entered, rfl⟩ := hguard'
      exact Nat.le_refl _

/-! ## Transactions -/

/-- Only bundles and their inner calls emit events for operations. -/
theorem Effect.operationEvent {message : Message} {l : Log} (h : Effect d msg message t)
    (hmem : .log l ∈ t) (hl : Deployment.operationEvent (X := X) (.log l) ≠ none)
    : (bundleOf message).isSome ∨ ∃ callData opInfo context, message = .innerHandleOp callData opInfo context := by
  cases h with
  | bundle hopas => exact .inl (by rw [hopas]; rfl)
  | inner => exact .inr ⟨_, _, _, rfl⟩
  | deposit | addStake | unlockStake | withdrawStake | withdrawTo =>
    simp only [List.mem_cons, Event.log.injEq, reduceCtorEq, List.not_mem_nil, or_false, false_or] at hmem
    rw [hmem] at hl
    exact absurd rfl hl
  | incrementNonce | view => simp at hmem

/-- In every transaction, each bundle that does not revert emits one event for each of its operations, in
order, with a cost that the prefund covers; refunds the rest of the prefund, once; leaves nothing of an
inner call that was rolled back; and pays the sum of the costs to the beneficiary. Nothing else emits such
events. -/
theorem settled_exactly {depth : Nat} {tx : Transaction Message} {w : World (Chain X)}
    (hw : d.Reachable w) (htx : tx.origin ≠ d.entryPoint)
    : (∀ msg before after ret body opas beneficiary,
        Committed (.call msg before after true ret body) (d.happens depth tx w) →
        msg.self = d.entryPoint →
        bundleOf (decodeMessage d.cfg msg.message) = some (opas, beneficiary) →
          ∃ w' t opInfos rs, body = .enter w' :: t ∧ BundleSettles d msg opas beneficiary opInfos rs t)
      ∧ ∀ frame before after ret body l,
        Committed (.call frame before after true ret body) (d.happens depth tx w) →
        frame.self = d.entryPoint → .log l ∈ body → operationEvent (X := X) (.log l) ≠ none →
          ∃ msg before' after' ret' body' opas beneficiary,
            Committed (.call msg before' after' true ret' body') (d.happens depth tx w)
            ∧ msg.self = d.entryPoint
            ∧ bundleOf (decodeMessage d.cfg msg.message) = some (opas, beneficiary)
            ∧ (frame = msg ∧ body = body' ∨ .call frame before after true ret body ∈ body') := by
  constructor
  . intro msg before after ret body opas beneficiary hcommitted hself hopas
    have hsafe (w' : World (Chain X)) (hw' : Outside w' body) : d.Safe w' := by
      obtain ⟨hsafe, hend⟩ := execute_holds hw.holds depth htx
      rcases Outside.call_singleton (Outside.of_within hcommitted.within hw') with rfl | hvisited
      . exact hend.safe
      . exact hsafe w' hvisited
    obtain ⟨_, m, s1, hok, _, _, _, rfl⟩ := hcommitted.invoked d.system
    obtain ⟨w', opInfos, costs, t, ht, hbundle⟩ := invoke_bundle hself hopas hok
    obtain ⟨rs, hsettles⟩ := hbundle.settles hself hopas hok ht hsafe
    exact ⟨w', t, opInfos, rs, ht, hsettles⟩
  . intro frame before after ret body l hcommitted hself hmem hl
    obtain ⟨_, m, s1, hok, _, _, _, hbody⟩ := hcommitted.invoked d.system
    obtain ⟨w', t, _, ht, heffect⟩ := invoke_effect hself hok
    rw [← hbody, ht] at hmem
    have hmem' := (List.mem_cons.mp hmem).resolve_left fun h => by cases h
    rcases heffect.operationEvent hmem' hl with hsome | ⟨callData, opInfo, context, hmessage⟩
    . obtain ⟨⟨opas, beneficiary⟩, hopas⟩ := Option.isSome_iff_exists.mp hsome
      exact ⟨frame, before, after, ret, body, opas, beneficiary, hcommitted, hself, hopas, .inl ⟨rfl, rfl⟩⟩
    . obtain ⟨msg, before', after', ret', w', t', opas, beneficiary, _, _, _, hmsg, hmsgSelf, hopas, _, hcall, _⟩ :=
        committed_innerHandleOp htx hself hmessage hcommitted
      exact ⟨msg, before', after', ret', _, opas, beneficiary, hmsg, hmsgSelf, hopas,
        .inr (List.mem_cons_of_mem _ hcall)⟩

/-- A transaction that does not revert is a call that does not. -/
theorem exists_mem_happens {depth : Nat} {tx : Transaction Message} {w : World (Chain X)}
    (hok : (execute d.system depth tx w).ok = true)
    : ∃ before after ret body, .call tx.frame before after true ret body ∈ d.happens depth tx w := by
  have hcall : (callEvent d.system depth tx.frame
      ⟨{ w with storage := d.system.clearTransient w.storage }, tx.gas, 0⟩)
        = .call tx.frame { w with storage := d.system.clearTransient w.storage }
          (execute d.system depth tx w).state.world (execute d.system depth tx w).ok
          (execute d.system depth tx w).data (execute d.system depth tx w).body := rfl
  rw [hok] at hcall
  unfold happens
  rw [hcall]
  exact ⟨_, _, _, _, List.mem_singleton_self _⟩

/-- The account at `3` gets back a part of the 1530 that it was to pay for its own operation. -/
theorem settled_exactly_mixedTx
    : let world := (execute mixed.system 7 mixedTx mixedWorld).state.world
      (8470 < (infoOf world 3).deposit ∧ (infoOf world 3).deposit < 10000)
        ∧ ∃ before after ret body w t opInfos rs,
          .call mixedTx.frame before after true ret body ∈ mixed.happens 7 mixedTx mixedWorld
          ∧ body = .enter w :: t
          ∧ BundleSettles mixed mixedTx.frame mixedGroups 5 opInfos rs t := by
  intro world
  have hrun : (execute mixed.system 7 mixedTx mixedWorld).ok = true
      ∧ 8470 < (infoOf world 3).deposit ∧ (infoOf world 3).deposit < 10000 := by
    decide +kernel
  obtain ⟨before, after, ret, body, hmem⟩ := exists_mem_happens hrun.1
  obtain ⟨w, t, opInfos, rs, hbody, hsettles⟩ := (settled_exactly mixedWorld_reachable (by decide)).1 _ before
    after ret body mixedGroups 5 (.here hmem) rfl rfl
  exact ⟨hrun.2, before, after, ret, body, w, t, opInfos, rs, hmem, hbody, hsettles⟩

end Deployment
