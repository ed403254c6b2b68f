import FalconSmartAccount.EntryPoint.Bundle
import FalconSmartAccount.EntryPoint.Solvency

/-!
What each function of the entry point leaves in its trace, if it returns.
-/

open Evm

namespace Deployment

open EntryPoint

variable {X : Type}

/-- The stake information of an address. -/
def infoOf (w : World (Chain X)) (account : Address) : DepositInfo := w.storage.entryPoint.deposits account

/-- The events of a bundle with the trace `t`. -/
inductive Bundling (d : Deployment X) (msg : Frame Message) (opas : List UserOpsPerAggregator)
    (beneficiary : Address) (opInfos : List UserOpInfo) (t : Chain.Trace X)
    : Event (Chain X) Message ReturnData Log → Prop where
  | guards {before after} :
      Guards before after → Bundling d msg opas beneficiary opInfos t (.sstore before after)
  | check {opa before after ret body} :
      opa ∈ opas →
      Bundling d msg opas beneficiary opInfos t (.call ⟨opa.aggregator, msg.self, 0,
        .validateSignatures opa.userOps opa.signature, msg.env⟩ before after true ret body)
  | validating {aop opInfo t' e} :
      (aop, opInfo) ∈ (UserOpsPerAggregator.flatten opas).zip opInfos →
      d.Validation msg aop.1 aop.2 opInfo t' → t' <:+: t → e ∈ t' →
      Bundling d msg opas beneficiary opInfos t e
  | log {l} : Bundling d msg opas beneficiary opInfos t (.log l)
  | inner {aop opInfo before after ok ret body} :
      (aop, opInfo) ∈ (UserOpsPerAggregator.flatten opas).zip opInfos →
      Bundling d msg opas beneficiary opInfos t
        (.call (innerHandleOpFrame msg aop.2 opInfo) before after ok ret body)
  | credits {opInfo cost before after} :
      Credits opInfo cost before after → Bundling d msg opas beneficiary opInfos t (.sstore before after)
  | charges {opInfo before after} :
      Charges opInfo before after → Bundling d msg opas beneficiary opInfos t (.sstore before after)
  | pays {amount before after} :
      Pays amount before after → Bundling d msg opas beneficiary opInfos t (.sstore before after)
  | compensate {amount before after ret body} :
      Bundling d msg opas beneficiary opInfos t
        (.call ⟨beneficiary, msg.self, amount, .bytes [], msg.env⟩ before after true ret body)

/-- The trace of a call of the entry point, by the message that it gets. -/
inductive Effect (d : Deployment X) (msg : Frame Message) : Message → Chain.Trace X → Prop where
  | deposit {message account before} :
      message = .depositTo account ∨ message = .receive ∧ account = msg.caller →
      Effect d msg message
        [.sstore before (before.write Chain.entryPointPart fun s =>
            (s.setDeposit account ((infoOf before account).deposit + msg.value)).note id),
          .log (.deposited account ((infoOf before account).deposit + msg.value))]
  | addStake {unstakeDelaySec before} :
      0 < unstakeDelaySec.toNat →
      (infoOf before msg.caller).unstakeDelaySec ≤ unstakeDelaySec.toNat →
      0 < (infoOf before msg.caller).stake + msg.value →
      Effect d msg (.addStake unstakeDelaySec)
        [.sstore before (before.write Chain.entryPointPart fun s => s.setInfo msg.caller
            { deposit := (s.deposits msg.caller).deposit
              staked := true
              stake := (infoOf before msg.caller).stake + msg.value
              unstakeDelaySec := unstakeDelaySec.toNat
              withdrawTime := 0 }),
          .log (.stakeLocked msg.caller ((infoOf before msg.caller).stake + msg.value)
            unstakeDelaySec.toNat)]
  | unlockStake {withdrawTime before} :
      (infoOf before msg.caller).unstakeDelaySec ≠ 0 →
      (infoOf before msg.caller).staked = true →
      withdrawTime = msg.env.timestamp % 2 ^ 48 + (infoOf before msg.caller).unstakeDelaySec →
      Effect d msg .unlockStake
        [.sstore before (before.write Chain.entryPointPart fun s => s.setInfo msg.caller
            { s.deposits msg.caller with withdrawTime := withdrawTime, staked := false }),
          .log (.stakeUnlocked msg.caller withdrawTime)]
  | withdrawStake {withdrawAddress before before1 after1 ret body} :
      0 < (infoOf before msg.caller).stake →
      0 < (infoOf before msg.caller).withdrawTime →
      (infoOf before msg.caller).withdrawTime ≤ msg.env.timestamp →
      Effect d msg (.withdrawStake withdrawAddress)
        [.sstore before (before.write Chain.entryPointPart fun s => s.setInfo msg.caller
            { s.deposits msg.caller with unstakeDelaySec := 0, withdrawTime := 0, stake := 0 }),
          .log (.stakeWithdrawn msg.caller withdrawAddress (infoOf before msg.caller).stake),
          .call ⟨withdrawAddress, msg.self, (infoOf before msg.caller).stake, .bytes [], msg.env⟩
            before1 after1 true ret body]
  | withdrawTo {withdrawAddress withdrawAmount before before1 after1 ret body} :
      withdrawAmount ≤ (infoOf before msg.caller).deposit →
      Effect d msg (.withdrawTo withdrawAddress withdrawAmount)
        [.sstore before (before.write Chain.entryPointPart fun s =>
            s.setDeposit msg.caller ((infoOf before msg.caller).deposit - withdrawAmount)),
          .log (.withdrawn msg.caller withdrawAddress withdrawAmount),
          .call ⟨withdrawAddress, msg.self, withdrawAmount, .bytes [], msg.env⟩
            before1 after1 true ret body]
  | incrementNonce {key before} :
      Effect d msg (.incrementNonce key)
        [.sstore before (before.write Chain.entryPointPart fun s => s.setNonce msg.caller key
            (before.storage.entryPoint.nonceSequenceNumber msg.caller key + 1))]
  | view {view} : Effect d msg (.entryPointView view) []
  | bundle {message opas beneficiary opInfos costs t n} :
      bundleOf message = some (opas, beneficiary) → Bundle d msg opas beneficiary opInfos costs t →
      Fills d msg (invoke d.system n) (UserOpsPerAggregator.flatten opas) opInfos t →
      Effect d msg message t
  | inner {callData opInfo context success cost ta tp ts} :
      msg.caller = msg.self →
      AccountCall msg callData opInfo success ta →
      PostOpCall msg opInfo tp →
      Settled opInfo success cost ts →
      Effect d msg (.innerHandleOp callData opInfo context) (ta ++ tp ++ ts)

variable {d : Deployment X} {msg : Frame Message}
  {inv : Frame Message → State (Chain X) → Reply (Chain X) Message ReturnData Log}
  {s s' : State (Chain X)} {t : Chain.Trace X} {ret : ReturnData}

theorem depositTo_returns {message : Message} {account : Address}
    (hmessage : message = .depositTo account ∨ message = .receive ∧ account = msg.caller)
    (h : d.Returns inv msg (depositTo msg account) s ret s' t)
    : Effect d msg message t := by
  obtain ⟨newDeposit, s1, t1, t2, h1, h, ht⟩ := h.bind
  obtain ⟨s2, hw2, h1⟩ := h1.bind_sload
  obtain ⟨newAmount, hnew, h1⟩ := Returns.bind_lift h1
  obtain ⟨s3, t3, _, ht1, h1⟩ := h1.bind_sstore
  obtain ⟨hdeposit, _, ht3⟩ := h1.pure
  obtain ⟨s4, t4, _, ht2, h⟩ := h.bind_emit
  obtain ⟨_, _, ht4⟩ := h.pure
  rw [ht, ht1, ht2, ht3, ht4, hdeposit, Solidity.eq_of_add hnew, hw2]
  exact .deposit hmessage

theorem addStake_returns {unstakeDelaySec : BitVec 32}
    (h : d.Returns inv msg (addStake msg unstakeDelaySec) s ret s' t)
    : Effect d msg (.addStake unstakeDelaySec) t := by
  obtain ⟨s1, hw1, h⟩ := h.bind_sload
  obtain ⟨hpos, h⟩ := h.bind_require
  obtain ⟨hdelay, h⟩ := h.bind_require
  obtain ⟨stake, hstake, h⟩ := Returns.bind_lift h
  obtain ⟨hstakePos, h⟩ := h.bind_require
  obtain ⟨_, h⟩ := h.bind_require
  obtain ⟨s2, t2, _, ht, h⟩ := h.bind_sstore
  obtain ⟨s3, t3, _, ht2, h⟩ := h.bind_emit
  obtain ⟨_, _, ht3⟩ := h.pure
  rw [Solidity.eq_of_add hstake] at ht ht2 hstakePos
  rw [ht, ht2, ht3, hw1]
  exact .addStake (of_decide_eq_true hpos) (of_decide_eq_true hdelay) (of_decide_eq_true hstakePos)

theorem unlockStake_returns (h : d.Returns inv msg (unlockStake msg) s ret s' t)
    : Effect d msg .unlockStake t := by
  obtain ⟨s1, hw1, h⟩ := h.bind_sload
  obtain ⟨hdelay, h⟩ := h.bind_require
  obtain ⟨hstaked, h⟩ := h.bind_require
  obtain ⟨withdrawTime, htime, h⟩ := Returns.bind_lift h
  obtain ⟨s2, t2, _, ht, h⟩ := h.bind_sstore
  obtain ⟨s3, t3, _, ht2, h⟩ := h.bind_emit
  obtain ⟨_, _, ht3⟩ := h.pure
  rw [ht, ht2, ht3, hw1]
  refine .unlockStake (bne_iff_ne.mp hdelay) hstaked ?_
  unfold addUint48 at htime
  split at htime
  . cases htime
    rfl
  . cases htime

theorem withdrawStake_returns {withdrawAddress : Address}
    (h : d.Returns inv msg (withdrawStake msg withdrawAddress) s ret s' t)
    : Effect d msg (.withdrawStake withdrawAddress) t := by
  obtain ⟨s1, hw1, h⟩ := h.bind_sload
  obtain ⟨hstake, h⟩ := h.bind_require
  obtain ⟨htime, h⟩ := h.bind_require
  obtain ⟨hdue, h⟩ := h.bind_require
  obtain ⟨s2, t2, _, ht, h⟩ := h.bind_sstore
  obtain ⟨s3, t3, _, ht2, h⟩ := h.bind_emit
  obtain ⟨r, s4, s5, s6, body, t4, _, _, _, ht3, h⟩ := h.bind_call
  obtain ⟨hsuccess, h⟩ := h.bind_require
  obtain ⟨_, _, ht4⟩ := h.pure
  rw [ht, ht2, ht3, ht4, hw1, hsuccess]
  exact .withdrawStake (of_decide_eq_true hstake) (of_decide_eq_true htime) (of_decide_eq_true hdue)

theorem withdrawTo_returns {withdrawAddress : Address} {withdrawAmount : Nat}
    (h : d.Returns inv msg (withdrawTo msg withdrawAddress withdrawAmount) s ret s' t)
    : Effect d msg (.withdrawTo withdrawAddress withdrawAmount) t := by
  obtain ⟨s1, hw1, h⟩ := h.bind_sload
  obtain ⟨hle, h⟩ := h.bind_require
  obtain ⟨s2, t2, _, ht, h⟩ := h.bind_sstore
  obtain ⟨s3, t3, _, ht2, h⟩ := h.bind_emit
  obtain ⟨r, s4, s5, s6, body, t4, _, _, _, ht3, h⟩ := h.bind_call
  obtain ⟨hsuccess, h⟩ := h.bind_require
  obtain ⟨_, _, ht4⟩ := h.pure
  rw [ht, ht2, ht3, ht4, hw1, hsuccess]
  exact .withdrawTo (of_decide_eq_true hle)

theorem incrementNonce_returns {key : BitVec 192}
    (h : d.Returns inv msg (incrementNonce msg key) s ret s' t)
    : Effect d msg (.incrementNonce key) t := by
  obtain ⟨s1, hw1, h⟩ := h.bind_sload
  obtain ⟨next, hnext, h⟩ := Returns.bind_lift h
  obtain ⟨s2, t2, _, ht, h⟩ := h.bind_sstore
  obtain ⟨_, _, ht2⟩ := h.pure
  rw [Solidity.eq_of_add hnext] at ht
  rw [ht, ht2, hw1]
  exact .incrementNonce

theorem getSenderAddress_not_returns {initCode : Bytes}
    : ¬d.Returns inv msg (getSenderAddress d.cfg initCode) s ret s' t := by
  intro h
  obtain ⟨r, s1, s2, s3, body, t1, _, _, _, _, h⟩ := h.bind_call
  obtain ⟨_, h⟩ := h.bind_require
  obtain ⟨sender, _, h⟩ := Returns.bind_getOrRevert h
  exact Evm.Returns.not_revert h

theorem delegateAndRevert_not_returns {target : Address} {data : Bytes}
    : ¬d.Returns inv msg (delegateAndRevert target data) s ret s' t := by
  intro h
  obtain ⟨r, s1, t1, t2, _, h, _⟩ := h.bind
  exact Evm.Returns.not_revert h

theorem Validations.bundling {opas : List UserOpsPerAggregator} {beneficiary : Address}
    {ops : List (Address × PackedUserOperation)} {opInfos opInfos' : List UserOpInfo}
    {tv : Chain.Trace X} (h : Validations d msg ops opInfos' tv)
    (hsub : ∀ p ∈ ops.zip opInfos', p ∈ (UserOpsPerAggregator.flatten opas).zip opInfos)
    (hpart : tv <:+: t)
    : ∀ e ∈ tv, Bundling d msg opas beneficiary opInfos t e := by
  induction h with
  | nil => exact fun e he => absurd he List.not_mem_nil
  | @cons aggregator op ops opInfo opInfos' t1 t2 hop _ ih =>
    intro e he
    rcases List.mem_append.mp he with he | he
    . have hpart' : t1 <:+: t := (List.prefix_append t1 t2).isInfix.trans hpart
      exact .validating (hsub _ List.mem_cons_self) hop hpart' he
    . exact ih (fun p hp => hsub p (List.mem_cons_of_mem _ hp))
        ((List.suffix_append t1 t2).isInfix.trans hpart) e he

theorem Settled.bundling {opas : List UserOpsPerAggregator} {beneficiary : Address}
    {opInfos : List UserOpInfo} {opInfo : UserOpInfo} {success : Bool} {cost : Nat} {ts : Chain.Trace X}
    (h : Settled opInfo success cost ts)
    : ∀ e ∈ ts, Bundling d msg opas beneficiary opInfos t e := by
  cases h with
  | credit h =>
    intro e he
    rcases List.mem_cons.mp he with rfl | he
    . exact .credits h
    . rw [List.mem_singleton.mp he]
      exact .log
  | charge h =>
    intro e he
    rcases List.mem_cons.mp he with rfl | he
    . exact .charges h
    . rcases List.mem_cons.mp he with rfl | he
      . exact .log
      . rw [List.mem_singleton.mp he]
        exact .log

theorem Settlement.bundling {opas : List UserOpsPerAggregator} {beneficiary : Address}
    {opInfos : List UserOpInfo} {aop : Address × PackedUserOperation} {opInfo : UserOpInfo} {cost : Nat}
    {te : Chain.Trace X} (h : Settlement msg aop.2 opInfo cost te)
    (hmem : (aop, opInfo) ∈ (UserOpsPerAggregator.flatten opas).zip opInfos)
    : ∀ e ∈ te, Bundling d msg opas beneficiary opInfos t e := by
  cases h with
  | inner =>
    intro e he
    rw [List.mem_singleton.mp he]
    exact .inner hmem
  | lowPrefund h =>
    intro e he
    rcases List.mem_cons.mp he with rfl | he
    . exact .inner hmem
    . exact h.bundling e he
  | postOpReverted h =>
    intro e he
    rcases List.mem_cons.mp he with rfl | he
    . exact .inner hmem
    . rcases List.mem_cons.mp he with rfl | he
      . exact .log
      . exact h.bundling e he

theorem Executions.bundling {opas : List UserOpsPerAggregator} {beneficiary : Address}
    {ops : List PackedUserOperation} {opInfos opInfos' : List UserOpInfo} {costs : List Nat}
    {te : Chain.Trace X} (h : Executions msg ops opInfos' costs te)
    {aops : List (Address × PackedUserOperation)} (hops : ops = aops.map Prod.snd)
    (hsub : ∀ p ∈ aops.zip opInfos', p ∈ (UserOpsPerAggregator.flatten opas).zip opInfos)
    : ∀ e ∈ te, Bundling d msg opas beneficiary opInfos t e := by
  induction h generalizing aops with
  | nil => exact fun e he => absurd he List.not_mem_nil
  | changed _ ih =>
    intro e he
    rcases List.mem_cons.mp he with rfl | he
    . exact .log
    . exact ih hops hsub e he
  | cons hop _ ih =>
    cases aops with
    | nil => cases hops
    | cons aop aops =>
      injection hops with hfirst hrest
      rw [hfirst] at hop
      intro e he
      rcases List.mem_append.mp he with he | he
      . exact hop.bundling (hsub _ List.mem_cons_self) e he
      . exact ih hrest (fun p hp => hsub p (List.mem_cons_of_mem _ hp)) e he

theorem Bundle.bundling {opas : List UserOpsPerAggregator} {beneficiary : Address}
    {opInfos : List UserOpInfo} {costs : List Nat} (h : Bundle d msg opas beneficiary opInfos costs t)
    : ∀ e ∈ t, Bundling d msg opas beneficiary opInfos t e := by
  obtain @⟨before0, after0, ts, tv, te, before1, after1, before2, after2, ret, body, before3, after3,
    hguard, hchecks, hvalidations, hexecutions, hpays, hguard', ht⟩ := h
  have hpart : tv <:+: t := by
    rw [ht]
    exact ⟨.sstore before0 after0 :: ts, _, rfl⟩
  have hchecks' : ∀ e ∈ ts, Bundling d msg opas beneficiary opInfos t e :=
    hchecks.forall_mem fun _ hopa _ _ _ _ => .check hopa
  have hvalidations' : ∀ e ∈ tv, Bundling d msg opas beneficiary opInfos t e :=
    hvalidations.bundling (fun _ h => h) hpart
  have hexecutions' : ∀ e ∈ te, Bundling d msg opas beneficiary opInfos t e :=
    hexecutions.bundling rfl fun _ h => h
  intro e he
  rw [ht] at he
  simp only [List.mem_cons, List.mem_append, List.not_mem_nil, or_false] at he
  rcases he with rfl | (he | he) | rfl | he | rfl | rfl | rfl
  . exact .guards hguard
  . exact hchecks' e he
  . exact hvalidations' e he
  . exact .log
  . exact hexecutions' e he
  . exact .pays hpays
  . exact .compensate
  . exact .guards hguard'

theorem dispatch_effect {m : Nat} (hself : msg.self = d.entryPoint)
    (h : d.Returns (invoke d.system m) msg (dispatch d.cfg msg) s ret s' t)
    : Effect d msg (decodeMessage d.cfg msg.message) t := by
  have hbundle := @dispatch_bundle _ d msg m s s' t
  unfold dispatch at h hbundle
  cases hmessage : decodeMessage d.cfg msg.message with
  | receive =>
    rw [hmessage] at h
    exact depositTo_returns (.inr ⟨rfl, rfl⟩) h
  | depositTo account =>
    rw [hmessage] at h
    exact depositTo_returns (.inl rfl) h
  | addStake unstakeDelaySec =>
    rw [hmessage] at h
    exact addStake_returns h
  | unlockStake =>
    rw [hmessage] at h
    exact unlockStake_returns h.bind_require.2
  | withdrawStake withdrawAddress =>
    rw [hmessage] at h
    exact withdrawStake_returns h.bind_require.2
  | withdrawTo withdrawAddress withdrawAmount =>
    rw [hmessage] at h
    exact withdrawTo_returns h.bind_require.2
  | incrementNonce key =>
    rw [hmessage] at h
    exact incrementNonce_returns h.bind_require.2
  | entryPointView view =>
    rw [hmessage] at h
    obtain ⟨s1, _, h⟩ := h.bind_require.2.bind_sload
    rw [h.pure.2.2]
    exact .view
  | handleOps ops beneficiary =>
    obtain ⟨opInfos, costs, hrun, hfills⟩ := hbundle hself (by rw [hmessage]; rfl) h
    exact .bundle rfl hrun hfills
  | handleAggregatedOps opas beneficiary =>
    obtain ⟨opInfos, costs, hrun, hfills⟩ := hbundle hself (by rw [hmessage]; rfl) h
    exact .bundle rfl hrun hfills
  | innerHandleOp callData opInfo context =>
    rw [hmessage] at h
    have h := h.bind_require.2
    obtain ⟨_, _, _, h'⟩ := h.bind_gasleft
    have hcaller := beq_iff_eq.mp h'.bind_require.1
    obtain ⟨success, cost, ta, tp, ts, _, ht, hcall, hpost, hsettled⟩ := innerHandleOp_returns h
    rw [ht]
    exact .inner hcaller hcall hpost hsettled
  | getSenderAddress initCode =>
    rw [hmessage] at h
    exact absurd h.bind_require.2 getSenderAddress_not_returns
  | delegateAndRevert target data =>
    rw [hmessage] at h
    exact absurd h.bind_require.2 delegateAndRevert_not_returns
  | _ =>
    rw [hmessage] at h
    exact absurd h Evm.Returns.not_revert

/-- A call of the entry point that does not revert. -/
theorem invoke_effect {n : Nat} (hself : msg.self = d.entryPoint)
    (hok : (invoke d.system n msg s).ok = true)
    : ∃ w t, w.storage = s.world.storage ∧ (invoke d.system n msg s).body = .enter w :: t
        ∧ Effect d msg (decodeMessage d.cfg msg.message) t := by
  obtain ⟨m, _, s1, t, hstorage, hrun, hbody⟩ := invoke_entryPoint_ok hself hok
  exact ⟨s1.world, t, hstorage, hbody, dispatch_effect hself hrun⟩

end Deployment
