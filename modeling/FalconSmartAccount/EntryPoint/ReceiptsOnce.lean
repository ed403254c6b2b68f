import FalconSmartAccount.EntryPoint.BalanceSheet
import FalconSmartAccount.EntryPoint.Nonces

/-!
Over a whole run there is one event for each operation that a bundle has carried out, and never two for
the same sender and nonce.
-/

open Evm

namespace Deployment

open EntryPoint

variable {X : Type}

/-- What an event for an operation says about which one it is. -/
def operationId : Event (Chain X) Message ReturnData Log → Option (Word × Address × Word)
  | .log (.userOperationEvent userOpHash sender _ nonce _ _ _) => some (userOpHash, sender, nonce)
  | _ => none

section

variable (d : Deployment X)

/-- The operations that a frame of the entry point emits events for. -/
def receipts (frame : Frame Message) (body : Chain.Trace X) : Multiset (Word × Address × Word) :=
  if frame.self = d.entryPoint then ↑(body.filterMap operationId) else 0

/-- The operations of a frame that is a bundle. -/
def bundled (frame : Frame Message) : Multiset (Word × Address × Word) :=
  ↑((d.opsOf frame).map fun op => (getUserOpHash d.cfg op, noncePair op))

end

variable {d : Deployment X} {msg frame : Frame Message} {t : Chain.Trace X} {opInfo : UserOpInfo}
  {op : PackedUserOperation} {opInfos : List UserOpInfo} {ops : List PackedUserOperation} {cost : Nat}
  {inv : Frame Message → State (Chain X) → Reply (Chain X) Message ReturnData Log}

/-- The operation that a `UserOpInfo` was filled for. -/
def idOf (opInfo : UserOpInfo) : Word × Address × Word :=
  (opInfo.userOpHash, opInfo.mUserOp.sender, opInfo.mUserOp.nonce)

/-! ## Bundles -/

theorem ValidationRuns.ids {aops : List (Address × PackedUserOperation)}
    (h : ValidationRuns d msg inv aops opInfos t)
    : opInfos.map idOf = (aops.map Prod.snd).map fun op => (getUserOpHash d.cfg op, noncePair op) := by
  induction h with
  | nil => rfl
  | cons h1 _ _ _ ih =>
    have hop := validatePrepayment_returns h1
    obtain ⟨hsender, hnonce⟩ := copyUserOpToMemory_eq hop.mUserOp
    rw [List.map_cons, List.map_cons, List.map_cons, ih, idOf, hop.userOpHash, hsender, hnonce]
    rfl

theorem Validating.operationId {mUserOp : MemoryUserOp} {e : Event (Chain X) Message ReturnData Log}
    (h : d.Validating msg op mUserOp e)
    : Deployment.operationId e = none := by
  cases h <;> rfl

theorem Validations.operationIds {aops : List (Address × PackedUserOperation)}
    (h : Validations d msg aops opInfos t)
    : t.filterMap operationId = [] :=
  List.filterMap_eq_nil_iff.mpr (h.forall_mem fun _ _ _ he => he.operationId)

theorem SignatureChecks.operationIds {opas : List UserOpsPerAggregator} (h : SignatureChecks msg opas t)
    : t.filterMap operationId = [] :=
  List.filterMap_eq_nil_iff.mpr (h.forall_mem fun _ _ _ _ _ _ => rfl)

theorem Settled.operationIds {success : Bool} (h : Settled opInfo success cost t)
    : t.filterMap operationId = [idOf opInfo] := by
  cases h <;> rfl

theorem AccountCall.operationIds {callData : CallData} {success : Bool}
    (h : AccountCall msg callData opInfo success t)
    : t.filterMap operationId = [] := by
  cases h <;> rfl

theorem PostOpCall.operationIds (h : PostOpCall msg opInfo t) : t.filterMap operationId = [] := by
  cases h <;> rfl

theorem Settlement.operationIds (hself : msg.self = d.entryPoint) (h : Settlement msg op opInfo cost t)
    : (t.flatMap d.unrolled).filterMap operationId = [idOf opInfo] := by
  cases h with
  | inner hcall hpost hsettled =>
    rw [List.flatMap_singleton, unrolled_of_some (innerCall_innerHandleOpFrame hself), List.filterMap_cons,
      List.filterMap_append, List.filterMap_append, hcall.operationIds, hpost.operationIds,
      hsettled.operationIds]
    rfl
  | lowPrefund hsettled =>
    rw [flatMap_unrolled (by rw [innerCalls_cons, hsettled.innerCalls]; rfl)]
    exact hsettled.operationIds
  | postOpReverted hsettled =>
    rw [flatMap_unrolled (by rw [innerCalls_cons, innerCalls_cons, hsettled.innerCalls]; rfl)]
    exact hsettled.operationIds

theorem Executions.operationIds {costs : List Nat} (hself : msg.self = d.entryPoint)
    (h : Executions msg ops opInfos costs t)
    : (t.flatMap d.unrolled).filterMap operationId = opInfos.map idOf := by
  induction h with
  | nil => rfl
  | changed _ ih => exact ih
  | cons hop _ ih =>
    rw [List.flatMap_append, List.filterMap_append, hop.operationIds hself, ih]
    rfl

/-- A bundle emits one event for each of its operations. -/
theorem BundleRuns.operationIds {m : Nat} {opas : List UserOpsPerAggregator} {beneficiary : Address}
    {costs : List Nat} (hself : msg.self = d.entryPoint)
    (h : BundleRuns d msg (invoke d.system m) opas beneficiary opInfos costs t)
    : (t.flatMap d.unrolled).filterMap operationId
        = ((UserOpsPerAggregator.flatten opas).map Prod.snd).map fun op =>
            (getUserOpHash d.cfg op, noncePair op) := by
  obtain ⟨before0, after0, ts, tv, te, amount, before1, after1, before2, after2, ret, body, before3, after3,
    _, hchecks, hvalidations, hexecutions, _, _, ht⟩ := h.unrolled hself
  rw [ht]
  simp only [List.filterMap_append, List.filterMap_cons]
  rw [hchecks.operationIds, hvalidations.validations.operationIds,
    hexecutions.operationIds hself, hvalidations.ids]
  exact List.append_nil _

/-! ## Frames -/

theorem opsOf_of_none (h : bundleOf (decodeMessage d.cfg frame.message) = none) : d.opsOf frame = [] := by
  unfold opsOf groupsOf
  rw [h]
  split <;> rfl

theorem opsOf_other (hself : frame.self ≠ d.entryPoint) : d.opsOf frame = [] := by
  unfold opsOf groupsOf
  rw [if_neg hself]
  rfl

theorem sum_operationIds (t : Chain.Trace X)
    : (t.map fun e => (↑(operationId e).toList : Multiset (Word × Address × Word))).sum
        = ↑(t.filterMap operationId) := by
  induction t with
  | nil => rfl
  | cons e t ih =>
    rw [List.map_cons, List.sum_cons, ih, List.filterMap_cons]
    cases operationId e with
    | none => exact zero_add _
    | some i => rfl

/-- Calls of the entry point that are no bundles emit no such event. -/
theorem Effect.operationIds {message : Message} (hbundle : bundleOf message = none)
    (hinner : isInnerHandleOp message = false) (h : Effect d msg message t)
    : t.filterMap operationId = [] := by
  apply List.filterMap_eq_nil_iff.mpr
  intro e he
  cases e with
  | log l =>
    by_contra hsome
    have hl : Deployment.operationEvent (X := X) (.log l) ≠ none := by
      cases l with
      | userOperationEvent => exact Option.some_ne_none _
      | _ => exact absurd rfl hsome
    rcases h.operationEvent he hl with hopas | ⟨_, _, _, rfl⟩
    . rw [hbundle] at hopas
      cases hopas
    . cases hinner
  | _ => rfl

theorem answered_bundled : answered d.Inner (fun frame _ => d.bundled frame) t = 0 := by
  apply List.sum_eq_zero
  intro k hk
  obtain ⟨e, he, rfl⟩ := List.mem_map.mp hk
  cases e with
  | call callee before after ok ret body =>
    cases ok with
    | false => rfl
    | true =>
      change (if d.Inner callee then d.bundled callee else 0) = 0
      split
      . next hinner =>
        obtain ⟨callData, opInfo, context, hmessage⟩ := isInnerHandleOp_eq hinner.2
        unfold bundled
        rw [opsOf_of_none (by rw [hmessage]; rfl)]
        rfl
      . rfl
  | _ => rfl

/-- A frame emits events for its own operations, if nobody else answers for it. -/
theorem invoke_receipts {n : Nat} {s : State (Chain X)} (hvetted : Vetted d frame) (hinner : ¬d.Inner frame)
    (hok : (invoke d.system n frame s).ok = true)
    : d.receipts frame (invoke d.system n frame s).body
          + answered d.Inner d.receipts (invoke d.system n frame s).body
        = d.bundled frame + answered d.Inner (fun frame _ => d.bundled frame) (invoke d.system n frame s).body := by
  rw [answered_bundled, add_zero]
  by_cases hself : frame.self = d.entryPoint
  . obtain ⟨w, t, _, hbody, heffect⟩ := invoke_effect hself hok
    have hsum := sum_unrolled (d := d) (t := (invoke d.system n frame s).body) (g := d.receipts)
      (f := fun e => (↑(operationId e).toList : Multiset (Word × Address × Word)))
      (fun _ _ _ _ _ _ => rfl) fun callee body hinner => by
        unfold receipts
        rw [if_pos hinner.1, sum_operationIds]
    rw [sum_operationIds, sum_operationIds] at hsum
    rw [show d.receipts frame _ = _ from if_pos hself, hsum, hbody]
    unfold bundled
    apply congrArg
    change (t.flatMap d.unrolled).filterMap operationId = _
    cases hopas : bundleOf (decodeMessage d.cfg frame.message) with
    | some bundle =>
      obtain ⟨m, w', opInfos, costs, t', hbody', hruns⟩ := invoke_bundleRuns hself hopas hok
      obtain ⟨_, rfl⟩ := List.cons.inj (hbody.symm.trans hbody')
      rw [hruns.operationIds hself, mem_opsOf hself hopas]
    | none =>
      have hnil : d.innerCalls t = [] := by
        rcases heffect.innerCalls rfl hself hvetted with hnil | ⟨_, _, _, _, _, hsome, _⟩
        . exact hnil
        . rw [hopas] at hsome
          cases hsome
      have hnot : isInnerHandleOp (decodeMessage d.cfg frame.message) = false :=
        (Bool.not_eq_true _).mp fun h => hinner ⟨hself, h⟩
      rw [flatMap_unrolled hnil, opsOf_of_none hopas]
      exact heffect.operationIds hopas hnot
  . rw [answered_other hself, show d.receipts frame _ = _ from if_neg hself]
    unfold bundled
    rw [opsOf_other hself]
    rfl

/-! ## Runs -/

theorem total_receipts {depth : Nat} {tx : Transaction Message} {w : World (Chain X)}
    (htx : tx.origin ≠ d.entryPoint)
    : total d.receipts (d.happens depth tx w)
        = total (fun frame _ => d.bundled frame) (d.happens depth tx w) :=
  callEvent_total d.system (fun _ _ _ _ _ _ _ _ hvetted hok hcall => inner_step hvetted hok hcall)
    (fun _ _ _ hvetted hinner hok => invoke_receipts hvetted hinner hok)
    (fun hcaller => absurd hcaller htx) fun hok hinner => htx (hinner.caller hok)

theorem Journal.ran {w : World (Chain X)} (h : d.Journal t w)
    : ∃ ws, d.Ran ws ((frames t).flatMap d.opsOf) w := by
  induction h with
  | genesis ledger rest => exact ⟨[], .genesis ledger rest⟩
  | @transaction t w depth tx _ htx ih =>
    obtain ⟨ws, hran⟩ := ih
    refine ⟨ws ++ d.committedWrites depth tx w, ?_⟩
    rw [frames_append, List.flatMap_append]
    exact .transaction depth tx hran htx
  | block ledger _ hledger ih =>
    obtain ⟨ws, hran⟩ := ih
    exact ⟨ws, .block ledger hran hledger⟩

theorem Ran.nodup {ws : List (Write (Chain X) Message ReturnData Log)} {w : World (Chain X)}
    (h : d.Ran ws ops w)
    : (ops.map noncePair).Nodup := by
  apply List.nodup_iff_count_le_one.mpr
  intro p
  have hnodup : (ws.flatMap acceptedBy).Nodup := by
    apply h.increasing.imp
    rintro p q hlt rfl
    exact absurd (hlt rfl rfl) (Nat.lt_irrefl _)
  exact (h.count_le p).trans (List.nodup_iff_count_le_one.mp hnodup p)

/-- The operations that the bundles of a run have carried out. -/
def carriedOut (d : Deployment X) (t : Chain.Trace X) : List PackedUserOperation :=
  (frames t).flatMap d.opsOf

/-- In every run from the start, the events for operations are, as a multiset, those of the operations in
the bundles that have not reverted, with the hash that each of them was signed for. No sender and nonce
appears twice. -/
theorem receipts_once {w : World (Chain X)} (h : d.Journal t w)
    : total d.receipts t = ↑((d.carriedOut t).map fun op => (getUserOpHash d.cfg op, noncePair op))
      ∧ ((total d.receipts t).map Prod.snd).Nodup := by
  have htotal : total d.receipts t
      = ↑((d.carriedOut t).map fun op => (getUserOpHash d.cfg op, noncePair op)) := by
    have hframes : total d.receipts t = total (fun frame _ => d.bundled frame) t := by
      induction h with
      | genesis => rfl
      | transaction depth tx _ htx ih =>
        rw [total_append, total_append, ih, total_receipts htx]
      | block _ _ _ ih => exact ih
    rw [hframes, total_frames]
    unfold carriedOut
    induction frames t with
    | nil => rfl
    | cons frame fs ih =>
      rw [List.map_cons, List.sum_cons, ih, List.flatMap_cons, List.map_append]
      rfl
  refine ⟨htotal, ?_⟩
  obtain ⟨ws, hran⟩ := h.ran
  rw [htotal, Multiset.map_coe, List.map_map]
  exact Multiset.coe_nodup.mpr hran.nodup

theorem receipts_once_sampleOp
    : total sample.receipts (sample.happens 2 depositTx sampleWorld
          ++ sample.happens 5 (bundleTx (.handleOps [sampleOp 3] 5)) fundedWorld)
        = {(getUserOpHash sample.cfg (sampleOp 3), 3, 0)} := by
  have hfunded : sample.Journal (sample.happens 2 depositTx sampleWorld) fundedWorld :=
    .transaction 2 depositTx (.genesis sampleLedger ()) (by decide)
  have hrun := Journal.transaction 5 (bundleTx (.handleOps [sampleOp 3] 5)) hfunded (by decide)
  have hops : sample.carriedOut (sample.happens 2 depositTx sampleWorld
      ++ sample.happens 5 (bundleTx (.handleOps [sampleOp 3] 5)) fundedWorld) = [sampleOp 3] := by
    decide +kernel
  rw [(receipts_once hrun).1, hops]
  rfl

end Deployment
