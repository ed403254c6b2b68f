import FalconSmartAccount.EntryPoint.FactoryCalls
import FalconSmartAccount.EntryPoint.Reentrancy
import FalconSmartAccount.Evm.Potential

/-!
The accounts that have been created over a whole run. There is one event for each operation that creates
its sender, and no account is created twice, as long as its code stays.
-/

open Evm

namespace Deployment

open EntryPoint

variable {X : Type}

/-- What the entry point tells about an account that has been created. -/
structure Creation where
  userOpHash : Word
  sender : Address
  factory : Address
  paymaster : Address

def accountDeployed : Event (Chain X) Message ReturnData Log → Option Creation
  | .log (.accountDeployed userOpHash sender factory paymaster) => some ⟨userOpHash, sender, factory, paymaster⟩
  | _ => none

/-- The account that an operation is to create. -/
def creationOf (cfg : Config) (op : PackedUserOperation) : Option Creation :=
  if op.initCode.length = 0 then
    none
  else
    some ⟨getUserOpHash cfg op, op.sender, Abi.addressAt op.initCode 0, paymasterOf op⟩

/-- The accounts that a frame of the entry point tells about. -/
def created (d : Deployment X) (frame : Frame Message) (body : Chain.Trace X) : Multiset Creation :=
  if frame.self = d.entryPoint then ↑(body.filterMap accountDeployed) else 0

/-- What has code at the address keeps it. -/
structure KeepsCode (d : Deployment X) (a : Address) : Prop where
  code : ∀ x target program msg, d.code x target = some program → (program msg).Does fun
    | .sstore f => ∀ x, d.codeLength x a ≠ 0 → d.codeLength (f x) a ≠ 0
    | _ => True
  transient : ∀ x, d.codeLength x a ≠ 0 → d.codeLength (d.clearTransient x) a ≠ 0

variable {d : Deployment X} {msg frame : Frame Message} {s : State (Chain X)} {t : Chain.Trace X}
  {w before after : World (Chain X)} {op : PackedUserOperation} {ops : List PackedUserOperation} {n : Nat}
  {a : Address} {depth : Nat} {tx : Transaction Message}

/-! ## Events -/

theorem filterMap_accountDeployed (t : Chain.Trace X)
    : (t.filter creates).filterMap accountDeployed = t.filterMap accountDeployed := by
  rw [List.filterMap_filter]
  apply List.filterMap_congr
  intro e _
  cases e with
  | log l => cases l <;> rfl
  | _ => simp [accountDeployed]

theorem SenderCreated.creations (h : SenderCreated d msg op t)
    : t.filterMap accountDeployed = (creationOf d.cfg op).toList := by
  unfold creationOf
  cases h with
  | none hnone =>
    rw [if_pos hnone]
    rfl
  | creates hinit =>
    rw [if_neg hinit]
    rfl

theorem SendersCreated.creations (h : SendersCreated d msg ops t)
    : t.filterMap accountDeployed = ops.filterMap (creationOf d.cfg) := by
  induction h with
  | nil => rfl
  | @cons op ops t t' hop _ ih =>
    rw [List.filterMap_append]
    rw [hop.creations]
    rw [ih]
    rw [List.filterMap_cons]
    cases creationOf d.cfg op <;> rfl

/-- A frame tells about the accounts that its own operations create. -/
theorem invoke_creations (hok : (invoke d.system n frame s).ok = true)
    : d.created frame (invoke d.system n frame s).body = ↑((d.opsOf frame).filterMap (creationOf d.cfg)) := by
  unfold created
  split
  . next hself =>
    rw [← filterMap_accountDeployed]
    rw [(invoke_created hself hok).creations]
  . next hother =>
    rw [opsOf_other hother]
    rfl

theorem total_created (depth : Nat) (tx : Transaction Message) (w : World (Chain X))
    : total d.created (d.happens depth tx w)
        = total (fun frame _ => (↑((d.opsOf frame).filterMap (creationOf d.cfg)) : Multiset Creation))
            (d.happens depth tx w) := by
  apply total_congr_committed
  intro callee before after data body hcommitted
  obtain ⟨_, m, s, hok, _, _, _, rfl⟩ := hcommitted.invoked d.system
  apply invoke_creations hok

/-! ## The potential of an account -/

/-- Whether there is code at the address. -/
def codeFlag (d : Deployment X) (a : Address) (s : Chain X) : Nat :=
  if d.codeLength s.rest a = 0 then 0 else 1

theorem codeFlag_eq : d.codeFlag a w.storage = if d.Deployed w a then 1 else 0 := by
  by_cases hcode : d.Deployed w a
  . rw [if_pos hcode]
    apply if_neg hcode
  . rw [if_neg hcode]
    apply if_pos (not_not.mp hcode)

/-- How many times the operations create the account. -/
def creationsOf (d : Deployment X) (a : Address) (frame : Frame Message) : Nat :=
  ((d.opsOf frame).filterMap (creationOf d.cfg)).countP fun c => c.sender = a

theorem SenderCreated.rise (h : SenderCreated d msg op t)
    : ((creationOf d.cfg op).toList.countP fun c => c.sender = a)
        ≤ (t.map (Event.rise (d.codeFlag a))).sum := by
  unfold creationOf
  cases h with
  | none hnone =>
    rw [if_pos hnone]
    apply Nat.le_refl
  | creates hinit hbefore hafter =>
    rw [if_neg hinit]
    by_cases hsender : op.sender = a
    . rw [hsender] at hbefore hafter
      simp only [Option.toList_some, List.countP_singleton, hsender, decide_true, if_true, List.map_cons,
        List.map_nil, List.sum_cons, List.sum_nil, Event.rise, codeFlag]
      rw [if_pos (not_not.mp hbefore)]
      rw [if_neg hafter]
      apply Nat.le_refl
    . simp [hsender]

theorem SendersCreated.rise (h : SendersCreated d msg ops t)
    : ((ops.filterMap (creationOf d.cfg)).countP fun c => c.sender = a)
        ≤ (t.map (Event.rise (d.codeFlag a))).sum := by
  induction h with
  | nil => apply Nat.le_refl
  | @cons op ops t t' hop _ ih =>
    have hsplit : (op :: ops).filterMap (creationOf d.cfg)
        = (creationOf d.cfg op).toList ++ ops.filterMap (creationOf d.cfg) := by
      rw [List.filterMap_cons]
      cases creationOf d.cfg op <;> rfl
    rw [hsplit]
    rw [List.countP_append]
    rw [List.map_append]
    rw [List.sum_append]
    apply Nat.add_le_add
    . apply hop.rise
    . apply ih

/-- The own calls of a bundle let the potential rise as often as it creates the account. -/
theorem creationsOf_le_rise (hself : frame.self = d.entryPoint) (hok : (invoke d.system n frame s).ok = true)
    : d.creationsOf a frame ≤ ((invoke d.system n frame s).body.map (Event.rise (d.codeFlag a))).sum := by
  apply Nat.le_trans (invoke_created hself hok).rise
  apply List.Sublist.sum_le_sum
  . apply List.Sublist.map
    apply List.filter_sublist
  . intro k _
    apply Nat.zero_le

/-- No frame removes the code by a write of its own. -/
theorem KeepsCode.sstore (h : d.KeepsCode a) (hok : (invoke d.system n frame s).ok = true)
    (hmem : .sstore before after ∈ (invoke d.system n frame s).body)
    : d.codeFlag a before.storage ≤ d.codeFlag a after.storage := by
  by_cases hself : frame.self = d.entryPoint
  . obtain ⟨m, _, s1, t, _, hrun, hbody⟩ := invoke_entryPoint_ok hself hok
    rw [hbody] at hmem
    have hstore := (List.mem_cons.mp hmem).resolve_left fun h => by cases h
    obtain ⟨f, _, hafter⟩ := hrun.sstores (Prog.Does.any _) hstore
    rw [hafter]
    apply Nat.le_refl
  by_cases hcreator : frame.self = d.cfg.senderCreator
  . obtain ⟨_, _, _, _, _, _, _, _, _, hbody, _⟩ := invoke_senderCreator hcreator hok
    rw [hbody] at hmem
    simp at hmem
  obtain ⟨m, _, ledger, _, ⟨_, _, hbody⟩ | ⟨program, t, hprogram, hrun, hbody⟩⟩ := invoke_ok _ hok
  . rw [hbody] at hmem
    simp at hmem
  have hcode : d.codeAt s.world.storage frame.self = some program := hprogram
  unfold codeAt at hcode
  rw [if_neg hself] at hcode
  rw [if_neg hcreator] at hcode
  obtain ⟨program', hprogram', rfl⟩ := Option.map_eq_some_iff.mp hcode
  have hrun : Evm.Returns d.system (invoke d.system m) frame Chain.restPart (program' frame)
      { s with world := { s.world with ledger := ledger } } _ _ t := hrun
  rw [hbody] at hmem
  have hstore := (List.mem_cons.mp hmem).resolve_left fun h => by cases h
  obtain ⟨f, hf, hafter⟩ := hrun.sstores (h.code _ _ _ frame hprogram') hstore
  rw [hafter]
  unfold codeFlag
  split
  . apply Nat.zero_le
  . next hbefore =>
    have hstays : d.codeLength (before.write Chain.restPart f).storage.rest a ≠ 0 := hf _ hbefore
    rw [if_neg hstays]

theorem KeepsCode.kept (h : d.KeepsCode a) (hok : (invoke d.system n frame s).ok = true)
    (hmem : .sstore before after ∈ (invoke d.system n frame s).body
      ∨ ∃ body, .delegate before after body ∈ (invoke d.system n frame s).body)
    : d.codeFlag a before.storage ≤ d.codeFlag a after.storage := by
  rcases hmem with hmem | ⟨body, hmem⟩
  . apply h.sstore hok hmem
  . rw [(invoke_delegate hok hmem).1]

/-! ## Bundles -/

/-- Behind the closed guard no bundle succeeds. -/
theorem closed_handlesOps (hguard : d.cfg.Guarded) {callee : Frame Message} {ret : ReturnData}
    {body : Chain.Trace X} (hclosed : entered s.world = true)
    (h : Committed (.call callee before after true ret body) [callEvent d.system n frame s])
    : ¬d.HandlesOps callee := by
  intro hbundle
  rcases of_committed_callEvent d.system h with heq | ⟨_, hinside⟩
  . injection heq with hcallee _ _ hok
    rw [hcallee] at hbundle
    rw [hbundle.refused hguard hclosed] at hok
    cases hok
  . obtain ⟨_, m, _, s1, s2, hinvoke, _⟩ := invoke_within d.system hinside.within
    obtain ⟨_, _, ledger, _, hstarted⟩ := invoke_ok d.system (n := m) (s := s1) (by rw [hinvoke])
    have henter : .enter { s1.world with ledger := ledger } ∈ body := by
      rw [hinvoke] at hstarted
      rcases hstarted with ⟨_, _, hbody⟩ | ⟨_, _, _, _, hbody⟩
      . rw [show body = _ from hbody]
        apply List.mem_cons_self
      . rw [show body = _ from hbody]
        apply List.mem_cons_self
    have hvisited := (returning hguard n frame s).2 hclosed _
      (Outside.of_within hinside.within (.enter henter))
    have hrefused := hbundle.refused (n := m) (s := s1) hguard hvisited
    rw [hinvoke] at hrefused
    cases hrefused

theorem created_of_not_handlesOps (hbundle : ¬d.HandlesOps frame) (hok : (invoke d.system n frame s).ok = true)
    : d.created frame (invoke d.system n frame s).body = 0 := by
  rw [invoke_creations hok]
  by_cases hself : frame.self = d.entryPoint
  . rw [opsOf_of_none]
    . rfl
    . apply Option.not_isSome_iff_eq_none.mp
      intro hsome
      apply hbundle ⟨hself, hsome⟩
  . rw [opsOf_other hself]
    rfl

/-- What a bundle calls creates no accounts that the entry point would tell about. -/
theorem HandlesOps.total_created (hguard : d.cfg.Guarded) (h : d.HandlesOps frame)
    : total d.created (invoke d.system n frame s).body = 0 := by
  rw [← total_zero (A := Multiset Creation) (invoke d.system n frame s).body]
  apply total_congr_committed
  intro callee before after ret body hcommitted
  obtain ⟨e, he, hinside⟩ : ∃ e ∈ (invoke d.system n frame s).body,
      Committed (.call callee before after true ret body) [e] := by
    cases hcommitted with
    | here he => exact ⟨_, he, .here (List.mem_singleton_self _)⟩
    | inside he hinside => exact ⟨_, he, .inside (List.mem_singleton_self _) hinside⟩
  obtain ⟨callee1, before1, after1, ok1, ret1, body1, rfl⟩ : ∃ callee1 before1 after1 ok1 ret1 body1,
      e = .call callee1 before1 after1 ok1 ret1 body1 := by
    cases e with
    | call callee1 before1 after1 ok1 ret1 body1 => exact ⟨_, _, _, _, _, _, rfl⟩
    | _ => cases hinside <;> simp_all
  have hclosed := h.calls hguard he
  obtain ⟨_, _, m, _, s1, s2, hinvoke, hworld1, hworld2⟩ := invoke_call d.system he
  rw [← hworld1] at hclosed
  have hevent : callEvent d.system m callee1 s1 = .call callee1 before1 after1 ok1 ret1 body1 := by
    unfold callEvent
    rw [hinvoke]
    rw [hworld1]
    rw [← hworld2]
  rw [← hevent] at hinside
  obtain ⟨_, k, s3, hok, _, _, _, rfl⟩ := hinside.invoked d.system
  apply created_of_not_handlesOps
  . apply closed_handlesOps hguard hclosed hinside
  . apply hok

/-! ## Runs -/

/-- How many of the accounts that a frame tells about are at the address. -/
def createdAt (d : Deployment X) (a : Address) (frame : Frame Message) (body : Chain.Trace X) : Nat :=
  (d.created frame body).countP fun c => c.sender = a

theorem total_createdAt (t : Chain.Trace X)
    : total (d.createdAt a) t = (total d.created t).countP fun c => c.sender = a := by
  refine total.induct
    (fun e => e.total (d.createdAt a) = (e.total d.created).countP fun c => c.sender = a)
    (fun t => total (d.createdAt a) t = (total d.created t).countP fun c => c.sender = a) ?_ ?_ ?_ ?_ t
  . intro callee before after data body ih
    change d.createdAt a callee body + total (d.createdAt a) body
      = (d.created callee body + total d.created body).countP _
    rw [Multiset.countP_add]
    rw [ih]
    rfl
  . intro e hcall
    rw [Event.total.eq_2 _ _ hcall]
    rw [Event.total.eq_2 _ _ hcall]
    rfl
  . rfl
  . intro e t ihe iht
    change e.total (d.createdAt a) + total (d.createdAt a) t = (e.total d.created + total d.created t).countP _
    rw [Multiset.countP_add]
    rw [ihe]
    rw [iht]

/-- A transaction creates the account at most once, and only if it has no code yet. -/
theorem happens_createdAt (hguard : d.cfg.Guarded) (hkeeps : d.KeepsCode a) (depth : Nat)
    (tx : Transaction Message) (w : World (Chain X))
    : total (d.createdAt a) (d.happens depth tx w) + d.codeFlag a w.storage
        ≤ d.codeFlag a (execute d.system depth tx w).state.world.storage := by
  have hstart : d.codeFlag a w.storage ≤ d.codeFlag a (d.system.clearTransient w.storage) := by
    unfold codeFlag
    split
    . apply Nat.zero_le
    . next hcode =>
      have hstays : d.codeLength (d.system.clearTransient w.storage).rest a ≠ 0 := hkeeps.transient _ hcode
      rw [if_neg hstays]
  apply Nat.le_trans (Nat.add_le_add_left hstart _)
  apply callEvent_total_le d.system (d.codeFlag a) d.HandlesOps
  . intro n frame s before after hok hmem
    apply hkeeps.kept hok hmem
  . intro n frame s hbundle hok
    unfold createdAt
    rw [created_of_not_handlesOps hbundle hok]
    rfl
  . intro n frame s hbundle hok
    constructor
    . unfold createdAt
      rw [invoke_creations hok]
      apply creationsOf_le_rise hbundle.1 hok
    . rw [total_createdAt]
      rw [hbundle.total_created hguard]
      rfl

theorem Journal.createdAt_le (hguard : d.cfg.Guarded) (hkeeps : d.KeepsCode a) (h : d.Journal t w)
    : total (d.createdAt a) t ≤ d.codeFlag a w.storage := by
  induction h with
  | genesis => apply Nat.zero_le
  | @transaction t w depth tx _ _ ih =>
    have hlast := happens_createdAt hguard hkeeps depth tx w
    rw [total_append]
    omega
  | block _ _ _ ih => apply ih

theorem Journal.created_eq (h : d.Journal t w)
    : total d.created t
        = total (fun frame _ => (↑((d.opsOf frame).filterMap (creationOf d.cfg)) : Multiset Creation)) t := by
  induction h with
  | genesis => rfl
  | transaction depth tx _ _ ih =>
    rw [total_append]
    rw [total_append]
    rw [ih]
    rw [total_created]
  | block _ _ _ ih => apply ih

/-- In every run from the start, the accounts that the entry point tells about are, as a multiset, those
that the operations in the bundles that have not reverted were to create, with their hashes, factories and
paymasters. None of them is told about twice, unless its code has been removed, and it has code in the end. -/
theorem accounts_created_once (hguard : d.cfg.Guarded) (h : d.Journal t w)
    : total d.created t = ↑((d.carriedOut t).filterMap (creationOf d.cfg))
      ∧ ∀ a, d.KeepsCode a →
        ((total d.created t).countP fun c => c.sender = a) ≤ if d.Deployed w a then 1 else 0 := by
  constructor
  . rw [h.created_eq]
    rw [total_frames]
    unfold carriedOut
    induction frames t with
    | nil => rfl
    | cons frame fs ih =>
      rw [List.map_cons]
      rw [List.sum_cons]
      rw [ih]
      rw [List.flatMap_cons]
      rw [List.filterMap_append]
      rfl
  . intro a hkeeps
    have hle := h.createdAt_le hguard hkeeps
    rw [total_createdAt] at hle
    rw [codeFlag_eq] at hle
    apply hle

theorem factorySample_keepsCode : factorySample.KeepsCode 7 where
  code := by
    intro x target program msg hcode
    have hprogram : program = deploying := by
      unfold factorySample at hcode
      dsimp only at hcode
      split at hcode
      . cases hcode
        rfl
      . cases hcode
    rw [hprogram]
    unfold deploying
    split
    . apply Prog.Does.ret
    . apply Prog.Does.bind
      . apply Prog.Does.op
        intro x _
        apply Nat.one_ne_zero
      . intro _
        apply Prog.Does.ret
  transient _ h := h

theorem accounts_created_once_creatingOp
    : total factorySample.created (factorySample.happens 2 prepayTx undeployedWorld
          ++ factorySample.happens 5 (bundleTx (.handleOps [creatingOp] 5)) prepaidWorld)
        = {⟨getUserOpHash factorySample.cfg creatingOp, 7, 8, 0⟩}
      ∧ ((total factorySample.created (factorySample.happens 2 prepayTx undeployedWorld
          ++ factorySample.happens 5 (bundleTx (.handleOps [creatingOp] 5)) prepaidWorld)).countP
            fun c => c.sender = 7) ≤ 1 := by
  have hprepaid : factorySample.Journal (factorySample.happens 2 prepayTx undeployedWorld) prepaidWorld :=
    .transaction 2 prepayTx (.genesis sampleLedger false) (by decide)
  have hrun := Journal.transaction 5 (bundleTx (.handleOps [creatingOp] 5)) hprepaid (by decide)
  have hops : factorySample.carriedOut (factorySample.happens 2 prepayTx undeployedWorld
      ++ factorySample.happens 5 (bundleTx (.handleOps [creatingOp] 5)) prepaidWorld) = [creatingOp] := by
    decide +kernel
  obtain ⟨hcreated, honce⟩ := accounts_created_once openZeppelin_guarded hrun
  rw [hops] at hcreated
  constructor
  . rw [hcreated]
    rfl
  . apply Nat.le_trans (honce 7 factorySample_keepsCode)
    split
    . apply Nat.le_refl
    . apply Nat.zero_le

end Deployment
