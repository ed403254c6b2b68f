import FalconSmartAccount.EntryPoint.Unrolled
import FalconSmartAccount.EntryPoint.Stake

/-!
The balance sheet of a deposit: what has been received for an account is what is left of its deposit,
what it has withdrawn, and what operations have cost it.
-/

open Evm

namespace Deployment

open EntryPoint

variable {X : Type}

/-! ## What the world gets to see -/

def withdrawnLog (account : Address) : Log → Nat
  | .withdrawn account' _ amount => if account' = account then amount else 0
  | _ => 0

def chargedLog (account : Address) : Log → Nat
  | .userOperationEvent _ sender paymaster _ _ actualGasCost _ =>
    if (if paymaster = 0 then sender else paymaster) = account then actualGasCost else 0
  | _ => 0

def logged (f : Log → Nat) : Event (Chain X) Message ReturnData Log → Nat
  | .log l => f l
  | _ => 0

section

variable (d : Deployment X) (account : Address)

/-- The sum of what a frame of the entry point says in its logs. -/
def said (f : Log → Nat) (frame : Frame Message) (body : Chain.Trace X) : Nat :=
  if frame.self = d.entryPoint then (body.map (logged f)).sum else 0

/-- What the account has withdrawn, by the logs. -/
def withdrawn : Frame Message → Chain.Trace X → Nat := d.said (withdrawnLog account)

/-- The cost of the operations that the account has paid for, by the logs. -/
def charged : Frame Message → Chain.Trace X → Nat := d.said (chargedLog account)

/-- Whom a call deposits for. -/
def depositsFor (frame : Frame Message) : Option Address :=
  match decodeMessage d.cfg frame.message with
  | .depositTo account => some account
  | .receive => some frame.caller
  | _ => none

/-- What a frame brings in for the account. -/
def received (frame : Frame Message) (_ : Chain.Trace X) : Nat :=
  if frame.self = d.entryPoint ∧ d.depositsFor frame = some account then frame.value else 0

end

/-! ## The events of a frame -/

/-- What an event adds to the deposit, or accounts for outside of it. -/
def credited (account : Address) : Event (Chain X) Message ReturnData Log → Nat
  | .sstore before after => (infoOf after account).deposit - (infoOf before account).deposit
  | .log l => withdrawnLog account l + chargedLog account l
  | _ => 0

/-- What an event takes from the deposit. -/
def debited (account : Address) : Event (Chain X) Message ReturnData Log → Nat
  | .sstore before after => (infoOf before account).deposit - (infoOf after account).deposit
  | _ => 0

def credits (account : Address) (t : Chain.Trace X) : Nat := (t.map (credited account)).sum

def debits (account : Address) (t : Chain.Trace X) : Nat := (t.map (debited account)).sum

variable {d : Deployment X} {msg frame : Frame Message} {t t' : Chain.Trace X} {account : Address}
  {before after : World (Chain X)} {opInfo : UserOpInfo} {op : PackedUserOperation}

theorem credits_append : credits account (t ++ t') = credits account t + credits account t' := by
  unfold credits
  rw [List.map_append, List.sum_append]

theorem debits_append : debits account (t ++ t') = debits account t + debits account t' := by
  unfold debits
  rw [List.map_append, List.sum_append]

theorem credits_cons (e : Event (Chain X) Message ReturnData Log)
    : credits account (e :: t) = credited account e + credits account t :=
  rfl

theorem debits_cons (e : Event (Chain X) Message ReturnData Log)
    : debits account (e :: t) = debited account e + debits account t :=
  rfl

theorem credits_eq_zero (h : ∀ e ∈ t, credited account e = 0) : credits account t = 0 := by
  apply List.sum_eq_zero
  intro n hn
  obtain ⟨e, he, rfl⟩ := List.mem_map.mp hn
  exact h e he

theorem debits_eq_zero (h : ∀ e ∈ t, debited account e = 0) : debits account t = 0 := by
  apply List.sum_eq_zero
  intro n hn
  obtain ⟨e, he, rfl⟩ := List.mem_map.mp hn
  exact h e he

theorem credited_sstore
    : credited account (.sstore before after)
        = (infoOf after account).deposit - (infoOf before account).deposit :=
  rfl

theorem debited_sstore
    : debited account (.sstore before after)
        = (infoOf before account).deposit - (infoOf after account).deposit :=
  rfl

/-- The deposits after a write of one of them. -/
theorem deposit_setDeposit (a : Address) (n : Nat) (f : Books → Books)
    : (infoOf (before.write Chain.entryPointPart fun s => (s.setDeposit a n).note f) account).deposit
        = if account = a then n else (infoOf before account).deposit := by
  change (Function.update before.storage.entryPoint.deposits a _ account).deposit = _
  rw [Function.update_apply]
  split <;> rfl

theorem deposit_setInfo (a : Address) (info : Storage → DepositInfo)
    (hinfo : (info before.storage.entryPoint).deposit = (infoOf before a).deposit)
    : (infoOf (before.write Chain.entryPointPart fun s => s.setInfo a (info s)) account).deposit
        = (infoOf before account).deposit := by
  change (Function.update before.storage.entryPoint.deposits a _ account).deposit = _
  rw [Function.update_apply]
  split
  . next heq =>
    rw [heq]
    exact hinfo
  . rfl

/-- A write that leaves the deposits as they are. -/
theorem credited_debited_same {account : Address} {before after : World (Chain X)}
    (h : (infoOf after account).deposit = (infoOf before account).deposit)
    : credited account (.sstore before after) = 0 ∧ debited account (.sstore before after) = 0 := by
  rw [credited_sstore, debited_sstore, h, Nat.sub_self]
  exact ⟨rfl, rfl⟩

/-- The part of an amount that concerns the account. -/
def share (account payer : Address) (amount : Nat) : Nat := if payer = account then amount else 0

theorem taken {account : Address} {before after : World (Chain X)} {payer : Address} {amount : Nat} {f : Books → Books}
    (hle : amount ≤ (infoOf before payer).deposit)
    (h : after = before.write Chain.entryPointPart fun s =>
      (s.setDeposit payer ((infoOf before payer).deposit - amount)).note f)
    : credited account (.sstore before after) = 0
      ∧ debited account (.sstore before after) = share account payer amount := by
  rw [h, credited_sstore, debited_sstore, deposit_setDeposit]
  unfold share
  split
  . next heq =>
    rw [heq, if_pos rfl]
    exact ⟨Nat.sub_eq_zero_of_le (Nat.sub_le _ _), Nat.sub_sub_self hle⟩
  . next hne =>
    rw [if_neg (Ne.symm hne), Nat.sub_self]
    exact ⟨rfl, rfl⟩

theorem Locks.credited_debited {payer : Address} {prefund : Nat} (h : Locks payer prefund before after)
    : credited account (.sstore before after) = 0
      ∧ debited account (.sstore before after) = share account payer prefund :=
  taken h.1 h.2

theorem Accepts.credited_debited {sender : Address} {nonce : Word} (h : Accepts sender nonce before after)
    : credited account (.sstore before after) = 0 ∧ debited account (.sstore before after) = 0 := by
  apply credited_debited_same
  rw [h.2]
  rfl

theorem Guards.credited_debited (h : Guards before after)
    : credited account (.sstore before after) = 0 ∧ debited account (.sstore before after) = 0 := by
  obtain ⟨entered, rfl⟩ := h
  exact credited_debited_same rfl

theorem Pays.credited_debited {amount : Nat} (h : Pays amount before after)
    : credited account (.sstore before after) = 0 ∧ debited account (.sstore before after) = 0 := by
  cases h
  exact credited_debited_same rfl

theorem chargedLog_userOperationEvent {success : Bool} {cost actualGas : Nat}
    : chargedLog account (userOperationEvent opInfo success cost actualGas)
        = share account opInfo.mUserOp.payer cost :=
  rfl

/-- The prefund is given back or charged. -/
theorem Settled.credits_debits {success : Bool} {cost : Nat} (h : Settled opInfo success cost t)
    : credits account t = share account opInfo.mUserOp.payer opInfo.prefund ∧ debits account t = 0 := by
  cases h with
  | @credit _ _ actualGas before after h =>
    obtain ⟨hle, rfl⟩ := h
    rw [credits_cons, credits_cons, debits_cons, debits_cons]
    change _ - _ + (0 + chargedLog account (userOperationEvent opInfo success cost actualGas) + 0) = _
      ∧ _ - _ + 0 = 0
    rw [chargedLog_userOperationEvent, deposit_setDeposit]
    unfold share
    split
    . next heq =>
      rw [heq, if_pos rfl, if_pos rfl]
      change (infoOf before opInfo.mUserOp.payer).deposit + (opInfo.prefund - cost)
        - (infoOf before opInfo.mUserOp.payer).deposit + _ = _
          ∧ (infoOf before opInfo.mUserOp.payer).deposit
            - ((infoOf before opInfo.mUserOp.payer).deposit + (opInfo.prefund - cost)) + 0 = 0
      omega
    . next hne =>
      rw [if_neg (Ne.symm hne), if_neg (Ne.symm hne), Nat.sub_self]
      exact ⟨rfl, rfl⟩
  | @charge actualGas before after h =>
    cases h
    rw [credits_cons, credits_cons, credits_cons]
    obtain ⟨hcredited, hdebited⟩ := @credited_debited_same X account before
      (before.write Chain.entryPointPart fun s => s.note (Books.settle opInfo.prefund opInfo.prefund)) rfl
    refine ⟨?_, by rw [debits_cons, hdebited]; rfl⟩
    rw [hcredited]
    change 0 + (0 + 0 + (0 + chargedLog account (userOperationEvent opInfo false opInfo.prefund actualGas)
      + 0)) = _
    rw [chargedLog_userOperationEvent]
    omega

/-! ## Bundles -/

variable {inv : Frame Message → State (Chain X) → Reply (Chain X) Message ReturnData Log}
  {opInfos : List UserOpInfo} {ops : List PackedUserOperation} {cost : Nat}

/-- The part of all prefunds that concerns the account. -/
def shares (account : Address) (opInfos : List UserOpInfo) : Nat :=
  (opInfos.map fun opInfo => share account opInfo.mUserOp.payer opInfo.prefund).sum

theorem Validating.credited {mUserOp : MemoryUserOp} {e : Event (Chain X) Message ReturnData Log}
    (h : d.Validating msg op mUserOp e)
    : Deployment.credited account e = 0 := by
  cases h with
  | locks h => exact h.credited_debited.1
  | accepts h => exact h.credited_debited.1
  | _ => rfl

/-- The validation of an operation takes its prefund. -/
theorem Prepayment.debits {validationData pmValidationData : Nat}
    (h : Prepayment d msg op opInfo validationData pmValidationData t)
    : Deployment.debits account t = share account opInfo.mUserOp.payer opInfo.prefund := by
  have hcreated {tc : Chain.Trace X} (h : SenderCreated d msg op tc) : Deployment.debits account tc = 0 := by
    cases h <;> rfl
  cases h.trace with
  | bySender _ _ htc _ hlocks haccepts =>
    rw [debits_append, hcreated htc]
    simp only [debits_cons]
    rw [hlocks.credited_debited.2, haccepts.credited_debited.2]
    change 0 + (0 + (_ + (0 + 0))) = _
    omega
  | byPaymaster _ htc _ haccepts hlocks =>
    rw [debits_append, hcreated htc]
    simp only [debits_cons]
    rw [hlocks.credited_debited.2, haccepts.credited_debited.2]
    change 0 + (0 + (0 + (_ + (0 + 0)))) = _
    omega

theorem ValidationRuns.balance {aops : List (Address × PackedUserOperation)}
    (h : ValidationRuns d msg inv aops opInfos t)
    : credits account t = 0 ∧ debits account t = shares account opInfos := by
  induction h with
  | nil => exact ⟨rfl, rfl⟩
  | @cons _ _ _ _ _ _ _ _ _ _ _ t t' h1 _ _ _ ih =>
    have hop := validatePrepayment_returns h1
    have hcredits : credits account t = 0 := credits_eq_zero fun e he => (hop.events e he).credited
    rw [credits_append, debits_append, hcredits, ih.1, ih.2, hop.debits]
    exact ⟨rfl, rfl⟩

theorem AccountCall.balance {callData : CallData} {success : Bool}
    (h : AccountCall msg callData opInfo success t)
    : credits account t = 0 ∧ debits account t = 0 := by
  cases h <;> exact ⟨rfl, rfl⟩

theorem PostOpCall.balance (h : PostOpCall msg opInfo t)
    : credits account t = 0 ∧ debits account t = 0 := by
  cases h <;> exact ⟨rfl, rfl⟩

/-- Who paid the prefund gets it back or is charged, in the inner call or after it. -/
theorem Settlement.balance (account : Address) (hself : msg.self = d.entryPoint) (h : Settlement msg op opInfo cost t)
    : credits account (t.flatMap d.unrolled) = share account opInfo.mUserOp.payer opInfo.prefund
      ∧ debits account (t.flatMap d.unrolled) = 0 := by
  cases h with
  | @inner success cost w before after ta tp ts hcall hpost hsettled =>
    rw [List.flatMap_singleton, unrolled_of_some (innerCall_innerHandleOpFrame hself)]
    rw [credits_cons, debits_cons, credits_append, debits_append, credits_append, debits_append]
    rw [hcall.balance.1, hcall.balance.2, hpost.balance.1, hpost.balance.2]
    rw [hsettled.credits_debits.1, hsettled.credits_debits.2]
    change 0 + (0 + 0 + _) = _ ∧ _
    exact ⟨by omega, rfl⟩
  | lowPrefund hsettled =>
    rw [flatMap_unrolled (by rw [innerCalls_cons, hsettled.innerCalls]; rfl), credits_cons, debits_cons]
    rw [hsettled.credits_debits.1, hsettled.credits_debits.2]
    exact ⟨Nat.zero_add _, rfl⟩
  | postOpReverted hsettled =>
    rw [flatMap_unrolled (by rw [innerCalls_cons, innerCalls_cons, hsettled.innerCalls]; rfl)]
    rw [credits_cons, debits_cons, credits_cons, debits_cons]
    rw [hsettled.credits_debits.1, hsettled.credits_debits.2]
    change 0 + (0 + 0 + _) = _ ∧ _
    exact ⟨by omega, rfl⟩

theorem Executions.balance {costs : List Nat} (account : Address) (hself : msg.self = d.entryPoint)
    (h : Executions msg ops opInfos costs t)
    : credits account (t.flatMap d.unrolled) = shares account opInfos
      ∧ debits account (t.flatMap d.unrolled) = 0 := by
  induction h with
  | nil => exact ⟨rfl, rfl⟩
  | changed _ ih =>
    obtain ⟨hcredits, hdebits⟩ := ih
    rw [List.flatMap_cons, credits_append, debits_append, hcredits, hdebits]
    exact ⟨Nat.zero_add _, rfl⟩
  | cons hop _ ih =>
    obtain ⟨hcredits, hdebits⟩ := ih
    obtain ⟨hcredits', hdebits'⟩ := hop.balance account hself
    rw [List.flatMap_append, credits_append, debits_append, hcredits, hdebits, hcredits', hdebits']
    exact ⟨rfl, rfl⟩

theorem SignatureChecks.balance {opas : List UserOpsPerAggregator} (h : SignatureChecks msg opas t)
    : credits account t = 0 ∧ debits account t = 0 :=
  ⟨credits_eq_zero (h.forall_mem fun _ _ _ _ _ _ => rfl),
    debits_eq_zero (h.forall_mem fun _ _ _ _ _ _ => rfl)⟩

/-- A bundle gives back or charges all the prefunds that it takes. -/
theorem BundleRuns.balance {m : Nat} {opas : List UserOpsPerAggregator} {beneficiary : Address}
    {costs : List Nat} (hself : msg.self = d.entryPoint)
    (h : BundleRuns d msg (invoke d.system m) opas beneficiary opInfos costs t)
    : credits account (t.flatMap d.unrolled) = debits account (t.flatMap d.unrolled) := by
  obtain ⟨before0, after0, ts, tv, te, amount, before1, after1, before2, after2, ret, body, before3, after3,
    hguard, hchecks, hvalidations, hexecutions, hpays, hguard', ht⟩ := h.unrolled hself
  obtain ⟨hcredits, hdebits⟩ := hexecutions.balance account hself
  rw [ht]
  simp only [credits_append, debits_append, credits_cons, debits_cons]
  rw [hcredits, hdebits, hchecks.balance.1, hchecks.balance.2, hvalidations.balance.1, hvalidations.balance.2]
  rw [hguard.credited_debited.1, hguard.credited_debited.2, hpays.credited_debited.1,
    hpays.credited_debited.2, hguard'.credited_debited.1, hguard'.credited_debited.2]
  change 0 + (0 + 0 + 0) + _ + 0 = 0 + (0 + _ + 0) + 0 + 0
  omega

/-! ## Calls of the entry point -/

theorem received_of_none {body : Chain.Trace X} (h : d.depositsFor msg = none)
    : d.received account msg body = 0 := by
  unfold received
  rw [h]
  exact if_neg fun h => nomatch h.2

/-- A call that is no bundle adds to the deposit what it brings in, and takes from it what it sends to
its owner. -/
theorem Effect.balance {message : Message} {body : Chain.Trace X} (hself : msg.self = d.entryPoint)
    (hmessage : decodeMessage d.cfg msg.message = message) (hbundle : bundleOf message = none)
    (hinner : ∀ callData opInfo context, message ≠ .innerHandleOp callData opInfo context)
    (h : Effect d msg message t)
    : credits account t = debits account t + d.received account msg body := by
  cases h with
  | @deposit message receiver before hreceived =>
    have hfor : d.depositsFor msg = some receiver := by
      unfold depositsFor
      rcases hreceived with rfl | ⟨rfl, rfl⟩ <;> rw [hmessage]
    rw [credits_cons, debits_cons, credited_sstore, debited_sstore, deposit_setDeposit]
    unfold received
    rw [hfor]
    change _ + 0 = _ + 0 + _
    split
    . next heq =>
      rw [heq, if_pos ⟨hself, rfl⟩]
      omega
    . next hne =>
      rw [if_neg fun h => hne (Option.some.inj h.2).symm]
  | addStake | unlockStake =>
    rw [received_of_none (by unfold depositsFor; rw [hmessage]), credits_cons, debits_cons, credited_sstore,
      debited_sstore, deposit_setInfo _ _ rfl, Nat.sub_self]
    rfl
  | withdrawStake =>
    rw [received_of_none (by unfold depositsFor; rw [hmessage]), credits_cons, debits_cons, credited_sstore,
      debited_sstore, deposit_setInfo _ _ rfl, Nat.sub_self]
    rfl
  | @withdrawTo withdrawAddress withdrawAmount before before1 after1 ret body' hle =>
    obtain ⟨hcredited, hdebited⟩ := @taken X account before
      (before.write Chain.entryPointPart fun s =>
        s.setDeposit msg.caller ((infoOf before msg.caller).deposit - withdrawAmount)) _ _ id hle rfl
    rw [received_of_none (by unfold depositsFor; rw [hmessage]), credits_cons, debits_cons]
    change credited account (.sstore before _) + (share account msg.caller withdrawAmount + 0 + (0 + 0))
      = debited account (.sstore before _) + 0 + 0
    rw [hcredited, hdebited]
    omega
  | @incrementNonce key before =>
    obtain ⟨hcredited, hdebited⟩ := @credited_debited_same X account before
      (before.write Chain.entryPointPart fun s => s.setNonce msg.caller key
        (before.storage.entryPoint.nonceSequenceNumber msg.caller key + 1)) rfl
    rw [received_of_none (by unfold depositsFor; rw [hmessage]), credits_cons, debits_cons, hcredited,
      hdebited]
    rfl
  | view =>
    rw [received_of_none (by unfold depositsFor; rw [hmessage])]
    rfl
  | bundle hopas => rw [hopas] at hbundle; cases hbundle
  | inner => exact absurd rfl (hinner _ _ _)

/-! ## Frames -/

/-- What the writes of a frame add to the deposit. -/
def gains (account : Address) (frame : Frame Message) (body : Chain.Trace X) : Nat :=
  ((ownWrites frame body body).map fun v => credited account (.sstore v.before v.after)).sum

/-- What they take from it. -/
def losses (account : Address) (frame : Frame Message) (body : Chain.Trace X) : Nat :=
  ((ownWrites frame body body).map fun v => debited account (.sstore v.before v.after)).sum

section

variable (d : Deployment X) (account : Address)

/-- What a frame adds to the deposit, or accounts for outside of it. -/
def creditSide (frame : Frame Message) (body : Chain.Trace X) : Nat :=
  gains account frame body + (d.withdrawn account frame body + d.charged account frame body)

/-- What a frame takes from the deposit, or brings in for it. -/
def debitSide (frame : Frame Message) (body : Chain.Trace X) : Nat :=
  losses account frame body + d.received account frame body

end

theorem sum_ownWrites (f : Event (Chain X) Message ReturnData Log → Nat) (whole : Chain.Trace X)
    : ((ownWrites frame whole t).map fun v => f (.sstore v.before v.after)).sum
        = (t.map fun e => match e with | .sstore _ _ => f e | _ => 0).sum := by
  induction t with
  | nil => rfl
  | cons e t ih =>
    rw [List.map_cons, List.sum_cons, ← ih]
    cases e with
    | sstore before after => rfl
    | _ => exact (Nat.zero_add _).symm

theorem creditSide_eq {body : Chain.Trace X} (hself : frame.self = d.entryPoint)
    : d.creditSide account frame body = credits account body := by
  unfold creditSide gains withdrawn charged said
  rw [if_pos hself, if_pos hself, sum_ownWrites (credited account)]
  unfold credits
  rw [← List.sum_map_add, ← List.sum_map_add]
  congr 2
  funext e
  cases e with
  | sstore before after => rfl
  | log l => exact Nat.zero_add _
  | _ => rfl

theorem debitSide_eq {body : Chain.Trace X}
    : d.debitSide account frame body = debits account body + d.received account frame body := by
  unfold debitSide losses
  rw [sum_ownWrites (debited account)]
  unfold debits
  congr 3
  funext e
  cases e <;> rfl

theorem answered_creditSide
    : credits account t + answered d.Inner (d.creditSide account) t
        = credits account (t.flatMap d.unrolled) :=
  sum_unrolled (fun _ _ _ _ _ _ => rfl) fun _ _ hinner => creditSide_eq hinner.1

theorem answered_debitSide
    : debits account t + answered d.Inner (d.debitSide account) t
        = debits account (t.flatMap d.unrolled) := by
  refine sum_unrolled (fun _ _ _ _ _ _ => rfl) fun callee body hinner => ?_
  obtain ⟨callData, opInfo, context, hmessage⟩ := isInnerHandleOp_eq hinner.2
  rw [debitSide_eq, received_of_none (by unfold depositsFor; rw [hmessage])]
  rfl

/-- Other contracts do not change a deposit. -/
theorem invoke_other_balance {n : Nat} {s : State (Chain X)} (account : Address) (hself : frame.self ≠ d.entryPoint)
    (hok : (invoke d.system n frame s).ok = true)
    : d.creditSide account frame (invoke d.system n frame s).body = 0
      ∧ d.debitSide account frame (invoke d.system n frame s).body = 0 := by
  have hwrites (f : Event (Chain X) Message ReturnData Log → Nat)
      (hf : ∀ before after, (infoOf after account).deposit = (infoOf before account).deposit →
        f (.sstore before after) = 0)
      : ((ownWrites frame (invoke d.system n frame s).body (invoke d.system n frame s).body).map
          fun v => f (.sstore v.before v.after)).sum = 0 := by
    rw [sum_ownWrites f]
    apply List.sum_eq_zero
    intro k hk
    obtain ⟨e, he, rfl⟩ := List.mem_map.mp hk
    cases e with
    | sstore before after =>
      apply hf
      unfold infoOf
      rw [invoke_other_sstore hself hok he]
    | _ => rfl
  constructor
  . unfold creditSide gains withdrawn charged said
    rw [hwrites _ fun _ _ h => (credited_debited_same h).1, if_neg hself, if_neg hself]
  . unfold debitSide losses received
    rw [hwrites _ fun _ _ h => (credited_debited_same h).2, if_neg fun h => hself h.1]

/-- The books of a frame that nobody else answers for are balanced. -/
theorem invoke_balance {n : Nat} {s : State (Chain X)} (hvetted : Vetted d frame) (hinner : ¬d.Inner frame)
    (hok : (invoke d.system n frame s).ok = true)
    : d.creditSide account frame (invoke d.system n frame s).body
          + answered d.Inner (d.creditSide account) (invoke d.system n frame s).body
        = d.debitSide account frame (invoke d.system n frame s).body
          + answered d.Inner (d.debitSide account) (invoke d.system n frame s).body := by
  by_cases hself : frame.self = d.entryPoint
  . obtain ⟨w, t, _, hbody, heffect⟩ := invoke_effect hself hok
    have henter (f : Chain.Trace X → Nat) (hf : f = credits account ∨ f = debits account)
        : f ((invoke d.system n frame s).body.flatMap d.unrolled) = f (t.flatMap d.unrolled) := by
      rw [hbody, List.flatMap_cons]
      rcases hf with rfl | rfl
      . rw [credits_append]
        exact Nat.zero_add _
      . rw [debits_append]
        exact Nat.zero_add _
    rw [creditSide_eq hself, debitSide_eq, answered_creditSide, henter _ (.inl rfl), Nat.add_right_comm,
      answered_debitSide, henter _ (.inr rfl)]
    cases hopas : bundleOf (decodeMessage d.cfg frame.message) with
    | some bundle =>
      obtain ⟨m, w', opInfos, costs, t', hbody', hruns⟩ := invoke_bundleRuns hself hopas hok
      obtain ⟨_, rfl⟩ := List.cons.inj (hbody.symm.trans hbody')
      rw [hruns.balance hself, received_of_none]
      . rfl
      . unfold depositsFor
        cases hmessage : decodeMessage d.cfg frame.message with
        | depositTo | receive =>
          rw [hmessage] at hopas
          cases hopas
        | _ => rfl
    | none =>
      have hnot : ∀ callData opInfo context,
          decodeMessage d.cfg frame.message ≠ .innerHandleOp callData opInfo context :=
        fun _ _ _ h => hinner ⟨hself, by rw [h]; rfl⟩
      have hnil : d.innerCalls t = [] := by
        rcases heffect.innerCalls rfl hself hvetted with hnil | ⟨_, _, _, _, _, hsome, _⟩
        . exact hnil
        . rw [hopas] at hsome
          cases hsome
      rw [flatMap_unrolled hnil]
      exact heffect.balance hself rfl hopas hnot
  . obtain ⟨hcredit, hdebit⟩ := invoke_other_balance account hself hok
    rw [hcredit, hdebit, answered_other hself, answered_other hself]

/-! ## Transactions -/

theorem total_sides {depth : Nat} {tx : Transaction Message} {w : World (Chain X)}
    (htx : tx.origin ≠ d.entryPoint) (account : Address)
    : total (d.creditSide account) (d.happens depth tx w)
        = total (d.debitSide account) (d.happens depth tx w) :=
  callEvent_total d.system (fun _ _ _ _ _ _ _ _ hvetted hok hcall => inner_step hvetted hok hcall)
    (fun _ _ _ hvetted hinner hok => invoke_balance hvetted hinner hok)
    (fun hcaller => absurd hcaller htx) fun hok hinner => htx (hinner.caller hok)

/-- The writes make up the change of a deposit. -/
theorem deposit_add_debits {part part' : Address → DepositInfo}
    {ws : List (Write (Chain X) Message ReturnData Log)} (h : Chained depositsPart part ws part')
    (account : Address)
    : (part' account).deposit + (ws.map fun v => debited account (.sstore v.before v.after)).sum
        = (part account).deposit + (ws.map fun v => credited account (.sstore v.before v.after)).sum := by
  induction h with
  | nil => rfl
  | @cons v part' ws _ ih =>
    change (part' account).deposit + _ = (infoOf v.after account).deposit + _ at ih
    change _ = (infoOf v.before account).deposit + _
    rw [List.map_cons, List.map_cons, List.sum_cons, List.sum_cons, credited_sstore, debited_sstore]
    omega

/-- What a transaction brings in for an account is added to its deposit, and what it takes from it is
withdrawn by the account or paid for operations. -/
theorem execute_balance (depth : Nat) {tx : Transaction Message} {w : World (Chain X)}
    (htx : tx.origin ≠ d.entryPoint) (account : Address)
    : (infoOf (execute d.system depth tx w).state.world account).deposit
          + total (d.withdrawn account) (d.happens depth tx w)
          + total (d.charged account) (d.happens depth tx w)
        = (infoOf w account).deposit + total (d.received account) (d.happens depth tx w) := by
  have hwrites := deposit_add_debits (committedWrites_chained (d := d) depositsPart depth tx (w := w) rfl) account
  have hcredits := sum_writes (fun v => credited account (.sstore v.before v.after)) tx.frame []
    (d.happens depth tx w)
  have hdebits := sum_writes (fun v => debited account (.sstore v.before v.after)) tx.frame []
    (d.happens depth tx w)
  have hsides : total (gains account) (d.happens depth tx w)
        + (total (d.withdrawn account) (d.happens depth tx w) + total (d.charged account) (d.happens depth tx w))
      = total (losses account) (d.happens depth tx w) + total (d.received account) (d.happens depth tx w) := by
    rw [← total_add, ← total_add, ← total_add]
    exact total_sides htx account
  change _ + (List.map _ (d.committedWrites depth tx w)).sum
    = _ + (List.map _ (d.committedWrites depth tx w)).sum at hwrites
  change (List.map _ (d.committedWrites depth tx w)).sum = 0 + total (gains account) _ at hcredits
  change (List.map _ (d.committedWrites depth tx w)).sum = 0 + total (losses account) _ at hdebits
  change (infoOf _ account).deposit + _ = (infoOf _ account).deposit + _ at hwrites
  omega

/-! ## Runs -/

/-- A run from the start: all that its transactions have done, and the world that it leads to. -/
inductive Journal (d : Deployment X) : Chain.Trace X → World (Chain X) → Prop where
  | genesis (ledger : Ledger) (rest : X) : Journal d [] ⟨ledger, ⟨genesis, rest⟩⟩
  | transaction {t w} (depth : Nat) (tx : Transaction Message) :
      Journal d t w → tx.origin ≠ d.entryPoint →
      Journal d (t ++ d.happens depth tx w) (execute d.system depth tx w).state.world
  | block {t w} (ledger : Ledger) :
      Journal d t w → w.ledger.balance d.entryPoint ≤ ledger.balance d.entryPoint →
      Journal d t { w with ledger := ledger }

/-- At every point of every run, all that has been received for an account is what is left of its
deposit, what it has withdrawn, and what it has been charged for operations. -/
theorem balance_sheet {w : World (Chain X)} (h : d.Journal t w) (account : Address)
    : (infoOf w account).deposit + total (d.withdrawn account) t + total (d.charged account) t
        = total (d.received account) t := by
  induction h with
  | genesis => rfl
  | @transaction t w depth tx _ htx ih =>
    have hlast := @execute_balance X d depth tx w htx account
    rw [total_append, total_append, total_append]
    omega
  | block _ _ _ ih => exact ih

theorem balance_sheet_sampleOp
    : let t := sample.happens 2 depositTx sampleWorld
          ++ sample.happens 5 (bundleTx (.handleOps [sampleOp 3] 5)) fundedWorld
      (infoOf (execute sample.system 5 (bundleTx (.handleOps [sampleOp 3] 5)) fundedWorld).state.world 3).deposit
        + total (sample.withdrawn 3) t + total (sample.charged 3) t = 1000 := by
  intro t
  have hfunded : sample.Journal (sample.happens 2 depositTx sampleWorld) fundedWorld :=
    .transaction 2 depositTx (.genesis sampleLedger ()) (by decide)
  have hrun := Journal.transaction 5 (bundleTx (.handleOps [sampleOp 3] 5)) hfunded (by decide)
  have hreceived : total (sample.received 3) t = 1000 := by decide +kernel
  rw [← hreceived]
  exact balance_sheet hrun 3

end Deployment
