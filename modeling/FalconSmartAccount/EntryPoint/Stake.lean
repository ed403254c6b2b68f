import FalconSmartAccount.EntryPoint.InnerCalls
import FalconSmartAccount.Evm.Operations
import FalconSmartAccount.Evm.Writes

/-!
The stake of an account over time: what the writes of a run, one after the other, make of it.
-/

open Evm

/-- The states of a stake. -/
inductive StakeState where
  | empty
  | locked
  | unlocking

namespace StakeState

def Of : StakeState → DepositInfo → Prop
  | empty, info =>
    info.staked = false ∧ info.stake = 0 ∧ info.unstakeDelaySec = 0 ∧ info.withdrawTime = 0
  | locked, info =>
    info.staked = true ∧ 0 < info.stake ∧ 0 < info.unstakeDelaySec ∧ info.withdrawTime = 0
  | unlocking, info =>
    info.staked = false ∧ 0 < info.stake ∧ 0 < info.unstakeDelaySec ∧ 0 < info.withdrawTime

end StakeState

namespace DepositInfo

/-- Both records have the same stake, whatever their deposits are. -/
structure SameStake (info info' : DepositInfo) : Prop where
  staked : info'.staked = info.staked
  stake : info'.stake = info.stake
  unstakeDelaySec : info'.unstakeDelaySec = info.unstakeDelaySec
  withdrawTime : info'.withdrawTime = info.withdrawTime

theorem SameStake.of {info info' : DepositInfo} (h : SameStake info info') {state : StakeState}
    (hstate : state.Of info)
    : state.Of info' := by
  cases state <;> simp only [StakeState.Of] at hstate ⊢ <;>
    rw [h.staked, h.stake, h.unstakeDelaySec, h.withdrawTime] <;> exact hstate

end DepositInfo

/-- What a function of the entry point makes of the stake of its caller. -/
inductive StakeStep (msg : Frame Message) : Message → DepositInfo → DepositInfo → Prop where
  | add {unstakeDelaySec : BitVec 32} {info : DepositInfo} {deposit} :
      0 < unstakeDelaySec.toNat → info.unstakeDelaySec ≤ unstakeDelaySec.toNat → 0 < info.stake + msg.value →
      StakeStep msg (.addStake unstakeDelaySec) info
        ⟨deposit, true, info.stake + msg.value, unstakeDelaySec.toNat, 0⟩
  | unlock {info : DepositInfo} {deposit} :
      info.unstakeDelaySec ≠ 0 → info.staked = true →
      StakeStep msg .unlockStake info
        ⟨deposit, false, info.stake, info.unstakeDelaySec,
          msg.env.timestamp % 2 ^ 48 + info.unstakeDelaySec⟩
  | withdraw {withdrawAddress} {info : DepositInfo} {deposit} :
      0 < info.stake → 0 < info.withdrawTime → info.withdrawTime ≤ msg.env.timestamp →
      StakeStep msg (.withdrawStake withdrawAddress) info ⟨deposit, info.staked, 0, 0, 0⟩

namespace StakeStep

variable {msg : Frame Message} {message : Message} {info info' : DepositInfo}

theorem asks (h : StakeStep msg message info info')
    : (∃ unstakeDelaySec, message = .addStake unstakeDelaySec) ∨ message = .unlockStake
      ∨ ∃ withdrawAddress, message = .withdrawStake withdrawAddress := by
  cases h with
  | add => exact .inl ⟨_, rfl⟩
  | unlock => exact .inr (.inl rfl)
  | withdraw => exact .inr (.inr ⟨_, rfl⟩)

theorem state (h : StakeStep msg message info info') {state : StakeState} (hstate : state.Of info)
    : ∃ state' : StakeState, state'.Of info' := by
  cases h with
  | add hdelay _ hstake => exact ⟨.locked, rfl, hstake, hdelay, rfl⟩
  | unlock hdelay hstaked =>
    cases state with
    | locked =>
      obtain ⟨_, hstake, hdelay, _⟩ := hstate
      exact ⟨.unlocking, rfl, hstake, hdelay, Nat.lt_of_lt_of_le hdelay (Nat.le_add_left _ _)⟩
    | empty | unlocking => rw [hstate.1] at hstaked; cases hstaked
  | withdraw hstake htime _ =>
    cases state with
    | unlocking => exact ⟨.empty, hstate.1, rfl, rfl, rfl⟩
    | empty => rw [hstate.2.1] at hstake; cases hstake
    | locked => rw [hstate.2.2.2] at htime; cases htime

/-- Only a withdrawal lowers a stake or its delay. -/
theorem le (h : StakeStep msg message info info')
    (hmessage : ∀ withdrawAddress, message ≠ .withdrawStake withdrawAddress)
    : info.unstakeDelaySec ≤ info'.unstakeDelaySec ∧ info.stake ≤ info'.stake := by
  cases h with
  | add _ hdelay _ => exact ⟨hdelay, Nat.le_add_right _ _⟩
  | unlock _ _ => exact ⟨Nat.le_refl _, Nat.le_refl _⟩
  | withdraw => exact absurd rfl (hmessage _)

end StakeStep

namespace Deployment

open EntryPoint DepositInfo

variable {X : Type}

/-- The frame is a call of the entry point by `account`. -/
def Asks (d : Deployment X) (frame : Frame Message) (account : Address) (message : Message) : Prop :=
  frame.self = d.entryPoint ∧ frame.caller = account ∧ decodeMessage d.cfg frame.message = message

/-- The stakes stay as they are, but for what a function of the entry point makes of that of its
caller. -/
def StakeWrite (d : Deployment X) (frame : Frame Message) (before after : World (Chain X)) : Prop :=
  ∀ account, SameStake (infoOf before account) (infoOf after account)
      ∧ (∀ unstakeDelaySec, ¬d.Asks frame account (.addStake unstakeDelaySec))
    ∨ frame.self = d.entryPoint ∧ account = frame.caller
      ∧ StakeStep frame (decodeMessage d.cfg frame.message) (infoOf before account) (infoOf after account)

variable {d : Deployment X} {msg : Frame Message} {t : Chain.Trace X} {before after : World (Chain X)}

theorem StakeWrite.of_deposits {frame : Frame Message}
    (hadd : ∀ account unstakeDelaySec, ¬d.Asks frame account (.addStake unstakeDelaySec))
    (h : after.storage.entryPoint.deposits = before.storage.entryPoint.deposits)
    : StakeWrite d frame before after := by
  intro account
  refine .inl ⟨?_, hadd account⟩
  unfold infoOf
  rw [h]
  exact ⟨rfl, rfl, rfl, rfl⟩

/-- A write of a deposit. -/
theorem StakeWrite.setDeposit {frame : Frame Message} {account : Address} {deposit : Nat}
    {f : Books → Books}
    (hadd : ∀ account unstakeDelaySec, ¬d.Asks frame account (.addStake unstakeDelaySec))
    (h : after = before.write Chain.entryPointPart fun s => (s.setDeposit account deposit).note f)
    : StakeWrite d frame before after := by
  intro account'
  refine .inl ⟨?_, hadd account'⟩
  rw [h]
  have hinfo : infoOf (before.write Chain.entryPointPart fun s => (s.setDeposit account deposit).note f)
      account' = Function.update before.storage.entryPoint.deposits account
        { infoOf before account with deposit := deposit } account' := rfl
  rw [hinfo, Function.update_apply]
  split
  . next heq =>
    rw [heq]
    exact ⟨rfl, rfl, rfl, rfl⟩
  . exact ⟨rfl, rfl, rfl, rfl⟩

/-- A write of the stake of the caller. -/
theorem StakeWrite.setInfo {info : Storage → DepositInfo} (hself : msg.self = d.entryPoint)
    (h : StakeStep msg (decodeMessage d.cfg msg.message) (infoOf before msg.caller)
      (info before.storage.entryPoint))
    : StakeWrite d msg before
        (before.write Chain.entryPointPart fun s => s.setInfo msg.caller (info s)) := by
  intro account
  have hinfo : infoOf (before.write Chain.entryPointPart fun s => s.setInfo msg.caller (info s)) account
      = Function.update before.storage.entryPoint.deposits msg.caller (info before.storage.entryPoint)
          account := rfl
  rw [hinfo, Function.update_apply]
  split
  . next heq =>
    rw [heq]
    exact .inr ⟨hself, rfl, h⟩
  . next hne => exact .inl ⟨⟨rfl, rfl, rfl, rfl⟩, fun _ h => hne h.2.1.symm⟩

theorem Bundling.stakeWrite {opas : List UserOpsPerAggregator} {beneficiary : Address}
    {opInfos : List UserOpInfo} (h : Bundling d msg opas beneficiary opInfos t (.sstore before after))
    (hadd : ∀ account unstakeDelaySec, ¬d.Asks msg account (.addStake unstakeDelaySec))
    : StakeWrite d msg before after := by
  cases h with
  | guards h =>
    obtain ⟨entered, rfl⟩ := h
    exact .of_deposits hadd rfl
  | validating _ hop _ he =>
    cases hop.events _ he with
    | locks h => exact .setDeposit hadd h.2
    | accepts h =>
      rw [h.2]
      exact .of_deposits hadd rfl
  | credits h => exact .setDeposit hadd h.2
  | charges h =>
    cases h
    exact .of_deposits hadd rfl
  | pays h =>
    cases h
    exact .of_deposits hadd rfl

theorem Effect.stakeWrite (hself : msg.self = d.entryPoint)
    (h : Effect d msg (decodeMessage d.cfg msg.message) t) (hmem : .sstore before after ∈ t)
    : StakeWrite d msg before after := by
  generalize hmessage : decodeMessage d.cfg msg.message = message at h
  have hadd (hne : ∀ unstakeDelaySec, message ≠ .addStake unstakeDelaySec)
      : ∀ account unstakeDelaySec, ¬d.Asks msg account (.addStake unstakeDelaySec) := by
    rintro account unstakeDelaySec ⟨_, _, heq⟩
    exact hne unstakeDelaySec (hmessage.symm.trans heq)
  cases h with
  | deposit hreceived =>
    simp only [List.mem_cons, Event.sstore.injEq, reduceCtorEq, List.not_mem_nil, or_false] at hmem
    obtain ⟨rfl, rfl⟩ := hmem
    refine .setDeposit (hadd ?_) rfl
    rintro unstakeDelaySec rfl
    rcases hreceived with h | ⟨h, _⟩ <;> cases h
  | addStake hpos hdelay hstake =>
    simp only [List.mem_cons, Event.sstore.injEq, reduceCtorEq, List.not_mem_nil, or_false] at hmem
    obtain ⟨rfl, rfl⟩ := hmem
    apply StakeWrite.setInfo hself
    rw [hmessage]
    exact .add hpos hdelay hstake
  | unlockStake hdelay hstaked htime =>
    simp only [List.mem_cons, Event.sstore.injEq, reduceCtorEq, List.not_mem_nil, or_false] at hmem
    obtain ⟨rfl, rfl⟩ := hmem
    apply StakeWrite.setInfo hself
    rw [hmessage, htime]
    exact .unlock hdelay hstaked
  | withdrawStake hstake htime hdue =>
    simp only [List.mem_cons, Event.sstore.injEq, reduceCtorEq, List.not_mem_nil, or_false] at hmem
    obtain ⟨rfl, rfl⟩ := hmem
    apply StakeWrite.setInfo hself
    rw [hmessage]
    exact .withdraw hstake htime hdue
  | withdrawTo =>
    simp only [List.mem_cons, Event.sstore.injEq, reduceCtorEq, List.not_mem_nil, or_false] at hmem
    obtain ⟨rfl, rfl⟩ := hmem
    exact .setDeposit (f := id) (hadd fun _ => Message.noConfusion) rfl
  | incrementNonce =>
    cases List.mem_singleton.mp hmem
    exact .of_deposits (hadd fun _ => Message.noConfusion) rfl
  | view => exact absurd hmem List.not_mem_nil
  | bundle hopas hbundle _ =>
    apply (hbundle.bundling _ hmem).stakeWrite (hadd _)
    rintro unstakeDelaySec rfl
    cases hopas
  | inner _ hcall hpost hsettled =>
    rcases hsettled.innerWrite hcall hpost hmem with h | h
    . exact .setDeposit (hadd fun _ => Message.noConfusion) h.2
    . cases h
      exact .of_deposits (hadd fun _ => Message.noConfusion) rfl

/-- Other contracts do not write to the storage of the entry point. -/
theorem invoke_other_sstore {n : Nat} {frame : Frame Message} {s : State (Chain X)}
    (hself : frame.self ≠ d.entryPoint) (hok : (invoke d.system n frame s).ok = true)
    (hmem : .sstore before after ∈ (invoke d.system n frame s).body)
    : after.storage.entryPoint = before.storage.entryPoint := by
  obtain ⟨m, _, ledger, _, ⟨_, _, hbody⟩ | ⟨program, t, hcode, hrun, hbody⟩⟩ := invoke_ok d.system hok
  . rw [hbody] at hmem
    cases List.mem_singleton.mp hmem
  rw [hbody] at hmem
  have hmem := (List.mem_cons.mp hmem).resolve_left fun h => by cases h
  obtain ⟨S, l, p, hl, hp⟩ := d.codeAt_other hself hcode frame
  rw [hp] at hrun
  obtain ⟨f, _, hafter⟩ := Evm.Returns.sstores (l := l) hrun (.any p) hmem
  rw [hafter]
  exact hl _ _

/-- A write of a frame that does not revert, whoever it belongs to. -/
theorem invoke_stakeWrite {n : Nat} {frame : Frame Message} {s : State (Chain X)}
    (hok : (invoke d.system n frame s).ok = true)
    (hmem : .sstore before after ∈ (invoke d.system n frame s).body)
    : StakeWrite d frame before after := by
  by_cases hself : frame.self = d.entryPoint
  . obtain ⟨w, t, _, hbody, heffect⟩ := invoke_effect hself hok
    rw [hbody] at hmem
    exact heffect.stakeWrite hself ((List.mem_cons.mp hmem).resolve_left fun h => by cases h)
  . exact .of_deposits (fun _ _ h => hself h.1) (congrArg Storage.deposits (invoke_other_sstore hself hok hmem))

/-! ## Transactions -/

/-- The writes that a transaction leaves behind. -/
def committedWrites (d : Deployment X) (depth : Nat) (tx : Transaction Message) (w : World (Chain X))
    : List (Write (Chain X) Message ReturnData Log) :=
  writes tx.frame [] (d.happens depth tx w)

theorem of_committedWrites {depth : Nat} {tx : Transaction Message} {w : World (Chain X)}
    {v : Write (Chain X) Message ReturnData Log} (h : v ∈ d.committedWrites depth tx w)
    : v.frame.env = tx.env ∧ ∃ n s, (invoke d.system n v.frame s).ok = true
        ∧ (invoke d.system n v.frame s).body = v.body ∧ .sstore v.before v.after ∈ v.body := by
  rcases of_mem_writes h with ⟨_, _, hmem⟩ | ⟨hmem, before, after, ret, hcommitted⟩
  . cases List.mem_singleton.mp hmem
  . obtain ⟨henv, n, s, hok, _, _, _, hbody⟩ := hcommitted.invoked d.system
    exact ⟨henv, n, s, hok, hbody, hmem⟩

/-- All deposit infos. -/
def depositsPart (s : Chain X) : Address → DepositInfo := s.entryPoint.deposits

/-- The writes lead from the start of a transaction to its end, but for what it clears first. -/
theorem committedWrites_chained {S : Type} (part : Chain X → S) (depth : Nat) (tx : Transaction Message)
    {w : World (Chain X)} (hclear : part (d.system.clearTransient w.storage) = part w.storage)
    : Chained part (part w.storage) (d.committedWrites depth tx w)
        (part (execute d.system depth tx w).state.world.storage) := by
  rw [← hclear]
  exact callEvent_chained d.system part
    (s := ⟨{ w with storage := d.system.clearTransient w.storage }, tx.gas, 0⟩)
    fun before after body h => by rw [(delegate_eq h).1]

/-- The writes of a run from the start, with the time of its last transaction and the world that it
leads to. -/
inductive History (d : Deployment X)
    : Nat → List (Write (Chain X) Message ReturnData Log) → World (Chain X) → Prop where
  | genesis (ledger : Ledger) (rest : X) : History d 0 [] ⟨ledger, ⟨genesis, rest⟩⟩
  | transaction {time ws w} (depth : Nat) (tx : Transaction Message) :
      History d time ws w → tx.origin ≠ d.entryPoint → time ≤ tx.env.timestamp → 0 < tx.env.timestamp →
      tx.env.timestamp < 2 ^ 47 →
      History d tx.env.timestamp (ws ++ d.committedWrites depth tx w)
        (execute d.system depth tx w).state.world
  | block {time ws w} (ledger : Ledger) :
      History d time ws w → w.ledger.balance d.entryPoint ≤ ledger.balance d.entryPoint →
      History d time ws { w with ledger := ledger }

variable {time : Nat} {ws : List (Write (Chain X) Message ReturnData Log)} {w : World (Chain X)}

theorem History.chained (h : History d time ws w)
    : Chained depositsPart (fun _ => default) ws (depositsPart w.storage) := by
  induction h with
  | genesis => exact .nil
  | transaction depth tx _ _ _ _ _ ih => exact ih.append (committedWrites_chained depositsPart depth tx rfl)
  | block _ _ _ ih => exact ih

/-- Every write is one of a frame that has not reverted. -/
theorem History.committed (h : History d time ws w)
    : ∀ v ∈ ws, v.frame.env.timestamp < 2 ^ 47 ∧ ∃ n s, (invoke d.system n v.frame s).ok = true
        ∧ (invoke d.system n v.frame s).body = v.body ∧ .sstore v.before v.after ∈ v.body := by
  induction h with
  | genesis => exact fun v hv => absurd hv List.not_mem_nil
  | transaction depth tx _ _ _ _ htime ih =>
    intro v hv
    rcases List.mem_append.mp hv with hv | hv
    . exact ih v hv
    . obtain ⟨henv, hcommitted⟩ := of_committedWrites hv
      rw [henv]
      exact ⟨htime, hcommitted⟩
  | block _ _ _ ih => exact ih

theorem History.stakeWrite (h : History d time ws w)
    : ∀ v ∈ ws, StakeWrite d v.frame v.before v.after := by
  intro v hv
  obtain ⟨_, n, s, hok, hbody, hmem⟩ := h.committed v hv
  rw [← hbody] at hmem
  exact invoke_stakeWrite hok hmem

/-! ## The lock-up -/

/-- The last call that unlocked the stake of the account has not been taken back by one that adds to
it. -/
def Unlocked (d : Deployment X) (account : Address) (ws : List (Write (Chain X) Message ReturnData Log))
    (time : Nat) : Prop :=
  ∃ ws1 u ws2, ws = ws1 ++ u :: ws2 ∧ d.Asks u.frame account .unlockStake ∧ u.frame.env.timestamp = time
    ∧ ∀ v ∈ ws2, ∀ unstakeDelaySec, ¬d.Asks v.frame account (.addStake unstakeDelaySec)

/-- What is known about the stake of an account after some writes. -/
structure Lockup (d : Deployment X) (account : Address)
    (ws : List (Write (Chain X) Message ReturnData Log)) (info : DepositInfo) : Prop where
  state : ∃ state : StakeState, state.Of info
  unlocked : 0 < info.withdrawTime → ∃ time, time + info.unstakeDelaySec = info.withdrawTime
    ∧ Unlocked d account ws time

theorem Lockup.step {account : Address} {info info' : DepositInfo} (h : Lockup d account ws info)
    {v : Write (Chain X) Message ReturnData Log} (hself : v.frame.self = d.entryPoint)
    (hcaller : account = v.frame.caller) (htime : v.frame.env.timestamp < 2 ^ 47)
    (hstep : StakeStep v.frame (decodeMessage d.cfg v.frame.message) info info')
    : Lockup d account (ws ++ [v]) info' := by
  obtain ⟨state, hstate⟩ := h.state
  refine ⟨hstep.state hstate, ?_⟩
  intro hpos
  generalize hmessage : decodeMessage d.cfg v.frame.message = message at hstep
  cases hstep with
  | add => exact absurd hpos (Nat.lt_irrefl 0)
  | unlock =>
    refine ⟨v.frame.env.timestamp, ?_, ws, v, [], rfl, ⟨hself, hcaller.symm, hmessage⟩, rfl,
      fun v hv => absurd hv List.not_mem_nil⟩
    rw [Nat.mod_eq_of_lt (by omega)]
  | withdraw => exact absurd hpos (Nat.lt_irrefl 0)

end Deployment
