import FalconSmartAccount.Account.AccountDeployment
import FalconSmartAccount.Account.AccountEffect

/-!
The storage of an account that has been initialised: it stays as it is until the account is upgraded.
-/

open Evm

namespace FalconSimpleAccount

/-- What is left of the storage `v0`: an account that has it keeps it until it is upgraded, and an
upgraded account stays upgraded. -/
structure Keeps (v0 v v' : Storage) : Prop where
  upgraded : v.upgradedTo ≠ none → v'.upgradedTo ≠ none
  eq : v = v0 → v'.upgradedTo = none → v' = v0

namespace Keeps

variable {v0 v v' v'' : Storage}

theorem refl : Keeps v0 v v := ⟨fun h => h, fun h _ => h⟩

theorem trans (h : Keeps v0 v v') (h' : Keeps v0 v' v'') : Keeps v0 v v'' := by
  refine ⟨fun hupgraded => h'.upgraded (h.upgraded hupgraded), ?_⟩
  intro heq hnot
  have hnot' : v'.upgradedTo = none := by
    by_contra hupgraded
    exact h'.upgraded hupgraded hnot
  exact h'.eq (h.eq heq hnot') hnot

theorem of_upgraded (h : v'.upgradedTo ≠ none) : Keeps v0 v v' :=
  ⟨fun _ => h, fun _ hnot => absurd hnot h⟩

theorem not_upgraded (h : Keeps v0 v v') (hnot : v'.upgradedTo = none) : v.upgradedTo = none := by
  by_contra hupgraded
  exact h.upgraded hupgraded hnot

end Keeps

/-- The storage of an account that has been initialised and has not been upgraded. -/
structure Initialised (cfg : Config) (v : Storage) : Prop where
  upgradedTo : v.upgradedTo = none
  initialized : ∃ i, cfg.initializer i = some v.slots.initializable

theorem Initialised.initializer {cfg : Config} {v : Storage} (h : Initialised cfg v)
    : cfg.initializer v.slots.initializable = none := by
  obtain ⟨i, hi⟩ := h.initialized
  exact cfg.initializer_once i _ hi

theorem Effect.keeps {T : Type} {cfg : Config} {l : Lens T Storage} {msg : Frame Message} {s v0 : Storage}
    {message : Message} {ret : ReturnData} {t : List (Event T Message ReturnData Log)}
    (h : Effect cfg l msg s message ret t) (hv0 : Initialised cfg v0) {before after : World T}
    (he : .sstore before after ∈ t)
    : Keeps v0 (l.get before.storage) (l.get after.storage) := by
  cases h with
  | quiet => exact absurd he List.not_mem_nil
  | view => cases List.mem_singleton.mp he
  | addDeposit => cases List.mem_singleton.mp he
  | execute _ _ hnot => exact absurd he (hnot _ _)
  | withdrawDepositTo _ hnot => exact absurd he (hnot _ _)
  | validateUserOp _ _ _ hnot =>
    rcases List.mem_cons.mp he with heq | he
    . cases heq
    . exact absurd he (hnot _ _)
  | upgradeToAndCall _ hupgraded => exact .of_upgraded (hupgraded _ _ he)
  -- it is refused where the storage is `v0`, and changes no implementation anywhere else
  | initializeAccount hinitializable hstart =>
    rcases List.mem_cons.mp he with heq | he
    . cases heq
      refine ⟨?_, ?_⟩
      . change _ → (l.get (l.set _ _)).upgradedTo ≠ none
        rw [l.get_set]
        exact fun h => h
      . intro heq _
        rw [← hstart, heq, hv0.initializer] at hinitializable
        cases hinitializable
    . cases List.mem_singleton.mp he

end FalconSimpleAccount

namespace AccountDeployment

open FalconSimpleAccount

variable {Y : Type}

/-- The worlds that come after `w0`, between transactions. The account and the entry point do not send
transactions, and what blocks do to balances is left open. -/
inductive Later (f : AccountDeployment Y) (w0 : World (Chain (Storage × Y)))
    : World (Chain (Storage × Y)) → Prop where
  | refl : Later f w0 w0
  | transaction {w} (depth : Nat) (tx : Transaction Message) :
      Later f w0 w → tx.origin ≠ f.entryPoint → tx.origin ≠ f.account →
      Later f w0 (Evm.execute f.system depth tx w).state.world
  | block {w} (ledger : Ledger) : Later f w0 w → Later f w0 { w with ledger := ledger }

variable {f : AccountDeployment Y} {v0 : Storage} {n depth : Nat} {tx : Transaction Message}
  {frame : Frame Message} {s : State (Chain (Storage × Y))} {w before after : World (Chain (Storage × Y))}
  {ret : ReturnData} {body : Chain.Trace (Storage × Y)}

/-! ## Writes -/

/-- A write of a frame that does not revert. -/
theorem invoke_keeps (hv0 : Initialised f.accountCfg v0) (hok : (invoke f.system n frame s).ok = true)
    (hmem : .sstore before after ∈ (invoke f.system n frame s).body)
    : Keeps v0 (accountOf before) (accountOf after) := by
  by_cases hself : frame.self = f.account
  -- which code runs is decided by the storage at the start of the call
  . obtain ⟨m, _, ledger, t, _, hrun, hbody⟩ := invoke_account hself hok
    rw [hbody] at hmem
    have hmem := (List.mem_cons.mp hmem).resolve_left fun h => by cases h
    unfold accountCode at hrun
    split at hrun
    . exact (dispatch_effect hrun).keeps hv0 hmem
    . exact .of_upgraded (upgraded_sstore hrun hmem)
  . rw [invoke_other_sstore hself hok hmem]
    exact .refl

theorem committed_keeps (hv0 : Initialised f.accountCfg v0)
    (h : Committed (.sstore before after) (f.deployment.happens depth tx w)
      ∨ ∃ body, Committed (.delegate before after body) (f.deployment.happens depth tx w))
    : Keeps v0 (accountOf before) (accountOf after) := by
  rcases h with h | ⟨body, h⟩
  . rcases h.frame with hmem | ⟨frame, before', after', ret, body, hframe, hmem⟩
    . cases List.mem_singleton.mp hmem
    . obtain ⟨_, m, s1, hok, _, _, _, rfl⟩ := hframe.invoked f.system
      exact invoke_keeps hv0 hok hmem
  . rw [(Deployment.delegate_eq h).1]
    exact .refl

/-! ## Calls -/

/-- Across a call that does not revert and all that happens in it, and from its start to what is not
taken back. -/
theorem call_keeps (hv0 : Initialised f.accountCfg v0) (hok : (invoke f.system n frame s).ok = true)
    (hcommitted : ∀ e, Committed e (invoke f.system n frame s).body →
      Committed e (f.deployment.happens depth tx w))
    : Keeps v0 (accountOf s.world) (accountOf (invoke f.system n frame s).state.world)
        ∧ (∀ e ∈ (invoke f.system n frame s).body, ∀ before after, e.Moves before after →
          Keeps v0 (accountOf before) (accountOf after))
        ∧ ∀ e before after, Committed e (invoke f.system n frame s).body → e.Moves before after →
          Keeps v0 (accountOf s.world) (accountOf before) := by
  let C (v v' : Chain (Storage × Y)) : Prop := Keeps v0 (accountPart.get v) (accountPart.get v')
  have hrefl : ∀ v, C v v := fun _ => .refl
  have htrans : ∀ v1 v2 v3, C v1 v2 → C v2 v3 → C v1 v3 := fun _ _ _ => .trans
  have hwrites : ∀ before after, Committed (.sstore before after) (invoke f.system n frame s).body
      ∨ (∃ body, Committed (.delegate before after body) (invoke f.system n frame s).body) →
        C before.storage after.storage :=
    fun _ _ h => committed_keeps hv0 (h.imp (hcommitted _) (Exists.imp fun _ => hcommitted _))
  obtain ⟨hcall, hmoves⟩ := invoke_rel f.system hrefl htrans hwrites hok
  refine ⟨hcall, hmoves, ?_⟩
  intro e before after he hmove
  exact (invoke_rel_committed f.system hrefl htrans hwrites hok he hmove).1

/-- The same for a committed frame. -/
theorem frame_keeps (hv0 : Initialised f.accountCfg v0)
    (hframe : Committed (.call frame before after true ret body) (f.deployment.happens depth tx w))
    : (∀ e ∈ body, ∀ before after, e.Moves before after → Keeps v0 (accountOf before) (accountOf after))
        ∧ ∀ e before' after', Committed e body → e.Moves before' after' →
          Keeps v0 (accountOf before) (accountOf before') := by
  obtain ⟨_, m, s1, hok, rfl, rfl, _, rfl⟩ := hframe.invoked f.system
  exact (call_keeps hv0 hok fun _ h => hframe.trans h).2

/-- From the start of a transaction to what is not taken back. -/
theorem start_keeps (hv0 : Initialised f.accountCfg v0) {e : Event (Chain (Storage × Y)) Message ReturnData Log}
    (he : Committed e (f.deployment.happens depth tx w)) (hmove : e.Moves before after)
    : Keeps v0 (accountOf w) (accountOf before) := by
  rcases of_committed_callEvent f.system he with heq | ⟨hok, hinside⟩
  . rw [heq] at hmove
    cases hmove
    exact .refl
  . exact (call_keeps hv0 hok fun _ h => committed_callEvent f.system hok h).2.2 e before after hinside hmove

/-! ## Runs -/

theorem execute_keeps (hv0 : Initialised f.accountCfg v0) (depth : Nat) (tx : Transaction Message)
    (w : World (Chain (Storage × Y)))
    : Keeps v0 (accountOf w) (accountOf (Evm.execute f.system depth tx w).state.world) := by
  unfold Evm.execute
  cases hok : (invoke f.system depth tx.frame
      ⟨{ w with storage := f.system.clearTransient w.storage }, tx.gas, 0⟩).ok with
  | false =>
    rw [invoke_failed f.system hok]
    exact .refl
  | true => exact (call_keeps hv0 hok fun _ h => committed_callEvent f.system hok h).1

theorem Later.keeps {w0 : World (Chain (Storage × Y))} (hv0 : Initialised f.accountCfg v0)
    (h : f.Later w0 w)
    : Keeps v0 (accountOf w0) (accountOf w) := by
  induction h with
  | refl => exact .refl
  | transaction depth tx _ _ _ ih => exact ih.trans (execute_keeps hv0 depth tx _)
  | block ledger _ ih => exact ih

/-- Until it is upgraded, the account has the storage that it had at first. -/
theorem Later.accountOf_eq {w0 : World (Chain (Storage × Y))}
    (hv0 : Initialised f.accountCfg (accountOf w0)) (h : f.Later w0 w)
    {e : Event (Chain (Storage × Y)) Message ReturnData Log}
    (he : Committed e (f.deployment.happens depth tx w)) (hmove : e.Moves before after)
    (hnot : (accountOf before).upgradedTo = none)
    : accountOf before = accountOf w0 :=
  ((h.keeps hv0).trans (start_keeps hv0 he hmove)).eq rfl hnot

end AccountDeployment
