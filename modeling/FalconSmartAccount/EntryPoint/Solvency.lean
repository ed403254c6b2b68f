import FalconSmartAccount.EntryPoint.Keeps

/-!
The invariant of the entry point holds at every point of every run.
-/

open Evm

namespace Deployment

open EntryPoint

variable {X : Type} {d : Deployment X} {inv : Frame Message → State (Chain X) →
  Reply (Chain X) Message ReturnData Log} {frame : Frame Message}
  {used : List (Address × Word)} {locked collected : Nat}

/-! ## Other contracts -/

/-- An operation of another contract does not touch what the entry point owns. -/
theorem perform_holds {S : Type} {l : Lens (Chain X) S}
    (hl : ∀ v s, (l.set v s).entryPoint = s.entryPoint) (hinv : d.Handles inv)
    (hself : frame.self ≠ d.entryPoint) (o : Op S Message ReturnData Log) (s : State (Chain X))
    (hs : d.Holds used 0 locked collected s.world)
    : (∀ w, Outside w (perform d.system inv frame (o.zoom l.get l.set) s).2.2 → d.Safe w)
        ∧ d.Holds used 0 locked collected
            (perform d.system inv frame (o.zoom l.get l.set) s).2.1.world := by
  cases o with
  | gasleft => exact ⟨fun w hw => absurd hw Outside.not_nil, hs⟩
  | codeLength a => exact ⟨fun w hw => absurd hw Outside.not_nil, hs⟩
  | balance a => exact ⟨fun w hw => absurd hw Outside.not_nil, hs⟩
  | sload => exact ⟨fun w hw => absurd hw Outside.not_nil, hs⟩
  | emit log => exact ⟨fun w hw => absurd hw Outside.not_log, hs⟩
  | sstore f =>
    have hafter : d.Holds used 0 locked collected (s.world.write l f) := by
      have heq : (s.world.write l f).storage.entryPoint = s.world.storage.entryPoint := hl _ _
      exact hs.congr (by rw [heq]) (by rw [heq]) (by rw [heq]) (Nat.le_refl _)
    refine ⟨fun w hw => ?_, hafter⟩
    rw [Outside.sstore_singleton hw]
    exact hafter.safe
  | delegatecall target message =>
    refine ⟨fun w hw => absurd hw Outside.not_delegate, ?_⟩
    change d.Holds used 0 locked collected
      (d.system.delegate inv frame { s with gas := callGas none s.gas } target message).state.world
    rw [d.delegate_other hself]
    exact hs
  | push target value =>
    cases hl : s.world.ledger.transfer frame.self target value with
    | none =>
      simp only [Op.zoom, perform, hl]
      exact ⟨fun w hw => absurd hw Outside.not_nil, hs⟩
    | some ledger =>
      have hafter : d.Holds used 0 locked collected { s.world with ledger := ledger } := by
        have hb := Ledger.transfer_balance hl d.entryPoint
        rw [if_neg hself.symm] at hb
        exact hs.congr rfl rfl rfl (by dsimp only; omega)
      simp only [Op.zoom, perform, hl]
      refine ⟨fun w hw => ?_, hafter⟩
      rw [hw.push_singleton]
      exact hafter.safe
  | call c =>
    let callee : Frame Message := ⟨c.target, frame.self, c.value, c.message, frame.env⟩
    have hholds : d.Holds used (if callee.caller = d.entryPoint then callee.value else 0) locked collected
        s.world := by
      rw [if_neg hself]
      exact hs
    obtain ⟨hvisited, hafter⟩ := hinv.foreign callee { s with gas := callGas c.gas s.gas }
      (fun h => absurd h hself) hholds
    refine ⟨fun w hw => ?_, hafter⟩
    rcases Outside.call_singleton hw with rfl | hw
    . exact hafter.safe
    . exact hvisited w hw

/-- A call of another contract. -/
theorem invoke_other {n : Nat} (hinv : ∀ m < n, d.Handles (invoke d.system m))
    (hself : frame.self ≠ d.entryPoint) {s : State (Chain X)}
    (hs : d.Holds used (if frame.caller = d.entryPoint then frame.value else 0) locked collected s.world)
    : (∀ w, Outside w (invoke d.system n frame s).body → d.Safe w)
        ∧ d.Holds used 0 locked collected (invoke d.system n frame s).state.world := by
  have hbefore : d.Holds used 0 locked collected s.world := hs.weaken (Nat.zero_le _)
  have henter (ledger : Ledger)
      (h : s.world.ledger.transfer frame.caller frame.self frame.value = some ledger)
      : d.Holds used 0 locked collected { s.world with ledger := ledger } :=
    (hs.transfer h).weaken (Nat.zero_le _)
  cases hcode : d.codeAt s.world.storage frame.self with
  | none =>
    obtain ⟨hvisited, _⟩ := @invoke_no_code _ _ _ _ _ d.system n _ _ d.Safe hcode hbefore.safe
      fun ledger h => (henter ledger h).safe
    obtain ⟨_, hafter⟩ := @invoke_no_code _ _ _ _ _ d.system n _ _ (d.Holds used 0 locked collected)
      hcode hbefore henter
    exact ⟨hvisited, hafter⟩
  | some program =>
    obtain ⟨S, l, p, hl, hp⟩ := d.codeAt_other hself hcode frame
    have hsat : ∀ m < n, ∀ ledger,
        s.world.ledger.transfer frame.caller frame.self frame.value = some ledger →
          Sat d.system (invoke d.system m) frame l d.Safe (· = { s.world with ledger := ledger }) p
            fun _ => d.Holds used 0 locked collected := fun m hm ledger h =>
      (Sat.of_ops p (perform_holds hl (hinv m hm) hself)).mono
        (fun w hw => by rw [hw]; exact henter ledger h) fun _ _ hw => hw
    obtain ⟨hvisited, hok⟩ := invoke_code d.system (fun _ _ => ⟨program, hcode, hp⟩)
      (fun ledger h => (henter ledger h).safe) hsat
    refine ⟨hvisited, ?_⟩
    cases hr : (invoke d.system n frame s).ok with
    | true => exact hok hr
    | false =>
      rw [invoke_failed d.system hr]
      exact hbefore

/-! ## The entry point -/

/-- Calls keep the invariant, however deep they nest. -/
theorem handles (n : Nat) : d.Handles (invoke d.system n) := by
  induction n using Nat.strong_induction_on with
  | _ n ih =>
    refine ⟨fun frame s h => invoke_failed d.system h, ?_, ?_, ?_⟩
    . intro frame s hself hrefused
      have hrun := @invoke_entryPoint _ d n _ s (fun _ => True) (fun _ => True)
        (fun _ _ => False) hself (fun _ _ => ⟨trivial, trivial⟩) fun m _ => by
          rw [hrefused frame rfl]
          exact Sat.revert
      exact Bool.eq_false_iff.mpr hrun.2
    . intro frame s used locked collected hframe hs
      by_cases hself : frame.self = d.entryPoint
      . have hrun := @invoke_entryPoint _ d n _ s d.Safe (d.Holds used frame.value locked collected)
          (fun _ => d.Holds used 0 locked collected) hself
          (fun ledger h => ⟨(hs.transfer h).safe, (hs.transfer h).weaken (by rw [if_pos hself])⟩)
          fun m hm => dispatch_keeps (ih m hm) hself hframe
        refine ⟨hrun.1, ?_⟩
        cases hr : (invoke d.system n frame s).ok with
        | true => exact hrun.2 hr
        | false =>
          rw [invoke_failed d.system hr]
          exact hs.weaken (Nat.zero_le _)
      . exact invoke_other ih hself hs
    . intro s used locked collected callData opInfo context env hsender hs
      let frame : Frame Message :=
        ⟨d.entryPoint, d.entryPoint, 0, .innerHandleOp callData opInfo context, env⟩
      have hs' : d.Holds used (if frame.caller = d.entryPoint then frame.value else 0)
          (locked + opInfo.prefund) collected s.world := by
        rw [if_pos rfl]
        exact hs
      have henter (ledger : Ledger)
          (h : s.world.ledger.transfer frame.caller frame.self frame.value = some ledger)
          : d.Safe { s.world with ledger := ledger }
            ∧ d.Holds used frame.value (locked + opInfo.prefund) collected { s.world with ledger := ledger } :=
        ⟨(hs'.transfer h).safe, (hs'.transfer h).weaken (by rw [if_pos rfl])⟩
      exact d.invoke_entryPoint rfl henter fun m hm =>
        nonpayable_keeps (innerHandleOp_keeps (ih m hm) rfl hsender)

/-! ## Transactions -/

theorem execute_holds {w : World (Chain X)} (h : d.Holds used 0 0 0 w) (depth : Nat)
    {tx : Transaction Message} (htx : tx.origin ≠ d.entryPoint)
    : (∀ w', Outside w' (execute d.system depth tx w).body → d.Safe w')
        ∧ d.Holds used 0 0 0 (execute d.system depth tx w).state.world := by
  refine (handles depth).foreign tx.frame _ (fun hcaller => absurd hcaller htx) ?_
  change d.Holds used (if tx.origin = d.entryPoint then tx.value else 0) 0 0 _
  rw [if_neg htx]
  exact h.congr rfl rfl rfl (Nat.le_refl _)

/-- Nothing is owed as long as nobody has deposited anything. -/
theorem Holds.of_empty {w : World (Chain X)} (hdeposits : ∀ a, w.storage.entryPoint.deposits a = default)
    (hbooks : w.storage.entryPoint.books = ⟨0, 0, []⟩)
    : d.Holds w.storage.entryPoint.books.accepted 0 0 0 w := by
  have howed : w.storage.entryPoint.owed = 0 := by
    have hdeposit : ∀ a, (w.storage.entryPoint.deposits a).deposit = 0 := by
      intro a
      rw [hdeposits]
      rfl
    have hstake : ∀ a, (w.storage.entryPoint.deposits a).stake = 0 := by
      intro a
      rw [hdeposits]
      rfl
    unfold Storage.owed
    simp only [hdeposit, hstake, Finset.sum_const_zero, Nat.add_zero]
  refine ⟨by rw [howed]; exact Nat.zero_le _, by rw [hbooks], by rw [hbooks], ⟨?_, ?_⟩, .refl _⟩
  . rw [hbooks]
    exact fun p hp => absurd hp List.not_mem_nil
  . rw [hbooks]
    exact List.Pairwise.nil

theorem Reachable.holds {w : World (Chain X)} (h : d.Reachable w) : d.Holds w.storage.entryPoint.books.accepted 0 0 0 w := by
  induction h with
  | genesis ledger rest => exact Holds.of_empty (fun _ => rfl) rfl
  | transaction depth tx _ htx ih => exact (execute_holds ih depth htx).2.all
  | block ledger _ hledger ih => exact ih.congr rfl rfl rfl hledger

/-- Between transactions and at every point that a transaction passes, whoever is called then, the
entry point can pay all deposits and stakes, and what it holds for the bundles under way. That leaves out
the code that `delegateAndRevert` runs, which is taken back in any case, and nothing else. -/
theorem solvent {w : World (Chain X)} (hw : d.Reachable w)
    : d.Solvent w ∧ ∀ (depth : Nat) (tx : Transaction Message), tx.origin ≠ d.entryPoint →
        (∀ w', Outside w' (execute d.system depth tx w).body → d.Solvent w')
          ∧ ∀ w', Visited w' (execute d.system depth tx w).body → d.Solvent w'
            ∨ ∃ before after body, Within (.delegate before after body) (execute d.system depth tx w).body
              ∧ (w' = after ∨ Visited w' body) := by
  refine ⟨hw.holds.safe.solvent, fun depth tx htx => ?_⟩
  have hsolvent (w' : World (Chain X)) (hw' : Outside w' (execute d.system depth tx w).body)
      : d.Solvent w' :=
    ((execute_holds hw.holds depth htx).1 w' hw').solvent
  exact ⟨hsolvent, fun w' hw' => hw'.outside_or.imp_left (hsolvent w')⟩

theorem solvent_mixedTx
    : mixed.Solvent mixedWorld
        ∧ ∀ w, Outside w (execute mixed.system 7 mixedTx mixedWorld).body → mixed.Solvent w := by
  obtain ⟨hstart, hpoints⟩ := solvent mixedWorld_reachable
  exact ⟨hstart, (hpoints 7 mixedTx (by decide)).1⟩

/-- When it is asked to validate an operation, the account at `3` lets the entry point delegate to the code
at `9`, which takes all that the entry point has. -/
def drained : Deployment Unit where
  cfg := sample.cfg
  entryPoint := 1
  entryPoint_ne := sample.entryPoint_ne
  code _ a :=
    if a = 3 then
      some fun msg =>
        match msg.message with
        | .validateUserOp _ _ _ => do
          let _ ← Prog.call ⟨1, 0, none, .delegateAndRevert 9 []⟩
          pure (.words [0])
        | _ => pure default
    else
      none
  codeLength _ a := if a = 3 then 1 else 0
  delegate _ a :=
    if a = 9 then
      some fun _ => do
        let value ← Prog.balance 1
        let _ ← Prog.call ⟨9, value, none, .receive⟩
        pure default
    else
      none
  clearTransient := id

def drainedWorld : World (Chain Unit) := (execute drained.system 2 depositTx sampleWorld).state.world

/-- Within a bundle that goes through, the code that `delegateAndRevert` runs leaves the entry point without
the deposit that it owes. -/
theorem insolvent_inside
    : drained.Reachable drainedWorld
      ∧ (execute drained.system 6 (bundleTx (.handleOps [sampleOp 3] 5)) drainedWorld).ok = true
      ∧ ∃ w, Visited w (execute drained.system 6 (bundleTx (.handleOps [sampleOp 3] 5)) drainedWorld).body
          ∧ ¬drained.Solvent w := by
  have hok : (execute drained.system 6 (bundleTx (.handleOps [sampleOp 3] 5)) drainedWorld).ok = true := by
    decide +kernel
  have hany : (points (execute drained.system 6 (bundleTx (.handleOps [sampleOp 3] 5)) drainedWorld).body).any
      (fun w => decide (w.ledger.balance 1 < (w.storage.entryPoint.deposits 3).deposit)) = true := by
    decide +kernel
  obtain ⟨w, hmem, hless⟩ := List.any_eq_true.mp hany
  refine ⟨.transaction 2 depositTx (.genesis sampleLedger ()) (by decide), hok, w,
    visited_of_mem_points hmem, fun hsolvent => ?_⟩
  have hdeposit := w.storage.entryPoint.deposit_le_owed 3
  have hbalance : w.ledger.balance drained.entryPoint < (w.storage.entryPoint.deposits 3).deposit :=
    of_decide_eq_true hless
  unfold Solvent at hsolvent
  omega

/-- The worlds in which a call can be made, but for calls by the code that `delegateAndRevert` runs. -/
inductive Passed (d : Deployment X) : World (Chain X) → Prop where
  | start {w} :
      d.Reachable w → Passed d { w with storage := d.system.clearTransient w.storage }
  | within {w w'} (depth : Nat) (tx : Transaction Message) :
      d.Reachable w → tx.origin ≠ d.entryPoint → Outside w' (execute d.system depth tx w).body →
      Passed d w'

theorem Passed.safe {w : World (Chain X)} (h : d.Passed w) : d.Safe w := by
  cases h with
  | @start w hw =>
    have hholds := @Holds.congr _ d _ _ _ _ w { w with storage := d.system.clearTransient w.storage }
      hw.holds rfl rfl rfl (Nat.le_refl _)
    exact hholds.safe
  | within depth tx hw htx hvisited => exact (execute_holds hw.holds depth htx).1 _ hvisited

end Deployment
