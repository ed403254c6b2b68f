import FalconSmartAccount.EntryPoint.Receipts
import FalconSmartAccount.Evm.Totals

/-!
The trace of a bundle with its inner calls in the place of their events, so that what an inner call does is
counted with the bundle that makes it.
-/

open Evm

namespace Deployment

open EntryPoint

variable {X : Type} {d : Deployment X} {msg : Frame Message}
  {s : State (Chain X)} {t : Chain.Trace X} {opas : List UserOpsPerAggregator} {opInfos : List UserOpInfo}

/-- Only the executions make inner calls. -/
theorem BundleRuns.unrolled {m : Nat} {beneficiary : Address} {costs : List Nat}
    (hself : msg.self = d.entryPoint)
    (h : BundleRuns d msg (invoke d.system m) opas beneficiary opInfos costs t)
    : ∃ before0 after0 ts tv te amount before1 after1 before2 after2 ret body before3 after3,
        Guards before0 after0 ∧ SignatureChecks msg opas ts
        ∧ ValidationRuns d msg (invoke d.system m) (UserOpsPerAggregator.flatten opas) opInfos tv
        ∧ Executions msg ((UserOpsPerAggregator.flatten opas).map Prod.snd) opInfos costs te
        ∧ Pays amount before1 after1 ∧ Guards before3 after3
        ∧ t.flatMap d.unrolled = .sstore before0 after0 :: (ts ++ tv ++ [.log .beforeExecution])
            ++ te.flatMap d.unrolled
            ++ [.sstore before1 after1, .call ⟨beneficiary, msg.self, amount, .bytes [], msg.env⟩
              before2 after2 true ret body, .sstore before3 after3] := by
  obtain @⟨before0, after0, ts, tv, te, before1, after1, before2, after2, ret, body, before3, after3,
    hguard, hchecks, hvalidations, hruns, hpays, hguard', ht⟩ := h
  have hexecutions := hruns.executions hself hvalidations.validations.prefund_lt
  generalize costs.sum % Yul.wordSize = amount at hpays ht
  have hpre : d.innerCalls (.sstore before0 after0 :: (ts ++ tv ++ [.log .beforeExecution])) = [] := by
    rw [innerCalls_cons, innerCalls_append, innerCalls_append, hchecks.innerCalls,
      hvalidations.validations.innerCalls]
    rfl
  have hpost : d.innerCalls [.sstore before1 after1, .call ⟨beneficiary, msg.self, amount, .bytes [], msg.env⟩
      before2 after2 true ret body, .sstore before3 after3] = [] := by
    rw [innerCalls_cons, innerCalls_cons, innerCalls_cons, innerCall_none fun _ _ _ => Message.noConfusion]
    rfl
  have hsplit : t = .sstore before0 after0 :: (ts ++ tv ++ [.log .beforeExecution]) ++ te
      ++ [.sstore before1 after1, .call ⟨beneficiary, msg.self, amount, .bytes [], msg.env⟩
        before2 after2 true ret body, .sstore before3 after3] := by
    rw [ht]
    simp
  refine ⟨before0, after0, ts, tv, te, amount, before1, after1, before2, after2, ret, body, before3, after3,
    hguard, hchecks, hvalidations, hexecutions, hpays, hguard', ?_⟩
  rw [hsplit, List.flatMap_append, List.flatMap_append, flatMap_unrolled hpre, flatMap_unrolled hpost]

/-! ## Inner calls -/

def isInnerHandleOp : Message → Bool
  | .innerHandleOp _ _ _ => true
  | _ => false

/-- The bundle that makes an inner call answers for it. -/
def Inner (d : Deployment X) (frame : Frame Message) : Prop :=
  frame.self = d.entryPoint ∧ isInnerHandleOp (decodeMessage d.cfg frame.message) = true

instance : DecidablePred d.Inner := fun _ => inferInstanceAs (Decidable (_ ∧ _))

theorem isInnerHandleOp_eq {message : Message} (h : isInnerHandleOp message = true)
    : ∃ callData opInfo context, message = .innerHandleOp callData opInfo context := by
  cases message with
  | innerHandleOp callData opInfo context => exact ⟨_, _, _, rfl⟩
  | _ => cases h

theorem innerCall_call {frame : Frame Message} {before after : World (Chain X)} {ret : ReturnData} {body : Chain.Trace X}
    : d.innerCall (.call frame before after true ret body) = if d.Inner frame then some frame else none := by
  split
  . next hinner =>
    obtain ⟨hself, hmessage⟩ := hinner
    obtain ⟨callData, opInfo, context, hmessage⟩ := isInnerHandleOp_eq hmessage
    exact innerCall_eq hself hmessage
  . next hinner =>
    apply Option.eq_none_iff_forall_ne_some.mpr
    intro frame' h
    obtain ⟨_, _, _, _, heq, hself, callData, opInfo, context, hmessage⟩ := innerCall_eq_some h
    cases heq
    exact hinner ⟨hself, by rw [hmessage]; rfl⟩

theorem sum_unrolled {A : Type} [AddCommMonoid A] {f : Event (Chain X) Message ReturnData Log → A}
    {g : Frame Message → Chain.Trace X → A}
    (hf : ∀ callee before after ok ret body, f (.call callee before after ok ret body) = 0)
    (hg : ∀ callee body, d.Inner callee → g callee body = (body.map f).sum)
    : (t.map f).sum + answered d.Inner g t = ((t.flatMap d.unrolled).map f).sum := by
  induction t with
  | nil => exact add_zero _
  | cons e t ih =>
    have hfirst : f e + e.answered d.Inner g = ((d.unrolled e).map f).sum := by
      cases e with
      | call callee before after ok ret body =>
        cases ok with
        | false =>
          rw [unrolled_of_none rfl, List.map_singleton, List.sum_singleton]
          exact add_zero _
        | true =>
          change _ + (if d.Inner callee then g callee body else 0) = _
          rw [hf, zero_add]
          split
          . next hinner =>
            rw [unrolled_of_some (by rw [innerCall_call, if_pos hinner]), hg _ _ hinner]
          . next hinner =>
            rw [unrolled_of_none (by rw [innerCall_call, if_neg hinner]), List.map_singleton,
              List.sum_singleton, hf]
      | _ =>
        rw [unrolled_of_none rfl, List.map_singleton, List.sum_singleton]
        exact add_zero _
    rw [List.flatMap_cons, List.map_append, List.sum_append, ← ih, ← hfirst]
    exact add_add_add_comm _ _ _ _

/-- The caller check of an inner call that does not revert. -/
theorem Inner.caller {n : Nat} {frame : Frame Message} (h : d.Inner frame)
    (hok : (invoke d.system n frame s).ok = true)
    : frame.caller = d.entryPoint := by
  obtain ⟨callData, opInfo, context, hmessage⟩ := isInnerHandleOp_eq h.2
  obtain ⟨w, t, _, _, heffect⟩ := invoke_effect h.1 hok
  rw [hmessage] at heffect
  cases heffect with
  | deposit h => rcases h with h | ⟨h, _⟩ <;> cases h
  | bundle h => cases h
  | inner hcaller => exact hcaller.trans h.1

theorem inner_step {n : Nat} {frame callee : Frame Message} {before after : World (Chain X)} {ret : ReturnData}
    {body : Chain.Trace X} (hvetted : Vetted d frame) (hok : (invoke d.system n frame s).ok = true)
    (hcall : .call callee before after true ret body ∈ (invoke d.system n frame s).body)
    : Vetted d callee ∧ (d.Inner frame → ¬d.Inner callee) := by
  refine ⟨vetted_step hvetted hok hcall, ?_⟩
  intro hframe hcallee
  obtain ⟨_, _, m, _, s1, s2, hinvoke, _⟩ := invoke_call d.system hcall
  have hcaller := hcallee.caller (n := m) (s := s1) (by rw [hinvoke])
  obtain ⟨_, _, _, _, _, _, _, _, _, _, hopas, _⟩ :=
    invoke_innerCall hvetted hok hcall (by rw [innerCall_call, if_pos hcallee]) hcaller
  obtain ⟨callData, opInfo, context, hmessage⟩ := isInnerHandleOp_eq hframe.2
  rw [hmessage] at hopas
  cases hopas

/-- Other contracts do not make an inner call that succeeds. -/
theorem answered_other {A : Type} [AddCommMonoid A] {n : Nat} {frame : Frame Message}
    {g : Frame Message → Chain.Trace X → A} (hself : frame.self ≠ d.entryPoint)
    : answered d.Inner g (invoke d.system n frame s).body = 0 := by
  apply List.sum_eq_zero
  intro k hk
  obtain ⟨e, he, rfl⟩ := List.mem_map.mp hk
  cases e with
  | call callee before after ok ret body =>
    cases ok with
    | false => rfl
    | true =>
      obtain ⟨hframe, _, m, _, s1, s2, hinvoke, _⟩ := invoke_call d.system he
      apply if_neg
      intro hinner
      have hcaller := hinner.caller (n := m) (s := s1) (by rw [hinvoke])
      exact hself (hframe.symm.trans hcaller)
  | _ => rfl

end Deployment
