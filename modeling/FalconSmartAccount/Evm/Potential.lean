import FalconSmartAccount.Evm.Totals

/-!
The potential method for calls. A sum over all frames of a run is bounded by what a potential of the
storage has risen, if each frame that counts anything counts no more than its own calls let the potential
rise, and these calls count nothing themselves.
-/

namespace Evm

variable {T M R L : Type}

/-- How far a call lets the potential rise. -/
def Event.rise (φ : T → Nat) : Event T M R L → Nat
  | .call _ before after _ _ _ => φ after.storage - φ before.storage
  | _ => 0

theorem total_eq_sum {A : Type} [AddCommMonoid A] (g : Frame M → List (Event T M R L) → A)
    (t : List (Event T M R L))
    : total g t = (t.map (Event.total g)).sum := by
  induction t with
  | nil => rfl
  | cons e t ih =>
    rw [List.map_cons]
    rw [List.sum_cons]
    rw [← ih]
    rfl

/-- If each event pays for what it counts, then all of them together do. -/
theorem Leads.sum_le {w w' : World T} {t : List (Event T M R L)} (h : Leads w t w') (φ : World T → Nat)
    (f : Event T M R L → Nat) (henter : ∀ w, f (.enter w) = 0)
    (hlog : ∀ l, f (.log l) = 0)
    (hmoves : ∀ e ∈ t, ∀ before after, e.Moves before after → f e + φ before ≤ φ after)
    : (t.map f).sum + φ w ≤ φ w' := by
  induction h with
  | nil =>
    simp
  | @enter w t w' _ ih =>
    have hrest := ih fun e he => hmoves e (List.mem_cons_of_mem _ he)
    have hfirst := henter w
    simp only [List.map_cons, List.sum_cons]
    omega
  | @log l w t w' _ ih =>
    have hrest := ih fun e he => hmoves e (List.mem_cons_of_mem _ he)
    have hfirst := hlog l
    simp only [List.map_cons, List.sum_cons]
    omega
  | @move e before after t w' hmove _ ih =>
    have hrest := ih fun e he => hmoves e (List.mem_cons_of_mem _ he)
    have hfirst := hmoves e List.mem_cons_self before after hmove
    simp only [List.map_cons, List.sum_cons]
    omega

section

variable [Inhabited R] (sys : System T M R L) (φ : T → Nat) (pays : Frame M → Prop)
  {g : Frame M → List (Event T M R L) → Nat}

/-- No frame may let the potential fall by a write of its own. -/
theorem invoke_total_le
    (hkept : ∀ n frame s before after, (invoke sys n frame s).ok = true →
      .sstore before after ∈ (invoke sys n frame s).body
        ∨ (∃ body, .delegate before after body ∈ (invoke sys n frame s).body) →
        φ before.storage ≤ φ after.storage)
    (hother : ∀ n frame s, ¬pays frame → (invoke sys n frame s).ok = true →
      g frame (invoke sys n frame s).body = 0)
    (hpays : ∀ n frame s, pays frame → (invoke sys n frame s).ok = true →
      g frame (invoke sys n frame s).body ≤ ((invoke sys n frame s).body.map (Event.rise φ)).sum
        ∧ total g (invoke sys n frame s).body = 0)
    {n : Nat} {frame : Frame M} {s : State T} (hok : (invoke sys n frame s).ok = true)
    : g frame (invoke sys n frame s).body + total g (invoke sys n frame s).body + φ s.world.storage
        ≤ φ (invoke sys n frame s).state.world.storage := by
  induction n using Nat.strong_induction_on generalizing frame s with
  | _ n ih =>
    have hmoves : ∀ e ∈ (invoke sys n frame s).body, ∀ before after, e.Moves before after →
        e.total g + φ before.storage ≤ φ after.storage := by
      intro e he before after hmove
      cases hmove with
      | sstore =>
        have hle := hkept n frame s before after hok (.inl he)
        apply Nat.le_trans (Nat.le_of_eq (Nat.zero_add _)) hle
      | delegate =>
        have hle := hkept n frame s before after hok (.inr ⟨_, he⟩)
        apply Nat.le_trans (Nat.le_of_eq (Nat.zero_add _)) hle
      | push =>
        rcases invoke_body sys he with ⟨w, hw⟩ | ⟨m, _, program, s1, he⟩
        . cases hw
        . rw [run_push sys he]
          apply Nat.le_of_eq (Nat.zero_add _)
      | @call callee _ _ ok data body =>
        obtain ⟨_, _, m, hm, s1, s2, hinvoke, rfl, rfl⟩ := invoke_call sys he
        have hworld : (invoke sys m callee s1).state.world = s2.world := by
          rw [hinvoke]
        cases ok with
        -- a call that fails gives the world back
        | false =>
          rw [← hworld]
          rw [invoke_failed sys (by rw [hinvoke])]
          apply Nat.le_of_eq (Nat.zero_add _)
        | true =>
          have hcallee := @ih m hm callee s1 (by rw [hinvoke])
          rw [hinvoke] at hcallee
          exact hcallee
    obtain ⟨w, hw, hleads⟩ := invoke_leads sys hok
    rw [← hw]
    by_cases hframe : pays frame
    . obtain ⟨hle, hquiet⟩ := hpays n frame s hframe hok
      have hrises := hleads.sum_le (fun w => φ w.storage) (Event.rise φ) (fun _ => rfl)
        (fun _ => rfl) fun e he before after hmove => by
          have hup := hmoves e he before after hmove
          cases hmove with
          | call =>
            simp only [Event.rise]
            omega
          | _ =>
            simp only [Event.rise]
            omega
      omega
    . have hnone := hother n frame s hframe hok
      have htotal := hleads.sum_le (fun w => φ w.storage) (Event.total g) (fun _ => rfl)
        (fun _ => rfl) hmoves
      rw [← total_eq_sum] at htotal
      omega

/-- The same for a call that may fail. -/
theorem callEvent_total_le
    (hkept : ∀ n frame s before after, (invoke sys n frame s).ok = true →
      .sstore before after ∈ (invoke sys n frame s).body
        ∨ (∃ body, .delegate before after body ∈ (invoke sys n frame s).body) →
        φ before.storage ≤ φ after.storage)
    (hother : ∀ n frame s, ¬pays frame → (invoke sys n frame s).ok = true →
      g frame (invoke sys n frame s).body = 0)
    (hpays : ∀ n frame s, pays frame → (invoke sys n frame s).ok = true →
      g frame (invoke sys n frame s).body ≤ ((invoke sys n frame s).body.map (Event.rise φ)).sum
        ∧ total g (invoke sys n frame s).body = 0)
    (n : Nat) (frame : Frame M) (s : State T)
    : total g [callEvent sys n frame s] + φ s.world.storage
        ≤ φ (invoke sys n frame s).state.world.storage := by
  rw [total_singleton]
  change Event.total g (.call frame s.world _ (invoke sys n frame s).ok _ _) + _ ≤ _
  cases hok : (invoke sys n frame s).ok with
  | false =>
    rw [invoke_failed sys hok]
    apply Nat.le_of_eq (Nat.zero_add _)
  | true =>
    apply invoke_total_le sys φ pays hkept hother hpays hok

end

end Evm
