import FalconSmartAccount.Evm.Writes

/-!
The frames that a run leaves behind. What each of them does by its own writes, all of them do by all of
their writes.
-/

namespace Evm

variable {T M R L α : Type}

mutual

/-- The frames of an event that have not reverted. -/
def Event.frames : Event T M R L → List (Frame M)
  | .call callee _ _ true _ body => callee :: Evm.frames body
  | _ => []
termination_by structural e => e

def frames : List (Event T M R L) → List (Frame M)
  | [] => []
  | e :: t => e.frames ++ frames t
termination_by structural t => t

end

theorem committed_of_mem_frames {frame : Frame M} {t : List (Event T M R L)}
    : frame ∈ frames t → ∃ before after data body, Committed (.call frame before after true data body) t := by
  refine frames.induct
    (fun e => frame ∈ e.frames → ∃ before after data body, Committed (.call frame before after true data body) [e])
    (fun t => frame ∈ frames t → ∃ before after data body, Committed (.call frame before after true data body) t)
    ?_ ?_ ?_ ?_ t
  . intro callee before after data body ih h
    rcases List.mem_cons.mp h with rfl | h
    . exact ⟨before, after, data, body, .here List.mem_cons_self⟩
    . obtain ⟨before', after', data', body', hcommitted⟩ := ih h
      exact ⟨before', after', data', body', .inside List.mem_cons_self hcommitted⟩
  . intro e hcall h
    rw [Event.frames.eq_2 _ hcall] at h
    exact absurd h List.not_mem_nil
  . exact fun h => absurd h List.not_mem_nil
  . intro e t ihe iht h
    rcases List.mem_append.mp h with h | h
    . obtain ⟨before, after, data, body, hcommitted⟩ := ihe h
      refine ⟨before, after, data, body, hcommitted.mono fun e' he' => ?_⟩
      rw [List.mem_singleton.mp he']
      exact List.mem_cons_self
    . obtain ⟨before, after, data, body, hcommitted⟩ := iht h
      exact ⟨before, after, data, body, hcommitted.mono fun _ => List.mem_cons_of_mem _⟩

/-- The writes of a frame without those of the frames that it calls. -/
def ownWrites (frame : Frame M) (whole : List (Event T M R L)) (t : List (Event T M R L))
    : List (Write T M R L) :=
  t.filterMap fun
    | .sstore before after => some ⟨frame, whole, before, after⟩
    | _ => none

theorem ownWrites_append (frame : Frame M) (whole t t' : List (Event T M R L))
    : ownWrites frame whole (t ++ t') = ownWrites frame whole t ++ ownWrites frame whole t' :=
  List.filterMap_append

theorem mem_ownWrites {frame : Frame M} {whole t : List (Event T M R L)} {before after : World T}
    (h : .sstore before after ∈ t)
    : ⟨frame, whole, before, after⟩ ∈ ownWrites frame whole t :=
  List.mem_filterMap.mpr ⟨_, h, rfl⟩

section

variable [Inhabited R] (sys : System T M R L) [BEq α] {f : Frame M → List α}
  {g : Write T M R L → List α}

/-- Nothing is counted twice in a sum over frames, as long as each frame can account for its part of it
by writes of its own. -/
theorem invoke_count_le
    (hown : ∀ n frame s, (invoke sys n frame s).ok = true → ∀ a, (f frame).count a
      ≤ ((ownWrites frame (invoke sys n frame s).body (invoke sys n frame s).body).flatMap g).count a)
    {n : Nat} {frame : Frame M} {s : State T} (hok : (invoke sys n frame s).ok = true) (a : α)
    : ((frame :: frames (invoke sys n frame s).body).flatMap f).count a
        ≤ ((writes frame (invoke sys n frame s).body (invoke sys n frame s).body).flatMap g).count a := by
  induction n using Nat.strong_induction_on generalizing frame s with
  | _ n ih =>
    have hrest (whole t : List (Event T M R L)) (ht : ∀ e ∈ t, e ∈ (invoke sys n frame s).body)
        : ((frames t).flatMap f).count a + ((ownWrites frame whole t).flatMap g).count a
            ≤ ((writes frame whole t).flatMap g).count a := by
      induction t with
      | nil => exact Nat.le_refl _
      | cons e t iht =>
        have hlater := iht fun e he => ht e (List.mem_cons_of_mem _ he)
        have hfirst : (e.frames.flatMap f).count a + ((ownWrites frame whole [e]).flatMap g).count a
            ≤ ((e.writes frame whole).flatMap g).count a := by
          cases e with
          | sstore before after => exact (Nat.zero_add _).le
          | call callee before after ok data body =>
            cases ok with
            | false => exact Nat.le_refl _
            | true =>
              obtain ⟨_, _, m, hm, s1, s2, hinvoke, _, _⟩ := invoke_call sys (ht _ List.mem_cons_self)
              have hcallee := @ih m hm callee s1 (by rw [hinvoke])
              rw [hinvoke] at hcallee
              exact hcallee
          | _ => exact Nat.le_refl _
        have hsplit : ownWrites frame whole (e :: t) = ownWrites frame whole [e] ++ ownWrites frame whole t :=
          ownWrites_append frame whole [e] t
        rw [hsplit]
        change ((e.frames ++ frames t).flatMap f).count a + _
          ≤ ((e.writes frame whole ++ writes frame whole t).flatMap g).count a
        simp only [List.flatMap_append, List.count_append]
        omega
    have hframe := hown n frame s hok a
    have hbody := hrest (invoke sys n frame s).body (invoke sys n frame s).body fun _ he => he
    rw [List.flatMap_cons, List.count_append]
    omega

end

end Evm
