import FalconSmartAccount.Evm.Trace

/-!
The writes to the storage that a run leaves behind, in the order in which they happened.
-/

namespace Evm

/-- A write, the frame that made it, and all that this frame did. -/
structure Write (T M R L : Type) where
  frame : Frame M
  body : List (Event T M R L)
  before : World T
  after : World T

variable {S T M R L : Type}

mutual

/-- The writes of an event that no revert has taken back. -/
def Event.writes (frame : Frame M) (whole : List (Event T M R L)) : Event T M R L → List (Write T M R L)
  | .sstore before after => [⟨frame, whole, before, after⟩]
  | .call callee _ _ true _ body => Evm.writes callee body body
  | _ => []
termination_by structural e => e

/-- The same from here on in a frame, which does `whole`. -/
def writes (frame : Frame M) (whole : List (Event T M R L)) : List (Event T M R L) → List (Write T M R L)
  | [] => []
  | e :: t => e.writes frame whole ++ writes frame whole t
termination_by structural t => t

end

/-- The writes lead from the first value of a part of the storage to the last one. -/
inductive Chained (part : T → S) : S → List (Write T M R L) → S → Prop where
  | nil {v} : Chained part v [] v
  | cons {w v ws} :
      Chained part (part w.after.storage) ws v → Chained part (part w.before.storage) (w :: ws) v

theorem Chained.append {part : T → S} {v v' v'' : S} {ws ws' : List (Write T M R L)}
    (h : Chained part v ws v') (h' : Chained part v' ws' v'')
    : Chained part v (ws ++ ws') v'' := by
  induction h with
  | nil => exact h'
  | cons _ ih => exact .cons (ih h')

theorem Chained.split {part : T → S} {v v' : S} {ws ws' : List (Write T M R L)}
    (h : Chained part v (ws ++ ws') v')
    : ∃ v1, Chained part v ws v1 ∧ Chained part v1 ws' v' := by
  induction ws generalizing v with
  | nil => exact ⟨v, .nil, h⟩
  | cons w ws ih =>
    cases h with
    | cons h =>
      obtain ⟨v1, hfirst, hrest⟩ := ih h
      exact ⟨v1, .cons hfirst, hrest⟩

/-- The write is one of the frame itself or of a committed frame. -/
def Write.Of (frame : Frame M) (whole t : List (Event T M R L)) (w : Write T M R L) : Prop :=
  w.frame = frame ∧ w.body = whole ∧ .sstore w.before w.after ∈ t
    ∨ .sstore w.before w.after ∈ w.body
      ∧ ∃ before after data, Committed (.call w.frame before after true data w.body) t

theorem Write.Of.mono {frame : Frame M} {whole t t' : List (Event T M R L)} {w : Write T M R L}
    (h : w.Of frame whole t) (hsub : ∀ e ∈ t, e ∈ t')
    : w.Of frame whole t' := by
  rcases h with ⟨hframe, hbody, hmem⟩ | ⟨hmem, before, after, data, hcommitted⟩
  . exact .inl ⟨hframe, hbody, hsub _ hmem⟩
  . exact .inr ⟨hmem, before, after, data, hcommitted.mono hsub⟩

theorem of_mem_writes {frame : Frame M} {whole t : List (Event T M R L)} {w : Write T M R L}
    : w ∈ writes frame whole t → w.Of frame whole t := by
  refine writes.induct (fun frame whole e => w ∈ e.writes frame whole → w.Of frame whole [e])
    (fun frame whole t => w ∈ writes frame whole t → w.Of frame whole t) ?_ ?_ ?_ ?_ ?_ frame whole t
  . intro frame whole before after h
    rw [Event.writes, List.mem_singleton] at h
    rw [h]
    exact .inl ⟨rfl, rfl, List.mem_cons_self⟩
  . intro frame whole callee before after data body ih h
    rcases ih h with ⟨hframe, hbody, hmem⟩ | ⟨hmem, before', after', data', hcommitted⟩
    . rw [← hbody] at hmem
      rw [← hframe, ← hbody]
      exact .inr ⟨hmem, before, after, data, .here List.mem_cons_self⟩
    . exact .inr ⟨hmem, before', after', data', .inside List.mem_cons_self hcommitted⟩
  . intro e frame whole hsstore hcall h
    rw [Event.writes.eq_3 _ _ _ hsstore hcall] at h
    exact absurd h List.not_mem_nil
  . exact fun _ _ h => absurd h List.not_mem_nil
  . intro frame whole e t ihe iht h
    rcases List.mem_append.mp h with h | h
    . exact (ihe h).mono fun e' he' => by rw [List.mem_singleton.mp he']; exact List.mem_cons_self
    . exact (iht h).mono fun _ => List.mem_cons_of_mem _

/-! ## Runs -/

/-- How an event contributes to the change of a part of the storage. -/
def Event.Contributes (part : T → S) : Event T M R L → Prop
  | .call callee before after true _ body =>
    Chained part (part before.storage) (Evm.writes callee body body) (part after.storage)
  | .call _ before after false _ _ | .push before after | .delegate before after _ =>
    part after.storage = part before.storage
  | .enter _ | .log _ | .sstore _ _ => True

theorem Leads.chained {part : T → S} {frame : Frame M} {whole : List (Event T M R L)} {w w' : World T}
    {t : List (Event T M R L)} (h : Leads w t w') (hevents : ∀ e ∈ t, e.Contributes part)
    : Chained part (part w.storage) (writes frame whole t) (part w'.storage) := by
  induction h with
  | nil => exact .nil
  | enter _ ih => exact ih fun e he => hevents e (List.mem_cons_of_mem _ he)
  | log _ ih => exact ih fun e he => hevents e (List.mem_cons_of_mem _ he)
  | move hmove _ ih =>
    have hrest := ih fun e he => hevents e (List.mem_cons_of_mem _ he)
    have hfirst := hevents _ List.mem_cons_self
    cases hmove with
    | sstore => exact Chained.cons (w := ⟨frame, whole, _, _⟩) hrest
    | push | delegate =>
      rw [← show _ = _ from hfirst]
      exact hrest
    | @call callee before after ok data body =>
      cases ok with
      | false =>
        rw [← show _ = _ from hfirst]
        exact hrest
      | true => exact Chained.append hfirst hrest

section

variable [Inhabited R] (sys : System T M R L)

/-- The writes of a call that does not revert lead from its start to its end, if nothing else can
change this part of the storage. -/
theorem invoke_chained {part : T → S} {n : Nat} {frame : Frame M} {s : State T}
    (hdelegate : ∀ before after body, Committed (.delegate before after body) (invoke sys n frame s).body →
      part after.storage = part before.storage)
    (hok : (invoke sys n frame s).ok = true)
    : Chained part (part s.world.storage)
        (writes frame (invoke sys n frame s).body (invoke sys n frame s).body)
        (part (invoke sys n frame s).state.world.storage) := by
  induction n using Nat.strong_induction_on generalizing frame s with
  | _ n ih =>
    obtain ⟨w, hw, hleads⟩ := invoke_leads sys hok
    rw [← hw]
    apply hleads.chained
    intro e he
    cases e with
    | enter | log | sstore => trivial
    | delegate before after body => exact hdelegate before after body (.here he)
    | push before after =>
      rcases invoke_body sys he with ⟨w', hw'⟩ | ⟨m, _, program, s1, he⟩
      . cases hw'
      . exact congrArg part (run_push sys he)
    | call callee before after ok data body =>
      obtain ⟨_, _, m, hm, s1, s2, hinvoke, rfl, rfl⟩ := invoke_call sys he
      have hworld : (invoke sys m callee s1).state.world = s2.world := by rw [hinvoke]
      cases ok with
      | false =>
        have hfailed : (invoke sys m callee s1).state.world = s1.world := invoke_failed sys (by rw [hinvoke])
        rw [hworld] at hfailed
        exact congrArg (fun w => part w.storage) hfailed
      | true =>
        have hcallee := @ih m hm callee s1 (by
            rw [hinvoke]
            exact fun before after body h => hdelegate before after body (.inside he h))
          (by rw [hinvoke])
        rw [hinvoke] at hcallee
        exact hcallee

theorem callEvent_chained (part : T → S) {n : Nat} {frame frame' : Frame M} {s : State T}
    {whole : List (Event T M R L)}
    (hdelegate : ∀ before after body, Committed (.delegate before after body) [callEvent sys n frame s] →
      part after.storage = part before.storage)
    : Chained part (part s.world.storage) (writes frame' whole [callEvent sys n frame s])
        (part (invoke sys n frame s).state.world.storage) := by
  change Chained part _ (writes frame' whole [.call frame s.world _ (invoke sys n frame s).ok _ _]) _
  cases hok : (invoke sys n frame s).ok with
  | false =>
    rw [invoke_failed sys hok]
    exact .nil
  | true =>
    change Chained part _ (writes frame _ _ ++ []) _
    rw [List.append_nil]
    exact invoke_chained sys
      (fun before after body h => hdelegate before after body (committed_callEvent sys hok h)) hok

end

end Evm
