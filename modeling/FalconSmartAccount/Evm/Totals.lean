import FalconSmartAccount.Evm.Frames

/-!
Sums over the frames that a run leaves behind. Two ways of counting agree on a whole run if they agree on
each frame, where a frame may answer for some of the frames that it calls.
-/

namespace Evm

variable {T M R L A : Type}

theorem frames_append (t t' : List (Event T M R L)) : frames (t ++ t') = frames t ++ frames t' := by
  induction t with
  | nil => rfl
  | cons e t ih =>
    change e.frames ++ frames (t ++ t') = e.frames ++ frames t ++ frames t'
    rw [ih, List.append_assoc]

section

variable [AddCommMonoid A]

mutual

/-- The sum of `g` over the frames of an event that have not reverted. -/
def Event.total (g : Frame M → List (Event T M R L) → A) : Event T M R L → A
  | .call callee _ _ true _ body => g callee body + Evm.total g body
  | _ => 0
termination_by structural e => e

def total (g : Frame M → List (Event T M R L) → A) : List (Event T M R L) → A
  | [] => 0
  | e :: t => e.total g + total g t
termination_by structural t => t

end

variable {g g' : Frame M → List (Event T M R L) → A} {t : List (Event T M R L)}

theorem total_singleton (e : Event T M R L) : total g [e] = e.total g := add_zero _

theorem total_append (t t' : List (Event T M R L)) : total g (t ++ t') = total g t + total g t' := by
  induction t with
  | nil => exact (zero_add _).symm
  | cons e t ih =>
    change e.total g + total g (t ++ t') = e.total g + total g t + total g t'
    rw [ih, add_assoc]

theorem total_add (t : List (Event T M R L))
    : total (fun frame body => g frame body + g' frame body) t = total g t + total g' t := by
  refine total.induct
    (fun e => e.total (fun frame body => g frame body + g' frame body) = e.total g + e.total g')
    (fun t => total (fun frame body => g frame body + g' frame body) t = total g t + total g' t)
    ?_ ?_ ?_ ?_ t
  . intro callee before after data body ih
    change g callee body + g' callee body + total _ body = g callee body + total g body + _
    rw [ih]
    exact add_add_add_comm _ _ _ _
  . intro e hcall
    rw [Event.total.eq_2 _ _ hcall, Event.total.eq_2 _ _ hcall, Event.total.eq_2 _ _ hcall, add_zero]
  . exact (add_zero _).symm
  . intro e t ihe iht
    change e.total _ + total _ t = e.total g + total g t + (e.total g' + total g' t)
    rw [ihe, iht]
    exact add_add_add_comm _ _ _ _

/-- What only depends on the frames is summed over them. -/
theorem total_frames (f : Frame M → A) (t : List (Event T M R L))
    : total (fun frame _ => f frame) t = ((frames t).map f).sum := by
  refine total.induct (fun e => e.total (fun frame _ => f frame) = (e.frames.map f).sum)
    (fun t => total (fun frame _ => f frame) t = ((frames t).map f).sum) ?_ ?_ ?_ ?_ t
  . intro callee before after data body ih
    change f callee + total _ body = f callee + ((frames body).map f).sum
    rw [ih]
  . intro e hcall
    have hframes : e.frames = [] := by
      unfold Event.frames
      split
      . exact absurd rfl (hcall _ _ _ _ _)
      . rfl
    rw [Event.total.eq_2 _ _ hcall, hframes]
    rfl
  . rfl
  . intro e t ihe iht
    change e.total _ + total _ t = ((e.frames ++ frames t).map f).sum
    rw [List.map_append, List.sum_append, ihe, iht]

theorem total_congr (h : ∀ e ∈ t, e.total g = e.total g') : total g t = total g' t := by
  induction t with
  | nil => rfl
  | cons e t ih =>
    have hfirst := h e List.mem_cons_self
    have hrest := ih fun e he => h e (List.mem_cons_of_mem _ he)
    change e.total g + total g t = e.total g' + total g' t
    rw [hfirst, hrest]

/-- A sum only depends on the frames that have not reverted. -/
theorem total_congr_committed
    : (∀ callee before after data body, Committed (.call callee before after true data body) t →
        g callee body = g' callee body) → total g t = total g' t := by
  refine total.induct
    (fun e => (∀ callee before after data body, Committed (.call callee before after true data body) [e] →
      g callee body = g' callee body) → e.total g = e.total g')
    (fun t => (∀ callee before after data body, Committed (.call callee before after true data body) t →
      g callee body = g' callee body) → total g t = total g' t) ?_ ?_ ?_ ?_ t
  . intro callee before after data body ih h
    have hcall : .call callee before after true data body ∈ [Event.call callee before after true data body] :=
      List.mem_singleton_self _
    change g callee body + total g body = g' callee body + total g' body
    rw [h callee before after data body (.here hcall)]
    rw [ih fun callee' before' after' data' body' hinside =>
      h callee' before' after' data' body' (.inside hcall hinside)]
  . intro e hcall _
    rw [Event.total.eq_2 _ _ hcall]
    rw [Event.total.eq_2 _ _ hcall]
  . intro _
    rfl
  . intro e t ihe iht h
    change e.total g + total g t = e.total g' + total g' t
    rw [ihe fun callee before after data body hcommitted =>
      h callee before after data body (hcommitted.mono fun e' he' => by
        rw [List.mem_singleton.mp he']
        apply List.mem_cons_self)]
    rw [iht fun callee before after data body hcommitted =>
      h callee before after data body (hcommitted.mono fun _ => List.mem_cons_of_mem _)]

theorem total_zero (t : List (Event T M R L)) : total (fun _ _ => (0 : A)) t = 0 := by
  rw [total_frames fun _ => (0 : A)]
  apply List.sum_eq_zero
  intro a ha
  obtain ⟨_, _, rfl⟩ := List.mem_map.mp ha
  rfl

/-- The sum over all writes, frame by frame. -/
theorem sum_writes (φ : Write T M R L → A) (frame : Frame M) (whole t : List (Event T M R L))
    : ((writes frame whole t).map φ).sum
        = ((ownWrites frame whole t).map φ).sum
          + total (fun frame body => ((ownWrites frame body body).map φ).sum) t := by
  refine writes.induct
    (fun frame whole e => ((e.writes frame whole).map φ).sum = ((ownWrites frame whole [e]).map φ).sum
      + e.total fun frame body => ((ownWrites frame body body).map φ).sum)
    (fun frame whole t => ((writes frame whole t).map φ).sum = ((ownWrites frame whole t).map φ).sum
      + total (fun frame body => ((ownWrites frame body body).map φ).sum) t)
    ?_ ?_ ?_ ?_ ?_ frame whole t
  . exact fun _ _ _ _ => (add_zero _).symm
  . intro frame whole callee before after data body ih
    exact ih.trans (zero_add _).symm
  . intro e frame whole hsstore hcall
    have hown : ownWrites frame whole [e] = [] := by
      cases e with
      | sstore before after => exact absurd rfl (hsstore before after)
      | _ => rfl
    rw [Event.writes.eq_3 _ _ _ hsstore hcall, Event.total.eq_2 _ _ hcall, hown]
    exact (add_zero _).symm
  . exact fun _ _ => (add_zero _).symm
  . intro frame whole e t ihe iht
    have hsplit : ownWrites frame whole (e :: t) = ownWrites frame whole [e] ++ ownWrites frame whole t :=
      ownWrites_append frame whole [e] t
    change ((e.writes frame whole ++ writes frame whole t).map φ).sum = _ + (e.total _ + total _ t)
    rw [hsplit]
    simp only [List.map_append, List.sum_append]
    rw [ihe, iht]
    exact add_add_add_comm _ _ _ _

end

/-! ## Two ways of counting -/

section

variable [AddCommMonoid A] (answers : Frame M → Prop) [DecidablePred answers]

/-- What is counted for a call by itself, if the frame that makes the call answers for it. -/
def Event.answered (g : Frame M → List (Event T M R L) → A) : Event T M R L → A
  | .call callee _ _ true _ body => if answers callee then g callee body else 0
  | _ => 0

def answered (g : Frame M → List (Event T M R L) → A) (t : List (Event T M R L)) : A :=
  (t.map (Event.answered answers g)).sum

variable {answers} {g g' : Frame M → List (Event T M R L) → A} {t : List (Event T M R L)}

theorem total_add_answered
    (h : ∀ e ∈ t, e.total g + e.answered answers g' = e.total g' + e.answered answers g)
    : total g t + answered answers g' t = total g' t + answered answers g t := by
  induction t with
  | nil => rfl
  | cons e t ih =>
    have hfirst := h e List.mem_cons_self
    have hrest := ih fun e he => h e (List.mem_cons_of_mem _ he)
    change e.total g + total g t + (e.answered answers g' + answered answers g' t)
      = e.total g' + total g' t + (e.answered answers g + answered answers g t)
    rw [add_add_add_comm, hfirst, hrest]
    exact add_add_add_comm _ _ _ _

end

section

variable [Inhabited R] (sys : System T M R L) [AddCancelCommMonoid A]
  {g g' : Frame M → List (Event T M R L) → A} {P answers : Frame M → Prop} [DecidablePred answers]

/-- A call that succeeds, together with all that it has called. No frame answers for another one that
answers for it in turn. -/
theorem invoke_total
    (hstep : ∀ n frame s callee before after data body, P frame → (invoke sys n frame s).ok = true →
      .call callee before after true data body ∈ (invoke sys n frame s).body →
        P callee ∧ (answers frame → ¬answers callee))
    (hown : ∀ n frame s, P frame → ¬answers frame → (invoke sys n frame s).ok = true →
      g frame (invoke sys n frame s).body + answered answers g (invoke sys n frame s).body
        = g' frame (invoke sys n frame s).body + answered answers g' (invoke sys n frame s).body)
    {n : Nat} {frame : Frame M} {s : State T} (hframe : P frame) (hnot : ¬answers frame)
    (hok : (invoke sys n frame s).ok = true)
    : g frame (invoke sys n frame s).body + total g (invoke sys n frame s).body
        = g' frame (invoke sys n frame s).body + total g' (invoke sys n frame s).body := by
  induction n using Nat.strong_induction_on generalizing frame s with
  | _ n ih =>
    -- a frame that is answered for answers for nothing itself
    have hbelow (m : Nat) (hm : m < n) (callee : Frame M) (s1 : State T) (hcallee : P callee)
        (hanswers : answers callee) (hok1 : (invoke sys m callee s1).ok = true)
        : total g (invoke sys m callee s1).body = total g' (invoke sys m callee s1).body := by
      apply total_congr
      intro e he
      cases e with
      | call callee' before after ok data body =>
        cases ok with
        | false => rfl
        | true =>
          obtain ⟨hcallee', hnot'⟩ := hstep m callee s1 _ _ _ _ _ hcallee hok1 he
          obtain ⟨_, _, m', hm', s2, s3, hinvoke, _⟩ := invoke_call sys he
          have htotal := ih m' (Nat.lt_trans hm' hm) (s := s2) hcallee' (hnot' hanswers) (by rw [hinvoke])
          rw [hinvoke] at htotal
          exact htotal
      | _ => rfl
    have hbody : total g (invoke sys n frame s).body + answered answers g' (invoke sys n frame s).body
        = total g' (invoke sys n frame s).body + answered answers g (invoke sys n frame s).body := by
      apply total_add_answered
      intro e he
      cases e with
      | call callee before after ok data body =>
        cases ok with
        | false => rfl
        | true =>
          obtain ⟨hcallee, _⟩ := hstep n frame s _ _ _ _ _ hframe hok he
          obtain ⟨_, _, m, hm, s1, s2, hinvoke, _⟩ := invoke_call sys he
          change g callee body + total g body + (if answers callee then g' callee body else 0)
            = g' callee body + total g' body + if answers callee then g callee body else 0
          by_cases hanswers : answers callee
          . have htotal := hbelow m hm callee s1 hcallee hanswers (by rw [hinvoke])
            rw [hinvoke] at htotal
            rw [if_pos hanswers, if_pos hanswers, htotal]
            abel
          . have htotal := ih m hm (s := s1) hcallee hanswers (by rw [hinvoke])
            rw [hinvoke] at htotal
            rw [if_neg hanswers, if_neg hanswers, add_zero, add_zero]
            exact htotal
      | _ => rfl
    have hframe' := hown n frame s hframe hnot hok
    apply add_right_cancel (b := answered answers g (invoke sys n frame s).body
      + answered answers g' (invoke sys n frame s).body)
    rw [add_add_add_comm, hframe', hbody]
    abel

/-- The same for a call that may fail. -/
theorem callEvent_total
    (hstep : ∀ n frame s callee before after data body, P frame → (invoke sys n frame s).ok = true →
      .call callee before after true data body ∈ (invoke sys n frame s).body →
        P callee ∧ (answers frame → ¬answers callee))
    (hown : ∀ n frame s, P frame → ¬answers frame → (invoke sys n frame s).ok = true →
      g frame (invoke sys n frame s).body + answered answers g (invoke sys n frame s).body
        = g' frame (invoke sys n frame s).body + answered answers g' (invoke sys n frame s).body)
    {n : Nat} {frame : Frame M} {s : State T} (hframe : P frame)
    (hnot : (invoke sys n frame s).ok = true → ¬answers frame)
    : total g [callEvent sys n frame s] = total g' [callEvent sys n frame s] := by
  rw [total_singleton, total_singleton]
  change Event.total g (.call frame s.world _ (invoke sys n frame s).ok _ _)
    = Event.total g' (.call frame s.world _ (invoke sys n frame s).ok _ _)
  cases hok : (invoke sys n frame s).ok with
  | false => rfl
  | true => exact invoke_total sys hstep hown hframe (hnot hok) hok

end

end Evm
