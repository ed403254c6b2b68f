import FalconSmartAccount.Evm.Logic

/-!
What a trace tells: which calls were made, which of its events have not been taken back, and how the
storage came from its old to its new value.
-/

namespace Evm

variable {S T M R L α β : Type}

/-- The event happened, in the frame itself or in one that it called. What the code of a `delegatecall` did
is part of the event of the `delegatecall`. -/
inductive Within (e : Event T M R L) : List (Event T M R L) → Prop where
  | here {t} : e ∈ t → Within e t
  | inside {frame before after ok data body t} :
      .call frame before after ok data body ∈ t → Within e body → Within e t

/-- The event happened and no revert has taken it back. -/
inductive Committed (e : Event T M R L) : List (Event T M R L) → Prop where
  | here {t} : e ∈ t → Committed e t
  | inside {frame before after data body t} :
      .call frame before after true data body ∈ t → Committed e body → Committed e t

theorem Committed.within {e : Event T M R L} {t : List (Event T M R L)} (h : Committed e t)
    : Within e t := by
  induction h with
  | here h => exact .here h
  | inside h _ ih => exact .inside h ih

theorem Committed.mono {e : Event T M R L} {t t' : List (Event T M R L)} (h : Committed e t)
    (hsub : ∀ e ∈ t, e ∈ t')
    : Committed e t' := by
  cases h with
  | here h => exact .here (hsub _ h)
  | inside h hbody => exact .inside (hsub _ h) hbody

/-- A point is outside of all `delegatecall`s unless the code of one of them leads to it. -/
theorem Visited.outside_or {w : World T} {t : List (Event T M R L)} (h : Visited w t)
    : Outside w t ∨ ∃ before after body, Within (.delegate before after body) t
        ∧ (w = after ∨ Visited w body) := by
  induction h with
  | enter h => exact .inl (.enter h)
  | sstore h => exact .inl (.sstore h)
  | push h => exact .inl (.push h)
  | called h => exact .inl (.called h)
  | inside h _ ih =>
    rcases ih with houtside | ⟨before, after, body, hwithin, hw⟩
    . exact .inl (.inside h houtside)
    . exact .inr ⟨before, after, body, .inside h hwithin, hw⟩
  | delegated h => exact .inr ⟨_, _, _, .here h, .inl rfl⟩
  | insideDelegate h hbody _ => exact .inr ⟨_, _, _, .here h, .inr hbody⟩

/-- A world that something within has passed has been passed. -/
theorem Outside.of_within {w : World T} {frame : Frame M} {before after : World T} {ok : Bool}
    {data : R} {body t : List (Event T M R L)} (h : Within (.call frame before after ok data body) t)
    (hw : Outside w body)
    : Outside w t := by
  induction h with
  | here h => exact .inside h hw
  | inside h _ ih => exact .inside h ih

/-- A committed event is an event of a committed frame. -/
theorem Committed.frame {e : Event T M R L} {t : List (Event T M R L)} (h : Committed e t)
    : e ∈ t ∨ ∃ frame before after data body,
        Committed (.call frame before after true data body) t ∧ e ∈ body := by
  induction h with
  | here h => exact .inl h
  | @inside frame before after data body t hcall _ ih =>
    refine .inr ?_
    rcases ih with hmem | ⟨frame', before', after', data', body', hcommitted, hmem⟩
    . exact ⟨frame, before, after, data, body, .here hcall, hmem⟩
    . exact ⟨frame', before', after', data', body', .inside hcall hcommitted, hmem⟩

/-- What is committed in a committed frame. -/
theorem Committed.trans {e : Event T M R L} {frame : Frame M} {before after : World T} {data : R}
    {body t : List (Event T M R L)} (h : Committed (.call frame before after true data body) t)
    (he : Committed e body)
    : Committed e t := by
  generalize heq : Event.call frame before after true data body = e' at h
  induction h with
  | here h =>
    rw [← heq] at h
    exact .inside h he
  | inside hcall _ ih => exact .inside hcall ih

/-- What each committed frame hands on to what it does holds of all that is committed. -/
theorem Committed.induct {t : List (Event T M R L)} {P : Event T M R L → Prop} (htop : ∀ e ∈ t, P e)
    (hstep : ∀ frame before after data body, Committed (.call frame before after true data body) t →
      P (.call frame before after true data body) → ∀ e ∈ body, P e)
    {e : Event T M R L} (h : Committed e t)
    : P e := by
  have hpart : ∀ t', (∀ e ∈ t', Committed e t ∧ P e) → Committed e t' → P e := by
    intro t' ht' h
    induction h with
    | here h => exact (ht' _ h).2
    | inside hcall _ ih =>
      obtain ⟨hcommitted, hframe⟩ := ht' _ hcall
      exact ih fun e he => ⟨hcommitted.trans (.here he), hstep _ _ _ _ _ hcommitted hframe e he⟩
  exact hpart t (fun e he => ⟨.here he, htop e he⟩) h

/-! ## Calls -/

section

variable [Inhabited R] (sys : System T M R L)

/-- A property of what single operations do is one of what a run does. -/
theorem run_events {inv : Frame M → State T → Reply T M R L} {frame : Frame M}
    {C : Event T M R L → Prop}
    (h : ∀ (o : Op T M R L) s, ∀ e ∈ (perform sys inv frame o s).2.2, C e) (p : Prog T M R L α)
    (s : State T)
    : ∀ e ∈ (run sys inv frame p s).trace, C e := by
  induction p generalizing s with
  | ret a => exact fun e he => absurd he List.not_mem_nil
  | revert data => exact fun e he => absurd he List.not_mem_nil
  | op o k ih =>
    intro e he
    cases hs : s.charge frame.env with
    | none =>
      rw [run_op_none sys inv frame hs] at he
      exact absurd he List.not_mem_nil
    | some s1 =>
      rw [run_op_some sys inv frame hs rfl] at he
      rcases List.mem_append.mp he with he | he
      . exact h o s1 e he
      . exact ih _ _ e he

/-- What the body of a call consists of. -/
theorem invoke_body {n : Nat} {frame : Frame M} {s : State T} {e : Event T M R L}
    (h : e ∈ (invoke sys n frame s).body)
    : (∃ w, e = .enter w) ∨ ∃ m < n, ∃ (program : Prog T M R L R) (s1 : State T),
        e ∈ (run sys (invoke sys m) frame program s1).trace := by
  cases n with
  | zero => exact absurd h List.not_mem_nil
  | succ m =>
    unfold invoke at h
    cases hl : s.world.ledger.transfer frame.caller frame.self frame.value with
    | none =>
      rw [hl] at h
      exact absurd h List.not_mem_nil
    | some ledger =>
      rw [hl] at h
      dsimp only at h
      cases hc : sys.code s.world.storage frame.self with
      | none =>
        rw [hc] at h
        exact .inl ⟨_, List.mem_singleton.mp h⟩
      | some program =>
        rw [hc] at h
        dsimp only at h
        let s1 : State T := { s with world := { s.world with ledger := ledger } }
        have hmem : e ∈ .enter s1.world :: (run sys (invoke sys m) frame (program frame) s1).trace := by
          cases ho : (run sys (invoke sys m) frame (program frame) s1).outcome with
          | ok data =>
            rw [ho] at h
            exact h
          | error data =>
            rw [ho] at h
            exact h
        rcases List.mem_cons.mp hmem with heq | hmem
        . exact .inl ⟨_, heq⟩
        . exact .inr ⟨m, Nat.lt_succ_self m, program frame, s1, hmem⟩

/-- A call in the body of a call is a call of its own, one level deeper. -/
theorem invoke_call {n : Nat} {frame : Frame M} {s : State T} {callee : Frame M}
    {before after : World T} {ok : Bool} {data : R} {body : List (Event T M R L)}
    (h : .call callee before after ok data body ∈ (invoke sys n frame s).body)
    : callee.caller = frame.self ∧ callee.env = frame.env ∧ ∃ m < n, ∃ s1 s2,
        invoke sys m callee s1 = ⟨ok, data, s2, body⟩ ∧ s1.world = before ∧ s2.world = after := by
  rcases invoke_body sys h with ⟨w, hw⟩ | ⟨m, hm, program, s1, h⟩
  . cases hw
  . revert h
    have := @run_events _ _ _ _ R _ sys (invoke sys m) frame
      (fun e => ∀ callee before after ok data body, e = .call callee before after ok data body →
        callee.caller = frame.self ∧ callee.env = frame.env ∧ ∃ s1 s2,
          invoke sys m callee s1 = ⟨ok, data, s2, body⟩ ∧ s1.world = before ∧ s2.world = after)
      ?_ program s1
    . intro h
      obtain ⟨hcaller, henv, s1, s2, hinvoke⟩ := this _ h callee before after ok data body rfl
      exact ⟨hcaller, henv, m, hm, s1, s2, hinvoke⟩
    . intro o s e he callee before after ok data body heq
      subst heq
      cases o with
      | call c =>
        cases List.mem_singleton.mp he
        exact ⟨rfl, rfl, _, _, rfl, rfl, rfl⟩
      | push target value =>
        simp only [perform] at he
        split at he <;> simp at he
      | _ => simp [perform] at he

theorem invoke_within {n : Nat} {frame : Frame M} {s : State T} {callee : Frame M}
    {before after : World T} {ok : Bool} {data : R} {body : List (Event T M R L)}
    (h : Within (.call callee before after ok data body) (invoke sys n frame s).body)
    : callee.env = frame.env ∧ ∃ m < n, ∃ s1 s2,
        invoke sys m callee s1 = ⟨ok, data, s2, body⟩ ∧ s1.world = before ∧ s2.world = after := by
  induction n using Nat.strong_induction_on generalizing frame s with
  | _ n ih =>
    cases h with
    | here h =>
      obtain ⟨_, hrest⟩ := invoke_call sys h
      exact hrest
    | @inside frame' _ _ _ _ _ _ hcall hbody =>
      obtain ⟨_, henv, m, hm, s1, s2, hinvoke, _, _⟩ := invoke_call sys hcall
      have hbody' : Within (.call callee before after ok data body) (invoke sys m frame' s1).body := by
        rw [hinvoke]
        exact hbody
      obtain ⟨henv', m', hm', hrest⟩ := ih m hm hbody'
      exact ⟨henv'.trans henv, m', Nat.lt_trans hm' hm, hrest⟩

/-- A call as an event of its own. -/
def callEvent (n : Nat) (frame : Frame M) (s : State T) : Event T M R L :=
  let r := invoke sys n frame s
  .call frame s.world r.state.world r.ok r.data r.body

theorem committed_callEvent {n : Nat} {frame : Frame M} {s : State T} {e : Event T M R L}
    (hok : (invoke sys n frame s).ok = true) (he : Committed e (invoke sys n frame s).body)
    : Committed e [callEvent sys n frame s] := by
  have hmem : .call frame s.world (invoke sys n frame s).state.world true (invoke sys n frame s).data
      (invoke sys n frame s).body ∈ [callEvent sys n frame s] := by
    rw [← hok]
    exact List.mem_singleton_self _
  exact .inside hmem he

theorem of_committed_callEvent {n : Nat} {frame : Frame M} {s : State T} {e : Event T M R L}
    (h : Committed e [callEvent sys n frame s])
    : e = callEvent sys n frame s
      ∨ (invoke sys n frame s).ok = true ∧ Committed e (invoke sys n frame s).body := by
  unfold callEvent at h ⊢
  cases h with
  | here h => exact .inl (List.mem_singleton.mp h)
  | inside hcall hinside =>
    injection List.mem_singleton.mp hcall with _ _ _ hok _ hbody
    rw [hbody] at hinside
    exact .inr ⟨hok.symm, hinside⟩

/-- Every call that is part of a call is a call of its own. -/
theorem invoke_of_within {n : Nat} {frame : Frame M} {s : State T} {callee : Frame M}
    {before after : World T} {ok : Bool} {data : R} {body : List (Event T M R L)}
    (h : Within (.call callee before after ok data body) [callEvent sys n frame s])
    : callee.env = frame.env ∧ ∃ m s1 s2,
        invoke sys m callee s1 = ⟨ok, data, s2, body⟩ ∧ s1.world = before ∧ s2.world = after := by
  cases h with
  | here h =>
    cases List.mem_singleton.mp h
    exact ⟨rfl, n, s, _, rfl, rfl, rfl⟩
  | inside hcall hbody =>
    cases List.mem_singleton.mp hcall
    obtain ⟨henv, m, _, hrest⟩ := invoke_within sys hbody
    exact ⟨henv, m, hrest⟩

/-- A committed call is one that succeeds. -/
theorem Committed.invoked {n : Nat} {frame : Frame M} {s : State T} {callee : Frame M}
    {before after : World T} {data : R} {body : List (Event T M R L)}
    (h : Committed (.call callee before after true data body) [callEvent sys n frame s])
    : callee.env = frame.env ∧ ∃ m s1, (invoke sys m callee s1).ok = true ∧ s1.world = before
        ∧ (invoke sys m callee s1).state.world = after ∧ (invoke sys m callee s1).data = data
        ∧ (invoke sys m callee s1).body = body := by
  obtain ⟨henv, m, s1, s2, hinvoke, hbefore, hafter⟩ := invoke_of_within sys h.within
  refine ⟨henv, m, s1, ?_⟩
  rw [hinvoke]
  exact ⟨rfl, hbefore, hafter, rfl, rfl⟩

/-- What a committed call hands on to the calls that it makes holds of all of them. -/
theorem committed_induct {P : Frame M → Prop}
    (hstep : ∀ n frame s callee before after data body, P frame → (invoke sys n frame s).ok = true →
      .call callee before after true data body ∈ (invoke sys n frame s).body → P callee)
    {n : Nat} {frame : Frame M} {s : State T} (hframe : P frame)
    {callee : Frame M} {before after : World T} {data : R} {body : List (Event T M R L)}
    (h : Committed (.call callee before after true data body) [callEvent sys n frame s])
    : P callee := by
  have hbody : ∀ n frame s, P frame → (invoke sys n frame s).ok = true →
      Committed (.call callee before after true data body) (invoke sys n frame s).body → P callee := by
    intro n
    induction n using Nat.strong_induction_on with
    | _ n ih =>
      intro frame s hframe hok h
      cases h with
      | here h => exact hstep n frame s callee before after data body hframe hok h
      | @inside frame' before' after' data' body' _ hcall hinside =>
        obtain ⟨_, _, m, hm, s1, s2, hinvoke, _, _⟩ := invoke_call sys hcall
        have hframe' := hstep n frame s frame' before' after' data' body' hframe hok hcall
        apply ih m hm frame' s1 hframe'
        . rw [hinvoke]
        . rw [hinvoke]
          exact hinside
  rcases of_committed_callEvent sys h with heq | ⟨hok, hinside⟩
  . injection heq with heq
    rw [heq]
    exact hframe
  . exact hbody n frame s hframe hok hinside

/-- A call that succeeds ran the program of its target. -/
theorem invoke_ok {n : Nat} {frame : Frame M} {s : State T} (h : (invoke sys n frame s).ok = true)
    : ∃ m < n, ∃ ledger, s.world.ledger.transfer frame.caller frame.self frame.value = some ledger ∧
        ((sys.code s.world.storage frame.self = none
            ∧ (invoke sys n frame s).state.world = { s.world with ledger := ledger }
            ∧ (invoke sys n frame s).body = [.enter { s.world with ledger := ledger }])
          ∨ ∃ program t, sys.code s.world.storage frame.self = some program
            ∧ run sys (invoke sys m) frame (program frame)
                { s with world := { s.world with ledger := ledger } }
              = ⟨.ok (invoke sys n frame s).data, (invoke sys n frame s).state, t⟩
            ∧ (invoke sys n frame s).body = .enter { s.world with ledger := ledger } :: t) := by
  cases n with
  | zero => cases h
  | succ m =>
    refine ⟨m, Nat.lt_succ_self m, ?_⟩
    unfold invoke at h ⊢
    cases hl : s.world.ledger.transfer frame.caller frame.self frame.value with
    | none =>
      rw [hl] at h
      cases h
    | some ledger =>
      rw [hl] at h
      refine ⟨ledger, rfl, ?_⟩
      dsimp only at h ⊢
      cases hc : sys.code s.world.storage frame.self with
      | none => exact .inl ⟨rfl, rfl, rfl⟩
      | some program =>
        rw [hc] at h
        dsimp only at h ⊢
        rcases hr : run sys (invoke sys m) frame (program frame)
          { s with world := { s.world with ledger := ledger } } with ⟨outcome, s', t⟩
        rw [hr] at h
        cases outcome with
        | ok data => exact .inr ⟨program, t, rfl, hr, rfl⟩
        | error data => cases h

/-- A call that fails with other data than none ran the program of its target. -/
theorem invoke_error {n : Nat} {frame : Frame M} {s : State T}
    (h : (invoke sys n frame s).ok = false)
    : (invoke sys n frame s).data = default
      ∨ ∃ m ledger program, n = m + 1
        ∧ s.world.ledger.transfer frame.caller frame.self frame.value = some ledger
        ∧ sys.code s.world.storage frame.self = some program
        ∧ (run sys (invoke sys m) frame (program frame)
            { s with world := { s.world with ledger := ledger } }).outcome
          = .error (invoke sys n frame s).data := by
  cases n with
  | zero => exact .inl rfl
  | succ m =>
    unfold invoke at h ⊢
    cases hl : s.world.ledger.transfer frame.caller frame.self frame.value with
    | none => exact .inl rfl
    | some ledger =>
      rw [hl] at h
      dsimp only at h ⊢
      cases hc : sys.code s.world.storage frame.self with
      | none =>
        rw [hc] at h
        cases h
      | some program =>
        rw [hc] at h
        dsimp only at h ⊢
        refine .inr ⟨m, ledger, program, rfl, rfl, rfl, ?_⟩
        cases ho : (run sys (invoke sys m) frame (program frame)
            { s with world := { s.world with ledger := ledger } }).outcome with
        | ok data =>
          rw [ho] at h
          cases h
        | error data => rfl

end

/-! ## The storage -/

/-- What an event does to the world, a call being taken as a whole. -/
inductive Event.Moves : Event T M R L → World T → World T → Prop where
  | sstore {before after} : Moves (.sstore before after) before after
  | push {before after} : Moves (.push before after) before after
  | delegate {before after body} : Moves (.delegate before after body) before after
  | call {frame before after ok data body} :
      Moves (.call frame before after ok data body) before after

/-- The events lead from the first world to the last one. -/
inductive Leads : World T → List (Event T M R L) → World T → Prop where
  | nil {w} : Leads w [] w
  | enter {w t w'} : Leads w t w' → Leads w (.enter w :: t) w'
  | log {l w t w'} : Leads w t w' → Leads w (.log l :: t) w'
  | move {e before after t w'} :
      Event.Moves e before after → Leads after t w' → Leads before (e :: t) w'

namespace Leads

theorem append {w w' w'' : World T} {t t' : List (Event T M R L)} (h : Leads w t w')
    (h' : Leads w' t' w'')
    : Leads w (t ++ t') w'' := by
  induction h with
  | nil => exact h'
  | enter _ ih => exact .enter (ih h')
  | log _ ih => exact .log (ih h')
  | move hmove _ ih => exact .move hmove (ih h')

/-- The way to the end of the first part and the way on from there. -/
theorem of_append {w w' : World T} {t t' : List (Event T M R L)} (h : Leads w (t ++ t') w')
    : ∃ w1, Leads w t w1 ∧ Leads w1 t' w' := by
  induction t generalizing w with
  | nil => exact ⟨w, .nil, h⟩
  | cons e t ih =>
    cases h with
    | enter h =>
      obtain ⟨w1, hfirst, hrest⟩ := ih h
      exact ⟨w1, .enter hfirst, hrest⟩
    | log h =>
      obtain ⟨w1, hfirst, hrest⟩ := ih h
      exact ⟨w1, .log hfirst, hrest⟩
    | move hmove h =>
      obtain ⟨w1, hfirst, hrest⟩ := ih h
      exact ⟨w1, .move hmove hfirst, hrest⟩

theorem of_nil {w w' : World T} (h : Leads w ([] : List (Event T M R L)) w') : w' = w := by
  cases h
  rfl

theorem of_singleton {w w' before after : World T} {e : Event T M R L} (h : Leads w [e] w')
    (hmove : e.Moves before after)
    : before = w ∧ after = w' := by
  cases h with
  | enter _ => cases hmove
  | log _ => cases hmove
  | move hmove' hrest =>
    cases hrest
    cases hmove <;> cases hmove' <;> exact ⟨rfl, rfl⟩

/-- The way to an event and the way on from it. -/
theorem split {w w' before after : World T} {t : List (Event T M R L)} (h : Leads w t w')
    {e : Event T M R L} (he : e ∈ t) (hmove : e.Moves before after)
    : ∃ t1 t2, (∀ e' ∈ t1, e' ∈ t) ∧ (∀ e' ∈ t2, e' ∈ t) ∧ Leads w t1 before ∧ Leads after t2 w' := by
  induction h with
  | nil => exact absurd he List.not_mem_nil
  | enter _ ih =>
    rcases List.mem_cons.mp he with rfl | he
    . cases hmove
    . obtain ⟨t1, t2, h1, h2, hleads1, hleads2⟩ := ih he
      exact ⟨t1, t2, fun e' he' => List.mem_cons_of_mem _ (h1 e' he'),
        fun e' he' => List.mem_cons_of_mem _ (h2 e' he'), hleads1, hleads2⟩
  | log _ ih =>
    rcases List.mem_cons.mp he with rfl | he
    . cases hmove
    . obtain ⟨t1, t2, h1, h2, hleads1, hleads2⟩ := ih he
      exact ⟨t1, t2, fun e' he' => List.mem_cons_of_mem _ (h1 e' he'),
        fun e' he' => List.mem_cons_of_mem _ (h2 e' he'), hleads1, hleads2⟩
  | @move e' before' after' t w' hmove' hrest ih =>
    rcases List.mem_cons.mp he with rfl | he
    . have heq : before = before' ∧ after = after' := by
        cases hmove <;> cases hmove' <;> exact ⟨rfl, rfl⟩
      obtain ⟨rfl, rfl⟩ := heq
      exact ⟨[], t, fun e' he' => absurd he' List.not_mem_nil,
        fun e' he' => List.mem_cons_of_mem _ he', .nil, hrest⟩
    . obtain ⟨t1, t2, h1, h2, hleads1, hleads2⟩ := ih he
      refine ⟨e' :: t1, t2, ?_, fun e' he' => List.mem_cons_of_mem _ (h2 e' he'),
        .move hmove' hleads1, hleads2⟩
      intro e'' he''
      rcases List.mem_cons.mp he'' with rfl | he''
      . exact List.mem_cons_self
      . exact List.mem_cons_of_mem _ (h1 e'' he'')

/-- The way from an event to a later one. -/
theorem between {w w' before after before' after' : World T} {t t' : List (Event T M R L)}
    (h : Leads w (t ++ t') w') {e e' : Event T M R L} (he : e ∈ t) (hmove : e.Moves before after)
    (he' : e' ∈ t') (hmove' : e'.Moves before' after')
    : ∃ t1, (∀ e ∈ t1, e ∈ t ++ t') ∧ Leads before t1 before' := by
  obtain ⟨w1, hfirst, hrest⟩ := h.of_append
  obtain ⟨_, t1, _, ht1, _, hafter⟩ := hfirst.split he hmove
  obtain ⟨t2, _, ht2, _, hbefore, _⟩ := hrest.split he' hmove'
  refine ⟨e :: (t1 ++ t2), ?_, .move hmove (hafter.append hbefore)⟩
  intro e1 he1
  rcases List.mem_cons.mp he1 with rfl | he1
  . exact List.mem_append_left _ he
  . rcases List.mem_append.mp he1 with he1 | he1
    . exact List.mem_append_left _ (ht1 _ he1)
    . exact List.mem_append_right _ (ht2 _ he1)

/-- What holds across each event holds across all of them. -/
theorem rel {C : World T → World T → Prop} (hrefl : ∀ w, C w w)
    (htrans : ∀ w1 w2 w3, C w1 w2 → C w2 w3 → C w1 w3) {w w' : World T}
    {t : List (Event T M R L)} (h : Leads w t w')
    (hmoves : ∀ e ∈ t, ∀ before after, e.Moves before after → C before after)
    : C w w' := by
  induction h with
  | nil => exact hrefl _
  | enter _ ih => exact ih fun e he => hmoves e (List.mem_cons_of_mem _ he)
  | log _ ih => exact ih fun e he => hmoves e (List.mem_cons_of_mem _ he)
  | move hmove _ ih =>
    exact htrans _ _ _ (hmoves _ List.mem_cons_self _ _ hmove)
      (ih fun e he => hmoves e (List.mem_cons_of_mem _ he))

end Leads

section

variable [Inhabited R] (sys : System T M R L)

omit [Inhabited R] in
theorem perform_leads (inv : Frame M → State T → Reply T M R L) (frame : Frame M) (o : Op T M R L)
    (s : State T)
    : Leads s.world (perform sys inv frame o s).2.2 (perform sys inv frame o s).2.1.world := by
  cases o with
  | emit l => exact .log .nil
  | sstore f => exact .move .sstore .nil
  | call c => exact .move .call .nil
  | delegatecall target message => exact .move .delegate .nil
  | push target value =>
    unfold perform
    dsimp only
    split
    . exact .move .push .nil
    . exact .nil
  | _ => exact .nil

theorem run_leads (inv : Frame M → State T → Reply T M R L) (frame : Frame M) (p : Prog T M R L α)
    (s : State T)
    : Leads s.world (run sys inv frame p s).trace (run sys inv frame p s).state.world := by
  induction p generalizing s with
  | ret a => exact .nil
  | revert data => exact .nil
  | op o k ih =>
    cases hs : s.charge frame.env with
    | none =>
      rw [run_op_none sys inv frame hs]
      exact .nil
    | some s1 =>
      rw [run_op_some sys inv frame hs rfl, ← charge_world hs]
      exact (perform_leads sys inv frame o s1).append (ih _ _)

omit sys in
theorem Returns.leads {sys : System T M R L} {inv : Frame M → State T → Reply T M R L} {frame : Frame M}
    {l : Lens T S} {p : Prog S M R L α} {s s' : State T} {a : α} {t : List (Event T M R L)}
    (h : Returns sys inv frame l p s a s' t)
    : Leads s.world t s'.world := by
  have hleads := run_leads sys inv frame (p.zoom l.get l.set) s
  rw [h] at hleads
  exact hleads

theorem run_push {inv : Frame M → State T → Reply T M R L} {frame : Frame M} {p : Prog T M R L α}
    {s : State T} {before after : World T} (h : .push before after ∈ (run sys inv frame p s).trace)
    : after.storage = before.storage := by
  refine run_events (C := fun e => ∀ before after, e = .push before after →
    after.storage = before.storage) sys ?_ p s _ h before after rfl
  intro o s e he before after heq
  subst heq
  cases o with
  | push target value =>
    simp only [perform] at he
    split at he
    . cases List.mem_singleton.mp he
      rfl
    . exact absurd he List.not_mem_nil
  | _ => simp [perform] at he

theorem run_sstore {inv : Frame M → State T → Reply T M R L} {frame : Frame M} {p : Prog T M R L α}
    {s : State T} {before after : World T} (h : .sstore before after ∈ (run sys inv frame p s).trace)
    : after.ledger = before.ledger := by
  refine run_events (C := fun e => ∀ before after, e = .sstore before after →
    after.ledger = before.ledger) sys ?_ p s _ h before after rfl
  intro o s e he before after heq
  subst heq
  cases o with
  | sstore f =>
    cases List.mem_singleton.mp he
    rfl
  | push target value =>
    simp only [perform] at he
    split at he <;> simp at he
  | _ => simp [perform] at he

/-- A frame that neither calls nor pushes moves its own value and no more. -/
theorem invoke_ledger {n : Nat} {frame : Frame M} {s : State T}
    (hok : (invoke sys n frame s).ok = true)
    (hquiet : ∀ e ∈ (invoke sys n frame s).body, ∀ before after, e.Moves before after →
      e = .sstore before after)
    : s.world.ledger.transfer frame.caller frame.self frame.value
        = some (invoke sys n frame s).state.world.ledger := by
  obtain ⟨m, _, ledger, htransfer, ⟨_, hworld, _⟩ | ⟨program, t, _, hrun, hbody⟩⟩ := invoke_ok sys hok
  . rw [hworld]
    exact htransfer
  . have hleads := run_leads sys (invoke sys m) frame (program frame)
      { s with world := { s.world with ledger := ledger } }
    rw [hrun] at hleads
    rw [hbody] at hquiet
    have hsame := hleads.rel (C := fun w w' => w'.ledger = w.ledger) (fun _ => rfl)
      (fun _ _ _ h h' => h'.trans h) fun e he before after hmove => by
        have hmem := hquiet e (List.mem_cons_of_mem _ he) before after hmove
        rw [hmem] at he
        have hmem : .sstore before after ∈ (run sys (invoke sys m) frame (program frame)
            { s with world := { s.world with ledger := ledger } }).trace := by
          rw [hrun]
          exact he
        exact run_sstore sys hmem
    rw [htransfer]
    exact congrArg some hsame.symm

theorem invoke_leads {n : Nat} {frame : Frame M} {s : State T}
    (hok : (invoke sys n frame s).ok = true)
    : ∃ w, w.storage = s.world.storage
        ∧ Leads w (invoke sys n frame s).body (invoke sys n frame s).state.world := by
  obtain ⟨m, _, ledger, _, ⟨_, hworld, hbody⟩ | ⟨program, t, _, hrun, hbody⟩⟩ := invoke_ok sys hok
  . rw [hworld, hbody]
    exact ⟨{ s.world with ledger := ledger }, rfl, .enter .nil⟩
  . rw [hbody]
    have hleads := run_leads sys (invoke sys m) frame (program frame)
      { s with world := { s.world with ledger := ledger } }
    rw [hrun] at hleads
    exact ⟨{ s.world with ledger := ledger }, rfl, .enter hleads⟩

variable {C : T → T → Prop} (hrefl : ∀ v, C v v) (htrans : ∀ v1 v2 v3, C v1 v2 → C v2 v3 → C v1 v3)

include hrefl htrans

/-- What holds across each write that is not taken back holds across the whole call. -/
theorem invoke_rel {n : Nat} {frame : Frame M} {s : State T}
    (hwrites : ∀ before after, Committed (.sstore before after) (invoke sys n frame s).body
      ∨ (∃ body, Committed (.delegate before after body) (invoke sys n frame s).body) →
        C before.storage after.storage)
    (hok : (invoke sys n frame s).ok = true)
    : C s.world.storage (invoke sys n frame s).state.world.storage
        ∧ ∀ e ∈ (invoke sys n frame s).body, ∀ before after, e.Moves before after →
            C before.storage after.storage := by
  induction n using Nat.strong_induction_on generalizing frame s with
  | _ n ih =>
    have hmoves : ∀ e ∈ (invoke sys n frame s).body, ∀ before after, e.Moves before after →
        C before.storage after.storage := by
      intro e he before after hmove
      cases hmove with
      | sstore => exact hwrites before after (.inl (.here he))
      | delegate => exact hwrites before after (.inr ⟨_, .here he⟩)
      | push =>
        rcases invoke_body sys he with ⟨w, hw⟩ | ⟨m, _, program, s1, he⟩
        . cases hw
        . rw [run_push sys he]
          exact hrefl _
      | @call callee before after ok data body =>
        obtain ⟨_, _, m, hm, s1, s2, hinvoke, rfl, rfl⟩ := invoke_call sys he
        have hworld : (invoke sys m callee s1).state.world = s2.world := by rw [hinvoke]
        cases ok with
        | false =>
          rw [← hworld, invoke_failed sys (by rw [hinvoke])]
          exact hrefl _
        | true =>
          rw [← hworld]
          refine (ih m hm ?_ (by rw [hinvoke])).1
          rw [hinvoke]
          exact fun b a h => hwrites b a (h.imp (.inside he) fun ⟨body, h⟩ => ⟨body, .inside he h⟩)
    obtain ⟨w, hw, hleads⟩ := invoke_leads sys hok
    rw [← hw]
    exact ⟨hleads.rel (C := fun w1 w2 => C w1.storage w2.storage) (fun _ => hrefl _)
      (fun _ _ _ => htrans _ _ _) hmoves, hmoves⟩

/-- It holds as well from the start of the call to what is not taken back, and from there on. -/
theorem invoke_rel_committed {n : Nat} {frame : Frame M} {s : State T}
    (hwrites : ∀ before after, Committed (.sstore before after) (invoke sys n frame s).body
      ∨ (∃ body, Committed (.delegate before after body) (invoke sys n frame s).body) →
        C before.storage after.storage)
    (hok : (invoke sys n frame s).ok = true) {e : Event T M R L} {before after : World T}
    (he : Committed e (invoke sys n frame s).body) (hmove : e.Moves before after)
    : C s.world.storage before.storage
        ∧ C after.storage (invoke sys n frame s).state.world.storage := by
  induction n using Nat.strong_induction_on generalizing frame s with
  | _ n ih =>
    obtain ⟨_, hmoves⟩ := invoke_rel sys hrefl htrans hwrites hok
    obtain ⟨w, hw, hleads⟩ := invoke_leads sys hok
    have hsplit {e' : Event T M R L} {before' after' : World T}
        (he' : e' ∈ (invoke sys n frame s).body) (hmove' : e'.Moves before' after')
        : C s.world.storage before'.storage
            ∧ C after'.storage (invoke sys n frame s).state.world.storage := by
      obtain ⟨t1, t2, h1, h2, hleads1, hleads2⟩ := hleads.split he' hmove'
      rw [← hw]
      exact ⟨hleads1.rel (C := fun w1 w2 => C w1.storage w2.storage) (fun _ => hrefl _)
          (fun _ _ _ => htrans _ _ _) fun e he => hmoves e (h1 e he),
        hleads2.rel (C := fun w1 w2 => C w1.storage w2.storage) (fun _ => hrefl _)
          (fun _ _ _ => htrans _ _ _) fun e he => hmoves e (h2 e he)⟩
    generalize hbody : (invoke sys n frame s).body = t at he
    cases he with
    | here he => exact hsplit (by rwa [hbody]) hmove
    | @inside callee before' after' data body _ hcall hinside =>
      rw [← hbody] at hcall
      obtain ⟨hbefore, hafter⟩ := hsplit hcall .call
      obtain ⟨_, _, m, hm, s1, s2, hinvoke, rfl, rfl⟩ := invoke_call sys hcall
      have hworld : (invoke sys m callee s1).state.world = s2.world := by rw [hinvoke]
      obtain ⟨hfirst, hlast⟩ := @ih m hm callee s1 (by
          rw [hinvoke]
          exact fun b a h => hwrites b a (h.imp (.inside hcall) fun ⟨body, h⟩ => ⟨body, .inside hcall h⟩))
        (by rw [hinvoke]) (by rw [hinvoke]; exact hinside)
      rw [hworld] at hlast
      exact ⟨htrans _ _ _ hbefore hfirst, htrans _ _ _ hlast hafter⟩

end

end Evm
