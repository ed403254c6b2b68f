import FalconSmartAccount.Evm.Contract

/-!
How to reason about runs: what a run that returns has done, step by step, and a logic for what holds
at every point that a run passes, whether it returns or reverts.
-/

namespace Evm

variable {S T M R L α β : Type}

/-! ## Parts of the storage -/

/-- A part of the storage that a contract works on. -/
structure Lens (T S : Type) where
  get : T → S
  set : S → T → T
  get_set : ∀ s t, get (set s t) = s

/-- A part of a part. -/
def Lens.comp {U : Type} (l : Lens T U) (l' : Lens U S) : Lens T S where
  get t := l'.get (l.get t)
  set s t := l.set (l'.set s (l.get t)) t
  get_set s t := by
    rw [l.get_set]
    exact l'.get_set s _

def World.write (l : Lens T S) (f : S → S) (w : World T) : World T :=
  { w with storage := l.set (f (l.get w.storage)) w.storage }

namespace Prog

theorem pure_bind (a : α) (f : α → Prog S M R L β) : (pure a >>= f) = f a := rfl

theorem bind_assoc {γ : Type} (p : Prog S M R L α) (f : α → Prog S M R L β)
    (g : β → Prog S M R L γ)
    : (p >>= f) >>= g = p >>= fun a => f a >>= g := by
  induction p with
  | ret a => rfl
  | revert data => rfl
  | op o k ih => exact congrArg (Prog.op o) (funext ih)

theorem bind_pure (p : Prog S M R L α) : (p >>= pure) = p := by
  induction p with
  | ret a => rfl
  | revert data => rfl
  | op o k ih => exact congrArg (Prog.op o) (funext ih)

instance lawfulMonad : LawfulMonad (Prog S M R L) :=
  LawfulMonad.mk' (Prog S M R L) bind_pure pure_bind bind_assoc

theorem zoom_bind (l : Lens T S) (p : Prog S M R L α) (f : α → Prog S M R L β)
    : (p >>= f).zoom l.get l.set = p.zoom l.get l.set >>= fun a => (f a).zoom l.get l.set := by
  induction p with
  | ret a => rfl
  | revert data => rfl
  | op o k ih => exact congrArg (Prog.op _) (funext fun r => ih _)

theorem zoom_zoom {U : Type} (l : Lens T U) (l' : Lens U S) (p : Prog S M R L α)
    : (p.zoom l'.get l'.set).zoom l.get l.set = p.zoom (l.comp l').get (l.comp l').set := by
  induction p with
  | ret a => rfl
  | revert data => rfl
  | op o k ih =>
    cases o <;> exact congrArg (Prog.op _) (funext fun r => ih _)

end Prog

section Run

variable [Inhabited R] (sys : System T M R L) (inv : Frame M → State T → Reply T M R L)
  (frame : Frame M)

theorem run_op_none {o : Op T M R L} {k : o.Reply → Prog T M R L α} {s : State T}
    (hs : s.charge frame.env = none)
    : run sys inv frame (.op o k) s = ⟨.error default, { s with gas := 0, tick := s.tick + 1 }, []⟩ := by
  unfold run
  rw [hs]

theorem run_op_some {o : Op T M R L} {k : o.Reply → Prog T M R L α} {s s1 s2 : State T}
    {reply : o.Reply} {t : List (Event T M R L)} (hs : s.charge frame.env = some s1)
    (hp : perform sys inv frame o s1 = (reply, s2, t))
    : run sys inv frame (.op o k) s =
        let r := run sys inv frame (k reply) s2
        { r with trace := t ++ r.trace } := by
  conv_lhs => unfold run
  rw [hs]
  simp only [hp]

theorem run_bind (p : Prog T M R L α) (f : α → Prog T M R L β) (s : State T)
    : run sys inv frame (p >>= f) s =
        match (run sys inv frame p s).outcome with
        | .ok a =>
          let r := run sys inv frame (f a) (run sys inv frame p s).state
          { r with trace := (run sys inv frame p s).trace ++ r.trace }
        | .error data => ⟨.error data, (run sys inv frame p s).state, (run sys inv frame p s).trace⟩ := by
  induction p generalizing s with
  | ret a => rfl
  | revert data => rfl
  | op o k ih =>
    change run sys inv frame (.op o fun r => (k r) >>= f) s = _
    cases hs : s.charge frame.env with
    | none => rw [run_op_none sys inv frame hs, run_op_none sys inv frame hs]
    | some s1 =>
      rcases hp : perform sys inv frame o s1 with ⟨reply, s2, t⟩
      rw [run_op_some sys inv frame hs hp, run_op_some sys inv frame hs hp]
      simp only [ih reply s2]
      cases (run sys inv frame (k reply) s2).outcome with
      | ok a => simp only [List.append_assoc]
      | error data => rfl

/-! ## Gas -/

/-- The program comes to an operation that the gas does not suffice for. -/
def starves : Prog T M R L α → State T → Bool
  | .ret _, _ | .revert _, _ => false
  | .op o k, s =>
    match s.charge frame.env with
    | none => true
    | some s =>
      let (reply, s, _) := perform sys inv frame o s
      starves (k reply) s

omit [Inhabited R] in
theorem starves_op_none {o : Op T M R L} {k : o.Reply → Prog T M R L α} {s : State T}
    (hs : s.charge frame.env = none)
    : starves sys inv frame (.op o k) s = true := by
  unfold starves
  rw [hs]

omit [Inhabited R] in
theorem starves_op_some {o : Op T M R L} {k : o.Reply → Prog T M R L α} {s s1 : State T}
    (hs : s.charge frame.env = some s1)
    : starves sys inv frame (.op o k) s
        = starves sys inv frame (k (perform sys inv frame o s1).1) (perform sys inv frame o s1).2.1 := by
  conv_lhs => unfold starves
  rw [hs]

theorem starves_bind (p : Prog T M R L α) (f : α → Prog T M R L β) (s : State T)
    : starves sys inv frame (p >>= f) s
        = (starves sys inv frame p s ||
            match (run sys inv frame p s).outcome with
            | .ok a => starves sys inv frame (f a) (run sys inv frame p s).state
            | .error _ => false) := by
  induction p generalizing s with
  | ret a => rfl
  | revert data => rfl
  | op o k ih =>
    change starves sys inv frame (.op o fun r => (k r) >>= f) s = _
    cases hs : s.charge frame.env with
    | none => rw [starves_op_none sys inv frame hs, starves_op_none sys inv frame hs, Bool.true_or]
    | some s1 =>
      rw [starves_op_some sys inv frame hs, starves_op_some sys inv frame hs]
      rw [run_op_some sys inv frame hs rfl]
      exact ih _ _

/-- A frame without gas reverts without data. -/
theorem run_of_starves {p : Prog T M R L α} {s : State T} (h : starves sys inv frame p s = true)
    : (run sys inv frame p s).outcome = .error default := by
  induction p generalizing s with
  | ret a => cases h
  | revert data => cases h
  | op o k ih =>
    cases hs : s.charge frame.env with
    | none => rw [run_op_none sys inv frame hs]
    | some s1 =>
      rw [starves_op_some sys inv frame hs] at h
      rw [run_op_some sys inv frame hs rfl]
      exact ih _ h

omit [Inhabited R] in
theorem charge_gas_le {env : Env} {s s' : State T} (h : s.charge env = some s') : s'.gas ≤ s.gas := by
  unfold State.charge at h
  split at h
  . cases h
    exact Nat.sub_le _ _
  . cases h

omit [Inhabited R] in
theorem perform_gas_le (hinv : ∀ f s, (inv f s).state.gas ≤ s.gas) (o : Op T M R L) (s : State T)
    : (perform sys inv frame o s).2.1.gas ≤ s.gas := by
  cases o with
  | call c =>
    have hcall := hinv ⟨c.target, frame.self, c.value, c.message, frame.env⟩
      { s with gas := callGas c.gas s.gas }
    have hle : callGas c.gas s.gas ≤ s.gas := (Nat.min_le_right _ _).trans (Nat.sub_le _ _)
    dsimp only [perform] at hcall ⊢
    omega
  | delegatecall target message =>
    have hdelegate := sys.delegate_gas inv hinv frame { s with gas := callGas none s.gas } target message
    have hle : callGas none s.gas ≤ s.gas := (Nat.min_le_right _ _).trans (Nat.sub_le _ _)
    dsimp only [perform] at hdelegate ⊢
    omega
  | push target value =>
    unfold perform
    dsimp only
    split <;> exact Nat.le_refl _
  | _ => exact Nat.le_refl _

theorem run_gas_le (hinv : ∀ f s, (inv f s).state.gas ≤ s.gas) (p : Prog T M R L α) (s : State T)
    : (run sys inv frame p s).state.gas ≤ s.gas := by
  induction p generalizing s with
  | ret a => exact Nat.le_refl _
  | revert data => exact Nat.le_refl _
  | op o k ih =>
    cases hs : s.charge frame.env with
    | none =>
      rw [run_op_none sys inv frame hs]
      exact Nat.zero_le _
    | some s1 =>
      rw [run_op_some sys inv frame hs rfl]
      exact ((ih _ _).trans (perform_gas_le sys inv frame hinv o s1)).trans (charge_gas_le hs)

theorem runDelegate_gas_le (hinv : ∀ f s, (inv f s).state.gas ≤ s.gas) (p : Prog T M R L R) (s : State T)
    : (runDelegate sys inv frame p s).state.gas ≤ s.gas := by
  have hle := run_gas_le sys inv frame hinv p s
  unfold runDelegate
  dsimp only
  split
  . exact hle
  . exact hle

theorem invoke_gas_le (n : Nat) (frame : Frame M) (s : State T)
    : (invoke sys n frame s).state.gas ≤ s.gas := by
  induction n generalizing frame s with
  | zero => exact Nat.le_refl _
  | succ n ih =>
    unfold invoke
    cases s.world.ledger.transfer frame.caller frame.self frame.value with
    | none => exact Nat.le_refl _
    | some ledger =>
      dsimp only
      cases sys.code s.world.storage frame.self with
      | none => exact Nat.le_refl _
      | some program =>
        have hle := run_gas_le sys (invoke sys n) frame ih (program frame)
          { s with world := { s.world with ledger := ledger } }
        dsimp only
        cases (run sys (invoke sys n) frame (program frame)
            { s with world := { s.world with ledger := ledger } }).outcome with
        | ok data => exact hle
        | error data => exact hle

end Run

/-! ## Runs that return -/

section Returns

variable [Inhabited R] (sys : System T M R L) (inv : Frame M → State T → Reply T M R L)
  (frame : Frame M) (l : Lens T S)

/-- The run returns `a` and leaves the state `s'`, with the events `t`. -/
def Returns (p : Prog S M R L α) (s : State T) (a : α) (s' : State T) (t : List (Event T M R L))
    : Prop :=
  run sys inv frame (p.zoom l.get l.set) s = ⟨.ok a, s', t⟩

variable {sys inv frame l} {s s' : State T} {t : List (Event T M R L)}

theorem charge_eq {env : Env} (h : s.charge env = some s')
    : s' = { s with gas := s.gas - env.cost s.tick, tick := s.tick + 1 } := by
  unfold State.charge at h
  split at h
  . cases h
    rfl
  . cases h

theorem charge_world {env : Env} (h : s.charge env = some s') : s'.world = s.world := by
  rw [charge_eq h]

namespace Returns

theorem bind {p : Prog S M R L α} {f : α → Prog S M R L β} {b : β}
    (h : Returns sys inv frame l (p >>= f) s b s' t)
    : ∃ a s1 t1 t2, Returns sys inv frame l p s a s1 t1 ∧ Returns sys inv frame l (f a) s1 b s' t2
        ∧ t = t1 ++ t2 := by
  unfold Returns at h ⊢
  rw [Prog.zoom_bind, run_bind] at h
  rcases hr : run sys inv frame (p.zoom l.get l.set) s with ⟨outcome, s1, t1⟩
  rw [hr] at h
  cases outcome with
  | error data => cases h
  | ok a =>
    rcases hr2 : run sys inv frame ((f a).zoom l.get l.set) s1 with ⟨outcome2, s2, t2⟩
    simp only [hr2] at h
    cases h
    exact ⟨a, s1, t1, t2, rfl, hr2, rfl⟩

theorem pure {a b : α} (h : Returns sys inv frame l (pure a : Prog S M R L α) s b s' t)
    : b = a ∧ s' = s ∧ t = [] := by
  cases h
  exact ⟨rfl, rfl, rfl⟩

theorem not_revert {data : R} {a : α} : ¬Returns sys inv frame l (.revert data) s a s' t := by
  intro h
  cases h

theorem require {c : Bool} {data : R} {u : Unit}
    (h : Returns sys inv frame l (Prog.require c data) s u s' t)
    : c = true ∧ s' = s ∧ t = [] := by
  unfold Prog.require at h
  split at h
  . next hc =>
    obtain ⟨_, hs, ht⟩ := pure h
    exact ⟨hc, hs, ht⟩
  . exact absurd h not_revert

/-- One operation: the state is charged for it before it is performed. -/
theorem charged {o : Op S M R L} {a : o.Reply} (h : Returns sys inv frame l (.op o .ret) s a s' t)
    : ∃ s1 reply, s.charge frame.env = some s1
        ∧ perform sys inv frame (o.zoom l.get l.set) s1 = (reply, s', t)
        ∧ a = o.zoomReply l.get l.set reply := by
  unfold Returns Prog.zoom at h
  cases hs : s.charge frame.env with
  | none =>
    rw [run_op_none sys inv frame hs] at h
    cases h
  | some s1 =>
    rcases hp : perform sys inv frame (o.zoom l.get l.set) s1 with ⟨reply, s2, t2⟩
    rw [run_op_some sys inv frame hs hp] at h
    simp only [Prog.zoom, run, List.append_nil] at h
    cases h
    exact ⟨s1, reply, rfl, hp, rfl⟩

theorem op {o : Op S M R L} {a : o.Reply} (h : Returns sys inv frame l (.op o .ret) s a s' t)
    : ∃ s1 reply, s1.world = s.world
        ∧ perform sys inv frame (o.zoom l.get l.set) s1 = (reply, s', t)
        ∧ a = o.zoomReply l.get l.set reply := by
  obtain ⟨s1, reply, hs, hp, ha⟩ := h.charged
  exact ⟨s1, reply, charge_world hs, hp, ha⟩

theorem emit {log : L} {u : Unit}
    (h : Returns sys inv frame l (Prog.emit log : Prog S M R L Unit) s u s' t)
    : s'.world = s.world ∧ t = [.log log] := by
  obtain ⟨s1, reply, hw, hp, _⟩ := op h
  cases hp
  exact ⟨hw, rfl⟩

theorem sstore {f : S → S} {u : Unit} (h : Returns sys inv frame l (Prog.sstore f) s u s' t)
    : s'.world = s.world.write l f ∧ t = [.sstore s.world (s.world.write l f)] := by
  obtain ⟨s1, reply, hw, hp, _⟩ := op h
  cases hp
  rw [← hw]
  exact ⟨rfl, rfl⟩

theorem call {c : Call M} {r : Bool × R}
    (h : Returns sys inv frame l (Prog.call c : Prog S M R L (Bool × R)) s r s' t)
    : ∃ s1 s2 body, s1.world = s.world ∧ s'.world = s2.world
        ∧ inv ⟨c.target, frame.self, c.value, c.message, frame.env⟩ s1 = ⟨r.1, r.2, s2, body⟩
        ∧ t = [.call ⟨c.target, frame.self, c.value, c.message, frame.env⟩ s.world s'.world r.1 r.2
            body] := by
  obtain ⟨s1, reply, hw, hp, hr⟩ := op h
  cases hp
  subst hr
  rw [← hw]
  exact ⟨{ s1 with gas := callGas c.gas s1.gas }, (inv _ _).state, (inv _ _).body, rfl, rfl, rfl, rfl⟩

/-! The same for the first step of a program. -/

variable {b : β}

theorem bind_gasleft {f : Nat → Prog S M R L β}
    (h : Returns sys inv frame l (Prog.gasleft >>= f) s b s' t)
    : ∃ n s1, s1.world = s.world ∧ Returns sys inv frame l (f n) s1 b s' t := by
  obtain ⟨n, s1, t1, t2, h1, h2, rfl⟩ := bind h
  obtain ⟨s2, reply, hw, hp, _⟩ := op h1
  cases hp
  exact ⟨n, _, hw, h2⟩

theorem bind_codeLength {a : Address} {f : Nat → Prog S M R L β}
    (h : Returns sys inv frame l (Prog.codeLength a >>= f) s b s' t)
    : ∃ s1, s1.world = s.world
        ∧ Returns sys inv frame l (f (sys.codeLength s.world.storage a)) s1 b s' t := by
  obtain ⟨n, s1, t1, t2, h1, h2, rfl⟩ := bind h
  obtain ⟨s2, reply, hw, hp, hr⟩ := op h1
  cases hp
  subst hr
  rw [← hw]
  exact ⟨_, rfl, h2⟩

theorem bind_sload {f : S → Prog S M R L β}
    (h : Returns sys inv frame l (Prog.sload >>= f) s b s' t)
    : ∃ s1, s1.world = s.world ∧ Returns sys inv frame l (f (l.get s.world.storage)) s1 b s' t := by
  obtain ⟨v, s1, t1, t2, h1, h2, rfl⟩ := bind h
  obtain ⟨s2, reply, hw, hp, hr⟩ := op h1
  cases hp
  subst hr
  rw [← hw]
  exact ⟨_, rfl, h2⟩

theorem bind_require {c : Bool} {data : R} {f : Unit → Prog S M R L β}
    (h : Returns sys inv frame l (Prog.require c data >>= f) s b s' t)
    : c = true ∧ Returns sys inv frame l (f ()) s b s' t := by
  obtain ⟨_, s1, t1, t2, h1, h2, rfl⟩ := bind h
  obtain ⟨hc, rfl, rfl⟩ := require h1
  exact ⟨hc, h2⟩

theorem bind_emit {log : L} {f : Unit → Prog S M R L β}
    (h : Returns sys inv frame l (Prog.emit log >>= f) s b s' t)
    : ∃ s1 t', s1.world = s.world ∧ t = .log log :: t' ∧ Returns sys inv frame l (f ()) s1 b s' t' := by
  obtain ⟨_, s1, t1, t2, h1, h2, rfl⟩ := bind h
  obtain ⟨hw, rfl⟩ := emit h1
  exact ⟨s1, t2, hw, rfl, h2⟩

theorem bind_sstore {f : S → S} {g : Unit → Prog S M R L β}
    (h : Returns sys inv frame l (Prog.sstore f >>= g) s b s' t)
    : ∃ s1 t', s1.world = s.world.write l f ∧ t = .sstore s.world (s.world.write l f) :: t'
        ∧ Returns sys inv frame l (g ()) s1 b s' t' := by
  obtain ⟨_, s1, t1, t2, h1, h2, rfl⟩ := bind h
  obtain ⟨hw, rfl⟩ := sstore h1
  exact ⟨s1, t2, hw, rfl, h2⟩

theorem bind_call {c : Call M} {f : Bool × R → Prog S M R L β}
    (h : Returns sys inv frame l (Prog.call c >>= f) s b s' t)
    : ∃ r s1 s2 s3 body t', s1.world = s.world ∧ s3.world = s2.world
        ∧ inv ⟨c.target, frame.self, c.value, c.message, frame.env⟩ s1 = ⟨r.1, r.2, s2, body⟩
        ∧ t = .call ⟨c.target, frame.self, c.value, c.message, frame.env⟩ s.world s2.world r.1 r.2 body
            :: t'
        ∧ Returns sys inv frame l (f r) s3 b s' t' := by
  obtain ⟨r, s3, t1, t2, h1, h2, rfl⟩ := bind h
  obtain ⟨s1, s2, body, hw, hw', hinv, rfl⟩ := call h1
  refine ⟨r, s1, s2, s3, body, t2, hw, hw', hinv, ?_, h2⟩
  rw [hw']
  rfl

/-- A run followed by one that starts where it ended. -/
theorem seq {p : Prog S M R L α} {f : α → Prog S M R L β} {a : α} {s1 : State T}
    {t1 : List (Event T M R L)} (h : Returns sys inv frame l p s a s1 t1)
    (h' : Returns sys inv frame l (f a) s1 b s' t)
    : Returns sys inv frame l (p >>= f) s b s' (t1 ++ t) := by
  unfold Returns at h h' ⊢
  rw [Prog.zoom_bind]
  rw [run_bind]
  rw [h]
  dsimp only
  rw [h']

theorem unique {p : Prog S M R L α} {a a' : α} {s1 : State T} {t1 : List (Event T M R L)}
    (h : Returns sys inv frame l p s a s' t) (h' : Returns sys inv frame l p s a' s1 t1)
    : a' = a ∧ s1 = s' ∧ t1 = t := by
  unfold Returns at h h'
  rw [h] at h'
  cases h'
  exact ⟨rfl, rfl, rfl⟩

end Returns

end Returns

/-! ## Runs that revert -/

section Reverts

variable [Inhabited R] (sys : System T M R L) (inv : Frame M → State T → Reply T M R L)
  (frame : Frame M) (l : Lens T S)

def Reverts (p : Prog S M R L α) (s : State T) (data : R) : Prop :=
  (run sys inv frame (p.zoom l.get l.set) s).outcome = .error data

/-- The run ends for lack of gas. -/
def Starves (p : Prog S M R L α) (s : State T) : Prop :=
  starves sys inv frame (p.zoom l.get l.set) s = true

variable {sys inv frame l} {s s' : State T} {t : List (Event T M R L)} {data : R}

theorem Returns.not_reverts {p : Prog S M R L α} {a : α}
    (h : Returns sys inv frame l p s a s' t)
    : ¬Reverts sys inv frame l p s data := by
  intro h'
  unfold Returns at h
  unfold Reverts at h'
  rw [h] at h'
  cases h'

/-- A run that does not return reverts. -/
theorem returns_or_reverts (p : Prog S M R L α) (s : State T)
    : (∃ a s' t, Returns sys inv frame l p s a s' t) ∨ ∃ data, Reverts sys inv frame l p s data := by
  unfold Returns Reverts
  rcases hr : run sys inv frame (p.zoom l.get l.set) s with ⟨outcome, s', t⟩
  cases outcome with
  | ok a => exact .inl ⟨a, s', t, rfl⟩
  | error data => exact .inr ⟨data, rfl⟩

theorem exists_returns {p : Prog S M R L α}
    (h : (run sys inv frame (p.zoom l.get l.set) s).outcome.isOk = true)
    : ∃ a s' t, Returns sys inv frame l p s a s' t := by
  unfold Returns
  rcases hr : run sys inv frame (p.zoom l.get l.set) s with ⟨outcome, s', t⟩
  rw [hr] at h
  cases outcome with
  | ok a => exact ⟨a, s', t, rfl⟩
  | error data => cases h

/-- A run that was evaluated to return something that satisfies `f`. -/
theorem exists_returns_of_any {p : Prog S M R L α} {f : α → Bool}
    (h : (run sys inv frame (p.zoom l.get l.set) s).outcome.toOption.any f = true)
    : ∃ a s' t, Returns sys inv frame l p s a s' t ∧ f a = true := by
  unfold Returns
  rcases hr : run sys inv frame (p.zoom l.get l.set) s with ⟨outcome, s', t⟩
  rw [hr] at h
  cases outcome with
  | ok a => exact ⟨a, s', t, rfl, h⟩
  | error data => cases h

namespace Reverts

variable {p : Prog S M R L α} {f : α → Prog S M R L β}

theorem bind (h : Reverts sys inv frame l (p >>= f) s data)
    : Reverts sys inv frame l p s data ∨ ∃ a s1 t1, Returns sys inv frame l p s a s1 t1
        ∧ Reverts sys inv frame l (f a) s1 data := by
  unfold Reverts at h ⊢
  unfold Returns
  rw [Prog.zoom_bind] at h
  rw [run_bind] at h
  rcases hr : run sys inv frame (p.zoom l.get l.set) s with ⟨outcome, s1, t1⟩
  rw [hr] at h
  cases outcome with
  | ok a => exact .inr ⟨a, s1, t1, rfl, h⟩
  | error data' =>
    cases h
    exact .inl rfl

theorem first (h : Reverts sys inv frame l p s data) : Reverts sys inv frame l (p >>= f) s data := by
  unfold Reverts at h ⊢
  rw [Prog.zoom_bind]
  rw [run_bind]
  rw [h]

theorem later {a : α} {s1 : State T} {t1 : List (Event T M R L)}
    (h : Returns sys inv frame l p s a s1 t1) (h' : Reverts sys inv frame l (f a) s1 data)
    : Reverts sys inv frame l (p >>= f) s data := by
  unfold Returns at h
  unfold Reverts at h' ⊢
  rw [Prog.zoom_bind]
  rw [run_bind]
  rw [h]
  exact h'

theorem not_pure {a : α} : ¬Reverts sys inv frame l (pure a : Prog S M R L α) s data := by
  intro h
  cases h

theorem revert {data' : R} (h : Reverts sys inv frame l (.revert data' : Prog S M R L α) s data)
    : data = data' := by
  cases h
  rfl

theorem require {c : Bool} {data' : R}
    (h : Reverts sys inv frame l (Prog.require c data' : Prog S M R L Unit) s data)
    : c = false ∧ data = data' := by
  unfold Prog.require at h
  split at h
  . exact absurd h not_pure
  . next hc => exact ⟨Bool.eq_false_iff.mpr hc, revert h⟩

/-- A single operation fails only for lack of gas. -/
theorem op {o : Op S M R L} (h : Reverts sys inv frame l (.op o .ret) s data)
    : s.charge frame.env = none ∧ data = default := by
  unfold Reverts Prog.zoom at h
  cases hs : s.charge frame.env with
  | none =>
    rw [run_op_none sys inv frame hs] at h
    cases h
    exact ⟨rfl, rfl⟩
  | some s1 =>
    rw [run_op_some sys inv frame hs rfl] at h
    cases h

end Reverts

theorem Returns.gas_le (hinv : ∀ f s, (inv f s).state.gas ≤ s.gas) {p : Prog S M R L α} {a : α}
    (h : Returns sys inv frame l p s a s' t)
    : s'.gas ≤ s.gas := by
  have hle := run_gas_le sys inv frame hinv (p.zoom l.get l.set) s
  rw [h] at hle
  exact hle

namespace Starves

variable {p : Prog S M R L α} {f : α → Prog S M R L β}

theorem reverts (h : Starves sys inv frame l p s) : Reverts sys inv frame l p s default :=
  run_of_starves sys inv frame h

theorem first (h : Starves sys inv frame l p s) : Starves sys inv frame l (p >>= f) s := by
  unfold Starves at h ⊢
  rw [Prog.zoom_bind]
  rw [starves_bind]
  rw [h]
  rfl

theorem later {a : α} {s1 : State T} {t1 : List (Event T M R L)}
    (h : Returns sys inv frame l p s a s1 t1) (h' : Starves sys inv frame l (f a) s1)
    : Starves sys inv frame l (p >>= f) s := by
  unfold Returns at h
  unfold Starves at h' ⊢
  rw [Prog.zoom_bind]
  rw [starves_bind]
  rw [h]
  dsimp only
  rw [h']
  rw [Bool.or_true]

end Starves

/-- A single operation fails only for lack of gas. -/
theorem Reverts.starves {o : Op S M R L} (h : Reverts sys inv frame l (.op o .ret) s data)
    : Starves sys inv frame l (.op o .ret : Prog S M R L o.Reply) s := by
  unfold Starves Prog.zoom Evm.starves
  rw [h.op.1]

section Errs

variable (sys inv frame l)

/-- If the program reverts, then with data that satisfies `E`. -/
def Errs (E : R → Prop) (p : Prog S M R L α) : Prop :=
  ∀ s data, Reverts sys inv frame l p s data → E data

variable {sys inv frame l} {E E' : R → Prop}

namespace Errs

theorem mono {p : Prog S M R L α} (h : Errs sys inv frame l E p) (hE : ∀ data, E data → E' data)
    : Errs sys inv frame l E' p :=
  fun s data hr => hE data (h s data hr)

theorem bind {p : Prog S M R L α} {f : α → Prog S M R L β} (hp : Errs sys inv frame l E p)
    (hf : ∀ a, Errs sys inv frame l E (f a))
    : Errs sys inv frame l E (p >>= f) := by
  intro s data hr
  rcases hr.bind with hr | ⟨a, s1, t1, _, hr⟩
  . exact hp s data hr
  . exact hf a s1 data hr

theorem pure {a : α} : Errs sys inv frame l E (pure a : Prog S M R L α) :=
  fun _ _ hr => absurd hr Reverts.not_pure

theorem revert {data : R} (h : E data) : Errs sys inv frame l E (.revert data : Prog S M R L α) := by
  intro s data' hr
  rw [hr.revert]
  exact h

theorem op {o : Op S M R L} (h : E default) : Errs sys inv frame l E (.op o .ret) := by
  intro s data hr
  rw [hr.op.2]
  exact h

theorem require {c : Bool} {data : R} (h : E data)
    : Errs sys inv frame l E (Prog.require c data : Prog S M R L Unit) := by
  intro s data' hr
  rw [hr.require.2]
  exact h

/-- What follows a call may depend on how the call ended. -/
theorem bind_call {c : Call M} {f : Bool × R → Prog S M R L β} (h : E default)
    (hf : ∀ r s, (inv ⟨c.target, frame.self, c.value, c.message, frame.env⟩ s).ok = r.1 →
      (inv ⟨c.target, frame.self, c.value, c.message, frame.env⟩ s).data = r.2 →
        Errs sys inv frame l E (f r))
    : Errs sys inv frame l E (Prog.call c >>= f) := by
  intro s data hr
  rcases hr.bind with hr | ⟨r, s1, t1, hcall, hr⟩
  . exact op h s data hr
  . obtain ⟨s2, s3, body, _, _, hinvoke, _⟩ := hcall.call
    exact hf r s2 (by rw [hinvoke]) (by rw [hinvoke]) s1 data hr

end Errs

end Errs

/-- From this state the program only reverts for lack of gas. -/
def Firm (sys : System T M R L) (inv : Frame M → State T → Reply T M R L) (frame : Frame M)
    (l : Lens T S) (p : Prog S M R L α) (s : State T) : Prop :=
  ∀ data, Reverts sys inv frame l p s data → Starves sys inv frame l p s

namespace Firm

theorem pure {a : α} : Firm sys inv frame l (pure a : Prog S M R L α) s :=
  fun _ hr => absurd hr Reverts.not_pure

theorem op {o : Op S M R L} : Firm sys inv frame l (.op o .ret : Prog S M R L o.Reply) s :=
  fun _ hr => hr.starves

theorem bind {p : Prog S M R L α} {f : α → Prog S M R L β} (hp : Firm sys inv frame l p s)
    (hf : ∀ a s1 t1, Returns sys inv frame l p s a s1 t1 → Firm sys inv frame l (f a) s1)
    : Firm sys inv frame l (p >>= f) s := by
  intro data hr
  rcases hr.bind with hr | ⟨a, s1, t1, h, hr⟩
  . exact .first (hp data hr)
  . exact .later h (hf a s1 t1 h data hr)

end Firm

/-! ## Loops -/

section Loops

variable {step : β → α → Prog S M R L β} {b : β} {xs : List α}

/-- A loop that reverts has gone through the first elements and then reverts at one of them. -/
theorem Reverts.foldlM (h : Reverts sys inv frame l (xs.foldlM step b) s data)
    : ∃ pre x post b1 s1 t1, xs = pre ++ x :: post
        ∧ Returns sys inv frame l (pre.foldlM step b) s b1 s1 t1
        ∧ Reverts sys inv frame l (step b1 x) s1 data := by
  induction xs generalizing b s with
  | nil => exact absurd h not_pure
  | cons x xs ih =>
    rw [List.foldlM_cons] at h
    rcases h.bind with h | ⟨b1, s1, t1, h1, h⟩
    . exact ⟨[], x, xs, b, s, [], rfl, rfl, h⟩
    . obtain ⟨pre, x', post, b2, s2, t2, hxs, h2, hstep⟩ := ih h
      refine ⟨x :: pre, x', post, b2, s2, t1 ++ t2, by rw [hxs]; rfl, ?_, hstep⟩
      rw [List.foldlM_cons]
      exact h1.seq h2

/-- A loop does not get past an element that it reverts at. -/
theorem Reverts.not_past {pre post : List α} {x : α} {b1 b2 : β} {s1 s2 : State T}
    {t1 t2 : List (Event T M R L)}
    (hpre : Returns sys inv frame l (pre.foldlM step b) s b1 s1 t1)
    (h : Reverts sys inv frame l (step b1 x) s1 data)
    : ¬Returns sys inv frame l ((pre ++ x :: post).foldlM step b) s b2 s2 t2 := by
  intro h'
  rw [List.foldlM_append] at h'
  obtain ⟨b3, s3, t3, t4, h3, h', _⟩ := h'.bind
  obtain ⟨rfl, rfl, _⟩ := hpre.unique h3
  rw [List.foldlM_cons] at h'
  obtain ⟨b4, s4, t5, t6, h4, _⟩ := h'.bind
  exact h4.not_reverts h

end Loops

end Reverts

end Evm
