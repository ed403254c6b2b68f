import FalconSmartAccount.Evm.Trace

/-!
The operations that a program can come to, whatever it gets as replies, and what they leave in the trace
of its runs.
-/

namespace Evm

variable {S T M R L α β : Type} {K : Op S M R L → Prop}

namespace Prog

/-- All operations of the program satisfy `K`. -/
def Does (K : Op S M R L → Prop) : Prog S M R L α → Prop
  | .ret _ | .revert _ => True
  | .op o k => K o ∧ ∀ r, (k r).Does K

namespace Does

theorem ret {a : α} : (pure a : Prog S M R L α).Does K := trivial

theorem revert {data : R} : (.revert data : Prog S M R L α).Does K := trivial

theorem op {o : Op S M R L} (h : K o) : (.op o .ret : Prog S M R L o.Reply).Does K :=
  ⟨h, fun _ => trivial⟩

theorem bind {p : Prog S M R L α} {f : α → Prog S M R L β} (hp : p.Does K) (hf : ∀ a, (f a).Does K)
    : (p >>= f).Does K := by
  induction p with
  | ret a => exact hf a
  | revert data => exact revert
  | op o k ih => exact ⟨hp.1, fun r => ih r (hp.2 r)⟩

theorem require {c : Bool} {data : R} : (Prog.require c data : Prog S M R L Unit).Does K := by
  unfold Prog.require
  split
  . exact ret
  . exact revert

theorem forM {xs : List β} {f : β → Prog S M R L PUnit} (hf : ∀ x, (f x).Does K) : (xs.forM f).Does K := by
  induction xs with
  | nil => exact ret
  | cons x xs ih => exact (hf x).bind fun _ => ih

theorem any (p : Prog S M R L α) : p.Does fun _ => True := by
  induction p with
  | ret a => exact ret
  | revert data => exact revert
  | op o k ih => exact ⟨trivial, ih⟩

end Does

/-- Whatever the program returns satisfies `P`. -/
def Yields (P : α → Prop) : Prog S M R L α → Prop
  | .ret a => P a
  | .revert _ => True
  | .op _ k => ∀ r, (k r).Yields P

namespace Yields

variable {P : α → Prop}

theorem any {p : Prog S M R L α} : p.Yields fun _ => True := by
  induction p with
  | ret a => trivial
  | revert data => trivial
  | op o k ih => exact ih

theorem bind {Q : β → Prop} {p : Prog S M R L α} {f : α → Prog S M R L β} (hp : p.Yields P)
    (hf : ∀ a, P a → (f a).Yields Q)
    : (p >>= f).Yields Q := by
  induction p with
  | ret a => exact hf a hp
  | revert data => trivial
  | op o k ih => exact fun r => ih r (hp r)

theorem of_bind {Q : β → Prop} {p : Prog S M R L α} {f : α → Prog S M R L β} (hf : ∀ a, (f a).Yields Q)
    : (p >>= f).Yields Q := by
  apply bind any
  intro a _
  apply hf

theorem zoom {l : Lens T S} {p : Prog S M R L α} (hp : p.Yields P) : (p.zoom l.get l.set).Yields P := by
  induction p with
  | ret a => exact hp
  | revert data => trivial
  | op o k ih => exact fun r => ih _ (hp _)

end Yields

end Prog

section

variable [Inhabited R] {sys : System T M R L} {inv : Frame M → State T → Reply T M R L} {frame : Frame M}
  {l : Lens T S}

/-- Each event in the trace is one of an operation of the program. -/
theorem Returns.operations {p : Prog S M R L α} {s s' : State T} {a : α} {t : List (Event T M R L)}
    (h : Returns sys inv frame l p s a s' t) (hp : p.Does K) {e : Event T M R L} (he : e ∈ t)
    : ∃ o s1, K o ∧ e ∈ (perform sys inv frame (o.zoom l.get l.set) s1).2.2 := by
  have hrun : t = (run sys inv frame (p.zoom l.get l.set) s).trace := by
    unfold Returns at h
    rw [h]
  rw [hrun] at he
  clear h hrun
  induction p generalizing s with
  | ret a => exact absurd he List.not_mem_nil
  | revert data => exact absurd he List.not_mem_nil
  | op o k ih =>
    unfold Prog.zoom at he
    cases hs : s.charge frame.env with
    | none =>
      rw [run_op_none sys inv frame hs] at he
      exact absurd he List.not_mem_nil
    | some s1 =>
      rw [run_op_some sys inv frame hs rfl] at he
      rcases List.mem_append.mp he with he | he
      . exact ⟨o, s1, hp.1, he⟩
      . exact ih _ (hp.2 _) he

theorem Returns.calls {p : Prog S M R L α} {s s' : State T} {a : α} {t : List (Event T M R L)}
    (h : Returns sys inv frame l p s a s' t) (hp : p.Does K) {callee : Frame M} {before after : World T}
    {ok : Bool} {data : R} {body : List (Event T M R L)}
    (he : .call callee before after ok data body ∈ t)
    : ∃ c, K (.call c) ∧ callee = ⟨c.target, frame.self, c.value, c.message, frame.env⟩ := by
  obtain ⟨o, s1, ho, he⟩ := h.operations hp he
  cases o with
  | call c =>
    cases List.mem_singleton.mp he
    exact ⟨c, ho, rfl⟩
  | push target value =>
    simp only [Op.zoom, perform] at he
    split at he <;> simp at he
  | _ => simp [Op.zoom, perform] at he

theorem Returns.sstores {p : Prog S M R L α} {s s' : State T} {a : α} {t : List (Event T M R L)}
    (h : Returns sys inv frame l p s a s' t) (hp : p.Does K) {before after : World T}
    (he : .sstore before after ∈ t)
    : ∃ f, K (.sstore f) ∧ after = before.write l f := by
  obtain ⟨o, s1, ho, he⟩ := h.operations hp he
  cases o with
  | sstore f =>
    cases List.mem_singleton.mp he
    exact ⟨f, ho, rfl⟩
  | push target value =>
    simp only [Op.zoom, perform] at he
    split at he <;> simp at he
  | _ => simp [Op.zoom, perform] at he

/-! ## What a program keeps -/

/-- A program keeps what all of its operations keep. -/
theorem Sat.of_does {I J : World T → Prop} {p : Prog S M R L α} (hp : p.Does K)
    (h : ∀ o, K o → ∀ s, J s.world →
      (∀ w, Outside w (perform sys inv frame (o.zoom l.get l.set) s).2.2 → I w)
        ∧ J (perform sys inv frame (o.zoom l.get l.set) s).2.1.world)
    : Sat sys inv frame l I J p fun _ => J := by
  induction p with
  | ret a => exact Sat.ret fun _ hw => hw
  | revert data => exact Sat.revert
  | op o k ih => exact Sat.bind (p := .op o .ret) (Q := fun _ => J) (Sat.op (h o hp.1)) fun r => ih r (hp.2 r)

/-- All its calls start from worlds with this property. -/
theorem Prog.Does.calls_from {J : World T → Prop} {p : Prog S M R L α} (hp : p.Does K)
    (h : ∀ o, K o → ∀ s, J s.world → J (perform sys inv frame (o.zoom l.get l.set) s).2.1.world)
    {s : State T} (hs : J s.world) {callee : Frame M} {before after : World T} {ok : Bool} {data : R}
    {body : List (Event T M R L)}
    (he : .call callee before after ok data body ∈ (run sys inv frame (p.zoom l.get l.set) s).trace)
    : J before := by
  induction p generalizing s with
  | ret a => exact absurd he List.not_mem_nil
  | revert data => exact absurd he List.not_mem_nil
  | op o k ih =>
    unfold Prog.zoom at he
    cases hc : s.charge frame.env with
    | none =>
      rw [run_op_none sys inv frame hc] at he
      exact absurd he List.not_mem_nil
    | some s1 =>
      have hs1 : J s1.world := by rwa [charge_world hc]
      rw [run_op_some sys inv frame hc rfl] at he
      rcases List.mem_append.mp he with he | he
      . cases o with
        | call c =>
          cases List.mem_singleton.mp he
          exact hs1
        | push target value =>
          simp only [Op.zoom] at he
          split at he <;> simp at he
        | _ => simp [Op.zoom] at he
      . exact ih _ (hp.2 _) (h o hp.1 s1 hs1) he

/-! ## The parts of a trace -/

theorem mem_run_bind {p : Prog S M R L α} {f : α → Prog S M R L β} {s : State T} {e : Event T M R L}
    (he : e ∈ (run sys inv frame ((p >>= f).zoom l.get l.set) s).trace)
    : e ∈ (run sys inv frame (p.zoom l.get l.set) s).trace
        ∨ ∃ a s1 t, Returns sys inv frame l p s a s1 t
          ∧ e ∈ (run sys inv frame ((f a).zoom l.get l.set) s1).trace := by
  rw [Prog.zoom_bind, run_bind] at he
  cases ho : (run sys inv frame (p.zoom l.get l.set) s).outcome with
  | error data =>
    rw [ho] at he
    exact .inl he
  | ok a =>
    rw [ho] at he
    rcases List.mem_append.mp he with he | he
    . exact .inl he
    . refine .inr ⟨a, _, (run sys inv frame (p.zoom l.get l.set) s).trace, ?_, he⟩
      unfold Returns
      rw [← ho]

theorem mem_run_op {o : Op S M R L} {s : State T} {e : Event T M R L}
    (he : e ∈ (run sys inv frame ((.op o .ret : Prog S M R L o.Reply).zoom l.get l.set) s).trace)
    : ∃ s1, e ∈ (perform sys inv frame (o.zoom l.get l.set) s1).2.2 := by
  unfold Prog.zoom at he
  cases hc : s.charge frame.env with
  | none =>
    rw [run_op_none sys inv frame hc] at he
    exact absurd he List.not_mem_nil
  | some s1 =>
    rw [run_op_some sys inv frame hc rfl] at he
    simp only [Prog.zoom, run, List.append_nil] at he
    exact ⟨s1, he⟩

end

/-- The body of a call, whether it reverts or not, is that of the program of its target. -/
theorem invoke_body_code [Inhabited R] (sys : System T M R L) {n : Nat} {frame : Frame M} {s : State T}
    {e : Event T M R L} (h : e ∈ (invoke sys n frame s).body)
    : ∃ m < n, ∃ ledger, s.world.ledger.transfer frame.caller frame.self frame.value = some ledger
        ∧ (e = .enter { s.world with ledger := ledger }
          ∨ ∃ program, sys.code s.world.storage frame.self = some program
            ∧ e ∈ (run sys (invoke sys m) frame (program frame)
              { s with world := { s.world with ledger := ledger } }).trace) := by
  cases n with
  | zero => exact absurd h List.not_mem_nil
  | succ m =>
    refine ⟨m, Nat.lt_succ_self m, ?_⟩
    unfold invoke at h
    cases hl : s.world.ledger.transfer frame.caller frame.self frame.value with
    | none =>
      rw [hl] at h
      exact absurd h List.not_mem_nil
    | some ledger =>
      rw [hl] at h
      dsimp only at h
      refine ⟨ledger, rfl, ?_⟩
      cases hc : sys.code s.world.storage frame.self with
      | none =>
        rw [hc] at h
        exact .inl (List.mem_singleton.mp h)
      | some program =>
        rw [hc] at h
        dsimp only at h
        let s1 : State T := { s with world := { s.world with ledger := ledger } }
        have hmem : e ∈ .enter s1.world :: (run sys (invoke sys m) frame (program frame) s1).trace := by
          cases ho : (run sys (invoke sys m) frame (program frame) s1).outcome with
          | ok data =>
            rw [ho] at h
            exact h
          | error data =>
            rw [ho] at h
            exact h
        rcases List.mem_cons.mp hmem with heq | hmem
        . exact .inl heq
        . exact .inr ⟨program, rfl, hmem⟩

end Evm
