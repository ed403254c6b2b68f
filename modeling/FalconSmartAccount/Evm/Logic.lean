import FalconSmartAccount.Evm.Run

/-!
A logic for what holds at every point that a run passes. A frame that reverts passes points as well. The
code of a `delegatecall` may do anything with the storage, so the logic is about the points outside of it.
-/

namespace Evm

variable {S T M R L α β : Type}

/-- The trace passes the world `w`, in the frame itself, in one that it called or in the code of a
`delegatecall`. -/
inductive Visited (w : World T) : List (Event T M R L) → Prop where
  | enter {t} : .enter w ∈ t → Visited w t
  | sstore {before t} : .sstore before w ∈ t → Visited w t
  | push {before t} : .push before w ∈ t → Visited w t
  | called {frame before ok data body t} : .call frame before w ok data body ∈ t → Visited w t
  | inside {frame before after ok data body t} :
      .call frame before after ok data body ∈ t → Visited w body → Visited w t
  | delegated {before body t} : .delegate before w body ∈ t → Visited w t
  | insideDelegate {before after body t} :
      .delegate before after body ∈ t → Visited w body → Visited w t

mutual

/-- The worlds that an event passes, and those that a trace passes. -/
def Event.points : Event T M R L → List (World T)
  | .enter w | .sstore _ w | .push _ w => [w]
  | .log _ => []
  | .delegate _ after body | .call _ _ after _ _ body => after :: Evm.points body
termination_by structural e => e

def points : List (Event T M R L) → List (World T)
  | [] => []
  | e :: t => e.points ++ points t
termination_by structural t => t

end

theorem Visited.mono {w : World T} {t t' : List (Event T M R L)} (h : Visited w t)
    (hsub : ∀ e ∈ t, e ∈ t')
    : Visited w t' := by
  cases h with
  | enter h => exact .enter (hsub _ h)
  | sstore h => exact .sstore (hsub _ h)
  | push h => exact .push (hsub _ h)
  | called h => exact .called (hsub _ h)
  | inside h hbody => exact .inside (hsub _ h) hbody
  | delegated h => exact .delegated (hsub _ h)
  | insideDelegate h hbody => exact .insideDelegate (hsub _ h) hbody

theorem visited_of_mem_points {w : World T} {t : List (Event T M R L)} : w ∈ points t → Visited w t := by
  refine points.induct (fun e => w ∈ e.points → Visited w [e]) (fun t => w ∈ points t → Visited w t)
    ?_ ?_ ?_ ?_ ?_ ?_ ?_ ?_ t
  . intro w' h
    rw [List.mem_singleton.mp h]
    exact .enter List.mem_cons_self
  . intro before w' h
    rw [List.mem_singleton.mp h]
    exact .sstore List.mem_cons_self
  . intro before w' h
    rw [List.mem_singleton.mp h]
    exact .push List.mem_cons_self
  . exact fun _ h => absurd h List.not_mem_nil
  . intro before after body ih h
    rcases List.mem_cons.mp h with rfl | h
    . exact .delegated List.mem_cons_self
    . exact .insideDelegate List.mem_cons_self (ih h)
  . intro frame before after ok data body ih h
    rcases List.mem_cons.mp h with rfl | h
    . exact .called List.mem_cons_self
    . exact .inside List.mem_cons_self (ih h)
  . exact fun h => absurd h List.not_mem_nil
  . intro e t ihe iht h
    rcases List.mem_append.mp h with h | h
    . exact (ihe h).mono fun e' he' => by rw [List.mem_singleton.mp he']; exact List.mem_cons_self
    . exact (iht h).mono fun _ => List.mem_cons_of_mem _

/-- The same without the code of a `delegatecall` and its end. -/
inductive Outside (w : World T) : List (Event T M R L) → Prop where
  | enter {t} : .enter w ∈ t → Outside w t
  | sstore {before t} : .sstore before w ∈ t → Outside w t
  | push {before t} : .push before w ∈ t → Outside w t
  | called {frame before ok data body t} : .call frame before w ok data body ∈ t → Outside w t
  | inside {frame before after ok data body t} :
      .call frame before after ok data body ∈ t → Outside w body → Outside w t

namespace Outside

variable {w : World T}

theorem mono {t t' : List (Event T M R L)} (h : Outside w t) (hsub : ∀ e ∈ t, e ∈ t')
    : Outside w t' := by
  cases h with
  | enter h => exact .enter (hsub _ h)
  | sstore h => exact .sstore (hsub _ h)
  | push h => exact .push (hsub _ h)
  | called h => exact .called (hsub _ h)
  | inside h hbody => exact .inside (hsub _ h) hbody

theorem append {t t' : List (Event T M R L)}
    : Outside w (t ++ t') ↔ Outside w t ∨ Outside w t' := by
  constructor
  . intro h
    cases h with
    | enter h => exact (List.mem_append.mp h).imp .enter .enter
    | sstore h => exact (List.mem_append.mp h).imp .sstore .sstore
    | push h => exact (List.mem_append.mp h).imp .push .push
    | called h => exact (List.mem_append.mp h).imp .called .called
    | inside h hbody => exact (List.mem_append.mp h).imp (.inside · hbody) (.inside · hbody)
  . rintro (h | h)
    . exact h.mono fun _ => List.mem_append_left _
    . exact h.mono fun _ => List.mem_append_right _

theorem not_nil : ¬Outside w ([] : List (Event T M R L)) := by
  intro h
  cases h <;> contradiction

theorem enter_cons {w' : World T} {t : List (Event T M R L)}
    : Outside w (.enter w' :: t) ↔ w = w' ∨ Outside w t := by
  constructor
  . intro h
    cases h with
    | enter h =>
      rcases List.mem_cons.mp h with heq | h
      . cases heq
        exact .inl rfl
      . exact .inr (.enter h)
    | sstore h => exact .inr (.sstore (by simpa using h))
    | push h => exact .inr (.push (by simpa using h))
    | called h => exact .inr (.called (by simpa using h))
    | inside h hbody => exact .inr (.inside (by simpa using h) hbody)
  . rintro (rfl | h)
    . exact .enter List.mem_cons_self
    . exact h.mono fun _ => List.mem_cons_of_mem _

theorem push_singleton {before after : World T}
    (h : Outside w [(.push before after : Event T M R L)])
    : w = after := by
  cases h with
  | push h =>
    cases List.mem_singleton.mp h
    rfl
  | _ => simp_all

theorem sstore_singleton {before after : World T}
    (h : Outside w [(.sstore before after : Event T M R L)])
    : w = after := by
  cases h with
  | sstore h =>
    cases List.mem_singleton.mp h
    rfl
  | _ => simp_all

theorem not_log {log : L} : ¬Outside w [(.log log : Event T M R L)] := by
  intro h
  cases h <;> simp_all

theorem not_delegate {before after : World T} {body : List (Event T M R L)}
    : ¬Outside w [.delegate before after body] := by
  intro h
  cases h <;> simp_all

theorem call_singleton {frame : Frame M} {before after : World T} {ok : Bool} {data : R}
    {body : List (Event T M R L)} (h : Outside w [.call frame before after ok data body])
    : w = after ∨ Outside w body := by
  cases h with
  | called h =>
    cases List.mem_singleton.mp h
    exact .inl rfl
  | inside h hbody =>
    cases List.mem_singleton.mp h
    exact .inr hbody
  | enter h => simp at h
  | sstore h => simp at h
  | push h => simp at h

end Outside

section

variable [Inhabited R] (sys : System T M R L) (inv : Frame M → State T → Reply T M R L)
  (frame : Frame M) (l : Lens T S) (I : World T → Prop)

/-- From a world with `P` the program only passes worlds with `I`, and if it returns then with `Q`. -/
def Sat (P : World T → Prop) (p : Prog S M R L α) (Q : α → World T → Prop) : Prop :=
  ∀ s, P s.world →
    (∀ w, Outside w (run sys inv frame (p.zoom l.get l.set) s).trace → I w)
      ∧ ∀ a, (run sys inv frame (p.zoom l.get l.set) s).outcome = .ok a →
          Q a (run sys inv frame (p.zoom l.get l.set) s).state.world

variable {sys inv frame l I}

namespace Sat

variable {P P' : World T → Prop} {Q Q' : α → World T → Prop}

theorem mono {p : Prog S M R L α} (h : Sat sys inv frame l I P p Q) (hP : ∀ w, P' w → P w)
    (hQ : ∀ a w, Q a w → Q' a w)
    : Sat sys inv frame l I P' p Q' := by
  intro s hs
  obtain ⟨hI, hok⟩ := h s (hP _ hs)
  exact ⟨hI, fun a ha => hQ a _ (hok a ha)⟩

/-- What does not depend on the world. -/
theorem of_and {φ : Prop} {p : Prog S M R L α} (h : φ → Sat sys inv frame l I P p Q)
    : Sat sys inv frame l I (fun w => φ ∧ P w) p Q :=
  fun s hs => h hs.1 s hs.2

theorem of_pre {c : Prop} {p : Prog S M R L α} (hP : ∀ w, P w → c)
    (h : c → Sat sys inv frame l I P p Q)
    : Sat sys inv frame l I P p Q :=
  fun s hs => h (hP _ hs) s hs

/-- What holds for each value that satisfies the precondition. -/
theorem of_exists {γ : Type} {P : γ → World T → Prop} {p : Prog S M R L α}
    (h : ∀ c, Sat sys inv frame l I (P c) p Q)
    : Sat sys inv frame l I (fun w => ∃ c, P c w) p Q :=
  fun s ⟨c, hs⟩ => h c s hs

theorem ret {a : α} (h : ∀ w, P w → Q a w)
    : Sat sys inv frame l I P (pure a : Prog S M R L α) Q := by
  intro s hs
  refine ⟨fun w hw => absurd hw Outside.not_nil, ?_⟩
  intro b hb
  cases hb
  exact h _ hs

theorem revert {data : R} : Sat sys inv frame l I P (.revert data : Prog S M R L α) Q := by
  intro s _
  refine ⟨fun w hw => absurd hw Outside.not_nil, ?_⟩
  intro b hb
  cases hb

theorem returns {p : Prog S M R L α} {s s' : State T} {a : α} {t : List (Event T M R L)}
    (h : Sat sys inv frame l I P p Q) (hs : P s.world) (hr : Returns sys inv frame l p s a s' t)
    : Q a s'.world := by
  obtain ⟨_, hok⟩ := h s hs
  unfold Returns at hr
  rw [hr] at hok
  exact hok a rfl

theorem bind {p : Prog S M R L α} {f : α → Prog S M R L β} {U : β → World T → Prop}
    (hp : Sat sys inv frame l I P p Q) (hf : ∀ a, Sat sys inv frame l I (Q a) (f a) U)
    : Sat sys inv frame l I P (p >>= f) U := by
  intro s hs
  obtain ⟨hI, hok⟩ := hp s hs
  rw [Prog.zoom_bind, run_bind]
  cases hr : (run sys inv frame (p.zoom l.get l.set) s).outcome with
  | error data =>
    refine ⟨hI, ?_⟩
    intro b hb
    cases hb
  | ok a =>
    obtain ⟨hI', hok'⟩ := hf a _ (hok a hr)
    refine ⟨?_, hok'⟩
    intro w hw
    rcases Outside.append.mp hw with h | h
    . exact hI w h
    . exact hI' w h

theorem require {c : Bool} {data : R} (h : c = true → ∀ w, P w → P' w)
    : Sat sys inv frame l I P (Prog.require c data : Prog S M R L Unit) fun _ => P' := by
  unfold Prog.require
  split
  . next hc => exact ret (h hc)
  . exact revert

/-- A single operation. -/
theorem op {o : Op S M R L} {Q : o.Reply → World T → Prop}
    (h : ∀ s, P s.world →
      (∀ w, Outside w (perform sys inv frame (o.zoom l.get l.set) s).2.2 → I w)
        ∧ Q (o.zoomReply l.get l.set (perform sys inv frame (o.zoom l.get l.set) s).1)
            (perform sys inv frame (o.zoom l.get l.set) s).2.1.world)
    : Sat sys inv frame l I P (.op o .ret) Q := by
  intro s hs
  unfold Prog.zoom
  cases hc : s.charge frame.env with
  | none =>
    rw [run_op_none sys inv frame hc]
    refine ⟨fun w hw => absurd hw Outside.not_nil, ?_⟩
    intro b hb
    cases hb
  | some s1 =>
    obtain ⟨hI, hQ⟩ := h s1 (by rwa [charge_world hc])
    rw [run_op_some sys inv frame hc rfl]
    simp only [Prog.zoom, run, List.append_nil]
    refine ⟨hI, ?_⟩
    intro b hb
    cases hb
    exact hQ

theorem gasleft : Sat sys inv frame l I P (Prog.gasleft : Prog S M R L Nat) fun _ => P :=
  op fun _ hs => ⟨fun _ hw => absurd hw Outside.not_nil, hs⟩

theorem codeLength {a : Address}
    : Sat sys inv frame l I P (Prog.codeLength a : Prog S M R L Nat) fun _ => P :=
  op fun _ hs => ⟨fun _ hw => absurd hw Outside.not_nil, hs⟩

theorem sload
    : Sat sys inv frame l I P (Prog.sload : Prog S M R L S)
        fun v w => P w ∧ v = l.get w.storage :=
  op fun _ hs => ⟨fun _ hw => absurd hw Outside.not_nil, hs, rfl⟩

theorem emit {log : L} : Sat sys inv frame l I P (Prog.emit log : Prog S M R L Unit) fun _ => P := by
  exact op fun s hs => ⟨fun w hw => absurd hw Outside.not_log, hs⟩

theorem sstore {f : S → S} (h : ∀ w, P w → I (w.write l f) ∧ P' (w.write l f))
    : Sat sys inv frame l I P (Prog.sstore f : Prog S M R L Unit) fun _ => P' := by
  refine op fun s hs => ⟨?_, (h _ hs).2⟩
  intro w hw
  change Outside w [.sstore s.world (s.world.write l f)] at hw
  rw [hw.sstore_singleton]
  exact (h _ hs).1

theorem call {c : Call M} {Q : Bool × R → World T → Prop}
    (h : ∀ s, P s.world →
      let r := inv ⟨c.target, frame.self, c.value, c.message, frame.env⟩ s
      (∀ w, Outside w r.body → I w) ∧ I r.state.world ∧ Q (r.ok, r.data) r.state.world)
    : Sat sys inv frame l I P (Prog.call c : Prog S M R L (Bool × R)) Q := by
  refine op fun s hs => ?_
  obtain ⟨hbody, hafter, hQ⟩ := h { s with gas := callGas c.gas s.gas } hs
  refine ⟨?_, hQ⟩
  intro w hw
  rcases Outside.call_singleton hw with rfl | hw
  . exact hafter
  . exact hbody w hw

/-- Nothing is known after a `delegatecall`. -/
theorem delegatecall {target : Address} {message : M}
    : Sat sys inv frame l I P (Prog.delegatecall target message : Prog S M R L (Bool × R))
        fun _ _ => True :=
  op fun _ _ => ⟨fun _ hw => absurd hw Outside.not_delegate, trivial⟩

/-! The same rules for the first step of a program. -/

variable {U : β → World T → Prop}

theorem bind_gasleft {f : Nat → Prog S M R L β} (h : ∀ n, Sat sys inv frame l I P (f n) U)
    : Sat sys inv frame l I P (Prog.gasleft >>= f) U :=
  bind gasleft h

theorem bind_codeLength {a : Address} {f : Nat → Prog S M R L β}
    (h : ∀ n, Sat sys inv frame l I P (f n) U)
    : Sat sys inv frame l I P (Prog.codeLength a >>= f) U :=
  bind codeLength h

theorem bind_sload {f : S → Prog S M R L β}
    (h : ∀ v, Sat sys inv frame l I (fun w => P w ∧ v = l.get w.storage) (f v) U)
    : Sat sys inv frame l I P (Prog.sload >>= f) U :=
  bind sload h

theorem bind_emit {log : L} {f : Unit → Prog S M R L β} (h : Sat sys inv frame l I P (f ()) U)
    : Sat sys inv frame l I P (Prog.emit log >>= f) U :=
  bind emit fun _ => h

theorem bind_revert {data : R} {f : α → Prog S M R L β}
    : Sat sys inv frame l I P (Prog.revert data >>= f) U :=
  bind (Q := fun _ _ => False) revert fun _ _ hs => hs.elim

theorem bind_require {c : Bool} {data : R} {f : Unit → Prog S M R L β}
    (h : c = true → Sat sys inv frame l I P (f ()) U)
    : Sat sys inv frame l I P (Prog.require c data >>= f) U := by
  unfold Prog.require
  split
  . next hc => exact h hc
  . exact bind_revert

theorem bind_sstore {f : S → S} {g : Unit → Prog S M R L β}
    (hf : ∀ w, P w → I (w.write l f) ∧ P' (w.write l f)) (h : Sat sys inv frame l I P' (g ()) U)
    : Sat sys inv frame l I P (Prog.sstore f >>= g) U :=
  bind (sstore hf) fun _ => h

/-- Any program keeps a property that each operation keeps. -/
theorem of_ops {J : World T → Prop} (p : Prog S M R L α)
    (h : ∀ (o : Op S M R L) s, J s.world →
      (∀ w, Outside w (perform sys inv frame (o.zoom l.get l.set) s).2.2 → I w)
        ∧ J (perform sys inv frame (o.zoom l.get l.set) s).2.1.world)
    : Sat sys inv frame l I J p fun _ => J := by
  induction p with
  | ret a => exact ret fun _ hw => hw
  | revert data => exact revert
  | op o k ih =>
    exact bind (p := .op o .ret) (Q := fun _ => J) (op (h o)) ih

end Sat

end

/-! ## Calls -/

section Invoke

variable [Inhabited R] (sys : System T M R L)

theorem invoke_failed {depth : Nat} {frame : Frame M} {s : State T}
    (h : (invoke sys depth frame s).ok = false)
    : (invoke sys depth frame s).state.world = s.world := by
  cases depth with
  | zero => rfl
  | succ depth =>
    unfold invoke at h ⊢
    cases hl : s.world.ledger.transfer frame.caller frame.self frame.value with
    | none => rfl
    | some ledger =>
      rw [hl] at h
      dsimp only at h ⊢
      cases hc : sys.code s.world.storage frame.self with
      | none =>
        rw [hc] at h
        cases h
      | some program =>
        rw [hc] at h
        dsimp only at h ⊢
        cases ho : (run sys (invoke sys depth) frame (program frame)
            { s with world := { s.world with ledger := ledger } }).outcome with
        | ok data =>
          rw [ho] at h
          cases h
        | error data => rfl

/-- A call of an address without code only moves its value. -/
theorem invoke_no_code {depth : Nat} {frame : Frame M} {s : State T} {I : World T → Prop}
    (hcode : sys.code s.world.storage frame.self = none) (hI : I s.world)
    (htransfer : ∀ ledger, s.world.ledger.transfer frame.caller frame.self frame.value = some ledger →
      I { s.world with ledger := ledger })
    : (∀ w, Outside w (invoke sys depth frame s).body → I w)
        ∧ I (invoke sys depth frame s).state.world := by
  cases depth with
  | zero => exact ⟨fun w hw => absurd hw Outside.not_nil, hI⟩
  | succ depth =>
    unfold invoke
    cases hl : s.world.ledger.transfer frame.caller frame.self frame.value with
    | none => exact ⟨fun w hw => absurd hw Outside.not_nil, hI⟩
    | some ledger =>
      simp only [hcode]
      refine ⟨?_, htransfer ledger hl⟩
      intro w hw
      rcases Outside.enter_cons.mp hw with rfl | hw
      . exact htransfer ledger hl
      . exact absurd hw Outside.not_nil

/-- A call of a contract, from what its program does with what it calls. -/
theorem invoke_code {depth : Nat} {frame : Frame M} {s : State T} {I : World T → Prop}
    {l : Lens T S} {p : Prog S M R L R} {Q : R → World T → Prop}
    (hcode : ∀ ledger, s.world.ledger.transfer frame.caller frame.self frame.value = some ledger →
      ∃ program, sys.code s.world.storage frame.self = some program
        ∧ program frame = p.zoom l.get l.set)
    (henter : ∀ ledger, s.world.ledger.transfer frame.caller frame.self frame.value = some ledger →
      I { s.world with ledger := ledger })
    (hp : ∀ d < depth, ∀ ledger,
      s.world.ledger.transfer frame.caller frame.self frame.value = some ledger →
        Sat sys (invoke sys d) frame l I (· = { s.world with ledger := ledger }) p Q)
    : (∀ w, Outside w (invoke sys depth frame s).body → I w)
        ∧ ((invoke sys depth frame s).ok = true →
            Q (invoke sys depth frame s).data (invoke sys depth frame s).state.world) := by
  cases depth with
  | zero => exact ⟨fun w hw => absurd hw Outside.not_nil, fun h => by cases h⟩
  | succ depth =>
    unfold invoke
    cases hl : s.world.ledger.transfer frame.caller frame.self frame.value with
    | none => exact ⟨fun w hw => absurd hw Outside.not_nil, fun h => by cases h⟩
    | some ledger =>
      obtain ⟨program, hprogram, hp'⟩ := hcode ledger hl
      obtain ⟨hI, hok⟩ := hp depth (Nat.lt_succ_self depth) ledger hl
        { s with world := { s.world with ledger := ledger } } rfl
      simp only [hprogram, hp']
      have hvisited : ∀ w, Outside w (Event.enter { s.world with ledger := ledger }
          :: (run sys (invoke sys depth) frame (p.zoom l.get l.set)
            { s with world := { s.world with ledger := ledger } }).trace) → I w := by
        intro w hw
        rcases Outside.enter_cons.mp hw with rfl | hw
        . exact henter ledger hl
        . exact hI w hw
      cases ho : (run sys (invoke sys depth) frame (p.zoom l.get l.set)
          { s with world := { s.world with ledger := ledger } }).outcome with
      | ok data => exact ⟨hvisited, fun _ => hok data ho⟩
      | error data => exact ⟨hvisited, fun h => by cases h⟩

end Invoke

end Evm
