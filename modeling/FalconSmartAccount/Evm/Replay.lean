import FalconSmartAccount.Evm.Operations

/-!
Runs with the results of all calls and all measurements of gas given from outside, and programs that
do the same in all of them.
-/

namespace Evm

/-- What a program is told: how much gas is left, or what became of a call. -/
inductive Answer (T M R L : Type) where
  | gas (n : Nat)
  | call (ok : Bool) (data : R) (after : World T) (body : List (Event T M R L))

variable {S T M R L α β : Type}

/-- What an operation has been told. -/
def Op.answers : (o : Op T M R L) → o.Reply → List (Event T M R L) → List (Answer T M R L)
  | .gasleft, n, _ => [.gas n]
  | .call _, _, [.call _ _ after ok data body] => [.call ok data after body]
  | .delegatecall _ _, (ok, data), [.delegate _ after body] => [.call ok data after body]
  | _, _, _ => []

/-- The operation is told nothing. -/
def Op.Unasked : Op T M R L → Prop
  | .gasleft | .call _ | .delegatecall _ _ => False
  | _ => True

/-- The operation does not run the code of another contract as its own. -/
def Op.Own : Op T M R L → Prop
  | .delegatecall _ _ => False
  | _ => True

theorem Prog.Does.own {K : Op S M R L → Prop} (hK : ∀ o, K o → o.Own) {l : Lens T S}
    {p : Prog S M R L α} (hp : p.Does K)
    : (p.zoom l.get l.set).Does Op.Own := by
  induction p with
  | ret a => trivial
  | revert data => trivial
  | op o k ih =>
    have ho := hK o hp.1
    refine ⟨?_, fun r => ih _ (hp.2 _)⟩
    cases o with
    | delegatecall target message => cases ho
    | _ => trivial

section

variable (sys : System T M R L) (frame : Frame M)

/-- With these answers, the program returns `a` and leads to the world `w'`, with the events `t`. What
it costs does not matter. -/
inductive Replays : Prog T M R L α → World T → List (Answer T M R L) → α → World T →
    List (Event T M R L) → Prop where
  | ret {a w} : Replays (.ret a) w [] a w []
  | gasleft {k w n as a w' t} :
      Replays (k n) w as a w' t → Replays (.op .gasleft k) w (.gas n :: as) a w' t
  | call {c k w ok data after body as a w' t} :
      Replays (k (ok, data)) after as a w' t →
      Replays (.op (.call c) k) w (.call ok data after body :: as) a w'
        (.call ⟨c.target, frame.self, c.value, c.message, frame.env⟩ w after ok data body :: t)
  | delegatecall {target message k w ok data after body as a w' t} :
      Replays (k (ok, data)) after as a w' t →
      Replays (.op (.delegatecall target message) k) w (.call ok data after body :: as) a w'
        (.delegate w after body :: t)
  | op {inv o k reply s s1 as a w' t t1} :
      Op.Unasked o → perform sys inv frame o s = (reply, s1, t1) → Replays (k reply) s1.world as a w' t →
      Replays (.op o k) s.world as a w' (t1 ++ t)

/-- What a run has been told. -/
def answers (inv : Frame M → State T → Reply T M R L) : Prog T M R L α → State T → List (Answer T M R L)
  | .ret _, _ | .revert _, _ => []
  | .op o k, s =>
    match s.charge frame.env with
    | none => []
    | some s =>
      let (reply, s, t) := perform sys inv frame o s
      o.answers reply t ++ answers inv (k reply) s

end

variable {sys : System T M R L} {frame : Frame M} {w w' : World T} {t : List (Event T M R L)}

/-- A run replays with what it has been told. -/
theorem replays_answers [Inhabited R] {inv : Frame M → State T → Reply T M R L} {p : Prog T M R L α}
    {a : α} {s s' : State T} (h : run sys inv frame p s = ⟨.ok a, s', t⟩)
    : Replays sys frame p s.world (answers sys frame inv p s) a s'.world t := by
  induction p generalizing s t with
  | ret b =>
    cases h
    exact .ret
  | revert data => cases h
  | op o k ih =>
    unfold answers
    cases hs : s.charge frame.env with
    | none =>
      rw [run_op_none sys inv frame hs] at h
      cases h
    | some s1 =>
      rcases hp : perform sys inv frame o s1 with ⟨reply, s2, t1⟩
      rw [run_op_some sys inv frame hs hp] at h
      rcases hr : run sys inv frame (k reply) s2 with ⟨outcome, s3, t2⟩
      rw [hr] at h
      cases h
      have hrest := ih reply hr
      rw [← charge_world hs]
      simp only [hp]
      cases o with
      | gasleft =>
        cases hp
        exact .gasleft hrest
      | call c =>
        cases hp
        exact .call hrest
      | delegatecall target message =>
        cases hp
        exact .delegatecall hrest
      | _ => exact .op trivial hp hrest

namespace Replays

theorem bind {p : Prog T M R L α} {f : α → Prog T M R L β} {as : List (Answer T M R L)} {b : β}
    (h : Replays sys frame (p >>= f) w as b w' t)
    : ∃ a w1 as1 as2 t1 t2, Replays sys frame p w as1 a w1 t1 ∧ Replays sys frame (f a) w1 as2 b w' t2
        ∧ as = as1 ++ as2 ∧ t = t1 ++ t2 := by
  induction p generalizing w as t with
  | ret a => exact ⟨a, w, [], as, [], t, .ret, h, rfl, rfl⟩
  | revert data => cases h
  | op o k ih =>
    change Replays sys frame (.op o fun r => k r >>= f) w as b w' t at h
    cases h with
    | gasleft h =>
      obtain ⟨a, w1, as1, as2, t1, t2, h1, h2, rfl, rfl⟩ := ih _ h
      exact ⟨a, w1, _, as2, t1, t2, .gasleft h1, h2, rfl, rfl⟩
    | call h =>
      obtain ⟨a, w1, as1, as2, t1, t2, h1, h2, rfl, rfl⟩ := ih _ h
      exact ⟨a, w1, _, as2, _, t2, .call h1, h2, rfl, rfl⟩
    | delegatecall h =>
      obtain ⟨a, w1, as1, as2, t1, t2, h1, h2, rfl, rfl⟩ := ih _ h
      exact ⟨a, w1, _, as2, _, t2, .delegatecall h1, h2, rfl, rfl⟩
    | op ho hp h =>
      obtain ⟨a, w1, as1, as2, t1, t2, h1, h2, rfl, rfl⟩ := ih _ h
      exact ⟨a, w1, as1, as2, _, t2, .op ho hp h1, h2, rfl, (List.append_assoc _ _ _).symm⟩

theorem seq {p : Prog T M R L α} {f : α → Prog T M R L β} {as as' : List (Answer T M R L)} {a : α}
    {b : β} {w1 : World T} {t' : List (Event T M R L)} (h : Replays sys frame p w as a w1 t)
    (h' : Replays sys frame (f a) w1 as' b w' t')
    : Replays sys frame (p >>= f) w (as ++ as') b w' (t ++ t') := by
  induction h with
  | ret => exact h'
  | gasleft _ ih => exact .gasleft (ih h')
  | call _ ih => exact .call (ih h')
  | delegatecall _ ih => exact .delegatecall (ih h')
  | op ho hp _ ih =>
    rw [List.append_assoc]
    exact .op ho hp (ih h')

/-- What an operation is not told it takes from the world. -/
theorem perform_unasked {inv inv' : Frame M → State T → Reply T M R L} {o : Op T M R L}
    (ho : o.Unasked) {s s' s1 s1' : State T} {reply reply' : o.Reply} {t' : List (Event T M R L)}
    (hworld : s'.world = s.world) (h : perform sys inv frame o s = (reply, s1, t))
    (h' : perform sys inv' frame o s' = (reply', s1', t'))
    : reply' = reply ∧ s1'.world = s1.world ∧ t' = t := by
  obtain ⟨w, gas, tick⟩ := s
  obtain ⟨w', gas', tick'⟩ := s'
  cases hworld
  cases o with
  | gasleft => cases ho
  | call c => cases ho
  | delegatecall target message => cases ho
  | push target value =>
    simp only [perform] at h h'
    cases htransfer : w.ledger.transfer frame.self target value with
    | none =>
      rw [htransfer] at h h'
      cases h
      cases h'
      exact ⟨rfl, rfl, rfl⟩
    | some ledger =>
      rw [htransfer] at h h'
      cases h
      cases h'
      exact ⟨rfl, rfl, rfl⟩
  | _ =>
    cases h
    cases h'
    exact ⟨rfl, rfl, rfl⟩

/-- The answers decide what a program does, event by event. -/
theorem determined {p : Prog T M R L α} {as bs : List (Answer T M R L)} {a b : α} {w1 : World T}
    {t' : List (Event T M R L)} (h : Replays sys frame p w as a w' t)
    (h' : Replays sys frame p w bs b w1 t') (hbefore : as <+: bs)
    : bs = as ∧ b = a ∧ w1 = w' ∧ t' = t := by
  induction h generalizing bs t' with
  | ret =>
    cases h'
    exact ⟨rfl, rfl, rfl, rfl⟩
  | gasleft _ ih =>
    cases h' with
    | gasleft h' =>
      obtain ⟨hanswer, hrest⟩ := List.cons_prefix_cons.mp hbefore
      cases hanswer
      obtain ⟨rfl, rfl, rfl, rfl⟩ := ih h' hrest
      exact ⟨rfl, rfl, rfl, rfl⟩
    | op ho _ _ => cases ho
  | call _ ih =>
    cases h' with
    | call h' =>
      obtain ⟨hanswer, hrest⟩ := List.cons_prefix_cons.mp hbefore
      cases hanswer
      obtain ⟨rfl, rfl, rfl, rfl⟩ := ih h' hrest
      exact ⟨rfl, rfl, rfl, rfl⟩
    | op ho _ _ => cases ho
  | delegatecall _ ih =>
    cases h' with
    | delegatecall h' =>
      obtain ⟨hanswer, hrest⟩ := List.cons_prefix_cons.mp hbefore
      cases hanswer
      obtain ⟨rfl, rfl, rfl, rfl⟩ := ih h' hrest
      exact ⟨rfl, rfl, rfl, rfl⟩
    | op ho _ _ => cases ho
  | op ho hp _ ih =>
    generalize hw : State.world _ = w0 at h'
    cases h' with
    | gasleft _ => cases ho
    | call _ => cases ho
    | delegatecall _ => cases ho
    | op _ hp' h' =>
      obtain ⟨rfl, hworld, rfl⟩ := perform_unasked ho hw.symm hp hp'
      rw [hworld] at h'
      obtain ⟨rfl, rfl, rfl, rfl⟩ := ih h' hbefore
      exact ⟨rfl, rfl, rfl, rfl⟩

theorem unique {p : Prog T M R L α} {as bs : List (Answer T M R L)} {a b : α} {w1 : World T}
    {t' : List (Event T M R L)} (h : Replays sys frame p w as a w' t)
    (h' : Replays sys frame p w bs b w1 t') (hbefore : as <+: bs)
    : bs = as ∧ b = a ∧ w1 = w' := by
  obtain ⟨hanswers, hvalue, hworld, _⟩ := determined h h' hbefore
  exact ⟨hanswers, hvalue, hworld⟩

theorem yields {P : α → Prop} {p : Prog T M R L α} (hp : p.Yields P) {as : List (Answer T M R L)}
    {a : α} (h : Replays sys frame p w as a w' t)
    : P a := by
  induction h with
  | ret => exact hp
  | gasleft _ ih => exact ih (hp _)
  | call _ ih => exact ih (hp _)
  | delegatecall _ ih => exact ih (hp _)
  | op _ _ _ ih => exact ih (hp _)

/-- The answers that a program takes from a list are always the same ones. -/
theorem unique_append {p : Prog T M R L α} {as as' bs bs' : List (Answer T M R L)} {a b : α}
    {w1 : World T} {t' : List (Event T M R L)} (h : Replays sys frame p w as a w' t)
    (h' : Replays sys frame p w bs b w1 t') (heq : as ++ as' = bs ++ bs')
    : b = a ∧ w1 = w' ∧ t' = t ∧ bs' = as' := by
  have hprefix : as <+: bs ++ bs' := by
    rw [← heq]
    apply List.prefix_append
  cases List.prefix_or_prefix_of_prefix hprefix (List.prefix_append bs bs') with
  | inl hbefore =>
    obtain ⟨rfl, rfl, rfl, rfl⟩ := determined h h' hbefore
    exact ⟨rfl, rfl, rfl, (List.append_cancel_left heq).symm⟩
  | inr hbefore =>
    obtain ⟨rfl, rfl, rfl, rfl⟩ := determined h' h hbefore
    exact ⟨rfl, rfl, rfl, (List.append_cancel_left heq).symm⟩

theorem perform_frame {frame' : Frame M} {inv : Frame M → State T → Reply T M R L} {o : Op T M R L}
    (hself : frame'.self = frame.self) (ho : o.Unasked) (s : State T)
    : perform sys inv frame' o s = perform sys inv frame o s := by
  cases o with
  | call c => cases ho
  | delegatecall target message => cases ho
  | push target value =>
    unfold perform
    rw [hself]
  | _ => rfl

/-- Who has called the contract and with what does not matter. -/
theorem of_frame {frame' : Frame M} (hself : frame'.self = frame.self) (henv : frame'.env = frame.env)
    {p : Prog T M R L α} (hp : p.Does Op.Own) {as : List (Answer T M R L)} {a : α}
    (h : Replays sys frame p w as a w' t)
    : Replays sys frame' p w as a w' t := by
  induction h with
  | ret => exact .ret
  | gasleft _ ih => exact .gasleft (ih (hp.2 _))
  | call _ ih =>
    rw [← hself]
    rw [← henv]
    exact .call (ih (hp.2 _))
  | delegatecall _ _ => cases hp.1
  | op ho hperform _ ih =>
    rw [← perform_frame hself ho] at hperform
    exact .op ho hperform (ih (hp.2 _))

section

variable {l : Lens T S} {as : List (Answer T M R L)} {a : α}

theorem bind_sload [Inhabited R] {f : S → Prog S M R L α}
    : Replays sys frame ((Prog.sload >>= f).zoom l.get l.set) w as a w' t
        ↔ Replays sys frame ((f (l.get w.storage)).zoom l.get l.set) w as a w' t := by
  constructor
  . intro h
    cases h with
    | op _ hperform h =>
      cases hperform
      exact h
  . intro h
    let refuses (_ : Frame M) (s : State T) : Reply T M R L := ⟨false, default, s, []⟩
    change Replays sys frame (.op .sload fun s => (f (l.get s)).zoom l.get l.set) w as a w' t
    exact @Replays.op _ _ _ _ _ _ _ refuses .sload _ _ ⟨w, 0, 0⟩ _ _ _ _ _ _ trivial rfl h

theorem bind_sstore [Inhabited R] {g : S → S} {f : Unit → Prog S M R L α}
    : Replays sys frame ((Prog.sstore g >>= f).zoom l.get l.set) w as a w' t
        ↔ ∃ t', t = .sstore w (w.write l g) :: t'
          ∧ Replays sys frame ((f ()).zoom l.get l.set) (w.write l g) as a w' t' := by
  constructor
  . intro h
    cases h with
    | op _ hperform h =>
      cases hperform
      exact ⟨_, rfl, h⟩
  . rintro ⟨t', rfl, h⟩
    let refuses (_ : Frame M) (s : State T) : Reply T M R L := ⟨false, default, s, []⟩
    change Replays sys frame (.op (.sstore fun s => l.set (g (l.get s)) s) fun _ =>
      (f ()).zoom l.get l.set) w as a w' _
    exact @Replays.op _ _ _ _ _ _ _ refuses (.sstore _) _ _ ⟨w, 0, 0⟩ _ _ _ _ _ _ trivial rfl h

end

end Replays

/-- The program only looks at code and storage. -/
inductive Looks : Prog S M R L α → Prop where
  | ret {a} : Looks (.ret a)
  | revert {data} : Looks (.revert data)
  | codeLength {a k} : (∀ n, Looks (k n)) → Looks (.op (.codeLength a) k)
  | sload {k} : (∀ s, Looks (k s)) → Looks (.op .sload k)

namespace Looks

theorem bind {p : Prog S M R L α} {f : α → Prog S M R L β} (h : Looks p) (hf : ∀ a, Looks (f a))
    : Looks (p >>= f) := by
  induction h with
  | ret => exact hf _
  | revert => exact .revert
  | codeLength _ ih => exact .codeLength ih
  | sload _ ih => exact .sload ih

/-- Then it is told nothing and changes nothing. -/
theorem replays {l : Lens T S} {p : Prog S M R L α} (h : Looks p) {as : List (Answer T M R L)} {a : α}
    (hp : Replays sys frame (p.zoom l.get l.set) w as a w' t)
    : as = [] ∧ w' = w ∧ t = [] := by
  induction h generalizing t with
  | ret =>
    cases hp
    exact ⟨rfl, rfl, rfl⟩
  | revert => cases hp
  | codeLength _ ih =>
    cases hp with
    | op _ hperform hp =>
      cases hperform
      obtain ⟨rfl, rfl, rfl⟩ := ih _ hp
      exact ⟨rfl, rfl, rfl⟩
  | sload _ ih =>
    cases hp with
    | op _ hperform hp =>
      cases hperform
      obtain ⟨rfl, rfl, rfl⟩ := ih _ hp
      exact ⟨rfl, rfl, rfl⟩

end Looks

/-! ## Programs that do the same -/

/-- `q` does what `p` does, apart from quiet logs. If `lax` it may also go on where `p` reverts. -/
inductive Matches (quiet : L → Bool) (lax : Prop) : Prog T M R L α → Prog T M R L α → Prop where
  | ret {a} : Matches quiet lax (.ret a) (.ret a)
  | revert {data data'} : Matches quiet lax (.revert data) (.revert data')
  | stops {data q} : lax → Matches quiet lax (.revert data) q
  | op {o k k'} : (∀ r, Matches quiet lax (k r) (k' r)) → Matches quiet lax (.op o k) (.op o k')
  | left {l k q} : quiet l = true → Matches quiet lax (k ()) q → Matches quiet lax (.op (.emit l) k) q
  | right {l p k} : quiet l = true → Matches quiet lax p (k ()) → Matches quiet lax p (.op (.emit l) k)

/-- All events but the quiet logs. -/
def loud (quiet : L → Bool) (t : List (Event T M R L)) : List (Event T M R L) :=
  t.filter fun
    | .log l => !quiet l
    | _ => true

namespace Matches

variable {quiet : L → Bool} {lax : Prop} {p q : Prog T M R L α}

theorem refl (p : Prog T M R L α) : Matches quiet lax p p := by
  induction p with
  | ret a => exact .ret
  | revert data => exact .revert
  | op o k ih => exact .op ih

theorem symm (h : Matches quiet False p q) : Matches quiet False q p := by
  induction h with
  | ret => exact .ret
  | revert => exact .revert
  | stops h => exact h.elim
  | op _ ih => exact .op ih
  | left hl _ ih => exact .right hl ih
  | right hl _ ih => exact .left hl ih

theorem bind {f g : α → Prog T M R L β} (h : Matches quiet lax p q)
    (hf : ∀ a, Matches quiet lax (f a) (g a))
    : Matches quiet lax (p >>= f) (q >>= g) := by
  induction h with
  | ret => exact hf _
  | revert => exact .revert
  | stops h => exact .stops h
  | op _ ih => exact .op ih
  | left hl _ ih => exact .left hl ih
  | right hl _ ih => exact .right hl ih

/-- A quiet log on the left. -/
theorem emit_left {log : L} {f : Unit → Prog T M R L α} (hl : quiet log = true)
    (h : Matches quiet lax (f ()) q)
    : Matches quiet lax (Prog.emit log >>= f) q :=
  .left hl h

theorem zoom (l : Lens T S) {p q : Prog S M R L α} (h : Matches quiet lax p q)
    : Matches quiet lax (p.zoom l.get l.set) (q.zoom l.get l.set) := by
  induction h with
  | ret => exact .ret
  | revert => exact .revert
  | stops h => exact .stops h
  | op _ ih => exact .op fun r => ih _
  | left hl _ ih => exact .left hl ih
  | right hl _ ih => exact .right hl ih

theorem require {c c' : Bool} {data data' : R} (h : c = true → c' = true)
    (h' : lax ∨ (c' = true → c = true))
    : Matches quiet lax (Prog.require c data : Prog T M R L Unit) (Prog.require c' data') := by
  unfold Prog.require
  cases c with
  | true =>
    rw [h rfl]
    exact .ret
  | false =>
    rcases h' with hlax | h'
    . exact .stops hlax
    . cases c' with
      | true => cases h' rfl
      | false => exact .revert

/-- With the same answers, `q` returns where `p` returns, and does the same. -/
theorem replays [Inhabited R] (h : Matches quiet lax p q) {as : List (Answer T M R L)} {a : α}
    (hp : Replays sys frame p w as a w' t)
    : ∃ t', Replays sys frame q w as a w' t' ∧ loud quiet t' = loud quiet t := by
  induction h generalizing w as t with
  | ret => exact ⟨t, hp, rfl⟩
  | revert => cases hp
  | stops _ => cases hp
  | op _ ih =>
    cases hp with
    | gasleft hp =>
      obtain ⟨t', hq, ht⟩ := ih _ hp
      exact ⟨t', .gasleft hq, ht⟩
    | call hp =>
      obtain ⟨t', hq, ht⟩ := ih _ hp
      exact ⟨_, .call hq, congrArg (_ :: ·) ht⟩
    | delegatecall hp =>
      obtain ⟨t', hq, ht⟩ := ih _ hp
      exact ⟨_, .delegatecall hq, congrArg (_ :: ·) ht⟩
    | op ho hperform hp =>
      obtain ⟨t', hq, ht⟩ := ih _ hp
      refine ⟨_, .op ho hperform hq, ?_⟩
      unfold loud at ht ⊢
      rw [List.filter_append, List.filter_append, ht]
  | left hl _ ih =>
    cases hp with
    | op ho hperform hp =>
      cases hperform
      obtain ⟨t', hq, ht⟩ := ih hp
      refine ⟨t', hq, ht.trans ?_⟩
      unfold loud
      rw [List.singleton_append, List.filter_cons_of_neg]
      simp [hl]
  | right hl _ ih =>
    obtain ⟨t', hq, ht⟩ := ih hp
    let refuses (_ : Frame M) (s : State T) : Reply T M R L := ⟨false, default, s, []⟩
    refine ⟨_, @Replays.op _ _ _ _ _ _ _ refuses _ _ _ ⟨w, 0, 0⟩ _ _ _ _ _ _ trivial rfl hq, ?_⟩
    rw [← ht]
    unfold loud
    rw [List.singleton_append, List.filter_cons_of_neg]
    simp [hl]

end Matches

/-! ## Programs that do the same in another world -/

/-- The operation tells nothing about the storage and leaves it alone, as far as its own frame goes. -/
def Op.Blind : Op S M R L → Prop
  | .gasleft | .codeLength _ | .emit _ | .call _ => True
  | _ => False

/-- `q` does in a storage that `φ` has changed what `p` does in the storage as it was. -/
inductive Carries (φ : S → S) : Prog S M R L α → Prog S M R L α → Prop where
  | ret {a} : Carries φ (.ret a) (.ret a)
  | revert {data data'} : Carries φ (.revert data) (.revert data')
  | sload {k k'} : (∀ s, Carries φ (k s) (k' (φ s))) → Carries φ (.op .sload k) (.op .sload k')
  | sstore {f f' k k'} :
      (∀ s, f' (φ s) = φ (f s)) → Carries φ (k ()) (k' ()) → Carries φ (.op (.sstore f) k) (.op (.sstore f') k')
  | op {o k k'} : o.Blind → (∀ r, Carries φ (k r) (k' r)) → Carries φ (.op o k) (.op o k')

def World.map (φ : T → T) (w : World T) : World T := { w with storage := φ w.storage }

/-- The same answer, except that a call is said to have left `φ` in place. -/
def Answer.map (φ : T → T) : Answer T M R L → Answer T M R L
  | .gas n => .gas n
  | .call ok data after body => .call ok data (after.map φ) body

namespace Carries

variable {φ : S → S} {p q : Prog S M R L α}

theorem bind {f g : α → Prog S M R L β} (h : Carries φ p q) (hf : ∀ a, Carries φ (f a) (g a))
    : Carries φ (p >>= f) (q >>= g) := by
  induction h with
  | ret => exact hf _
  | revert => exact .revert
  | sload _ ih => exact .sload ih
  | sstore hφ _ ih => exact .sstore hφ ih
  | op ho _ ih => exact .op ho ih

theorem require {c : Bool} {data : R} : Carries φ (Prog.require c data : Prog S M R L Unit) (.require c data) := by
  unfold Prog.require
  cases c with
  | true => exact .ret
  | false => exact .revert

theorem zoom (l : Lens T S) {ψ : T → T} (hget : ∀ x, l.get (ψ x) = φ (l.get x))
    (hset : ∀ s x, l.set (φ s) (ψ x) = ψ (l.set s x)) (h : Carries φ p q)
    : Carries ψ (p.zoom l.get l.set) (q.zoom l.get l.set) := by
  induction h with
  | ret => exact .ret
  | revert => exact .revert
  | @sload k k' _ ih =>
    refine .sload fun (x : T) => ?_
    have hsame := ih (l.get x)
    rw [← hget] at hsame
    exact hsame
  | sstore hφ _ ih =>
    refine .sstore (fun x => ?_) ih
    rw [hget, hφ]
    exact hset _ x
  | @op o k k' ho _ ih =>
    cases o with
    | gasleft => exact .op trivial ih
    | codeLength a => exact .op trivial ih
    | emit log => exact .op trivial ih
    | call c => exact .op trivial ih
    | _ => cases ho

/-- Who runs the program does not matter. -/
theorem replays [Inhabited R] {ψ : T → T} {frame' : Frame M} {p q : Prog T M R L α} (h : Carries ψ p q)
    (hcode : ∀ x a, sys.codeLength (ψ x) a = sys.codeLength x a) {as : List (Answer T M R L)} {a : α}
    (hp : Replays sys frame p w as a w' t)
    : ∃ t', Replays sys frame' q (w.map ψ) (as.map (Answer.map ψ)) a (w'.map ψ) t' := by
  let refuses (_ : Frame M) (s : State T) : Reply T M R L := ⟨false, default, s, []⟩
  induction h generalizing w as t with
  | ret =>
    cases hp
    exact ⟨[], .ret⟩
  | revert => cases hp
  | sload _ ih =>
    cases hp with
    | op _ hperform hp =>
      cases hperform
      obtain ⟨t', hq⟩ := ih _ hp
      exact ⟨_, @Replays.op _ _ _ _ _ _ _ refuses _ _ _ ⟨World.map ψ _, 0, 0⟩ _ _ _ _ _ _ trivial rfl hq⟩
  | @sstore f f' k k' hψ _ ih =>
    have hworld (w : World T) : World.map ψ { w with storage := f w.storage }
        = { w.map ψ with storage := f' (ψ w.storage) } := by
      rw [hψ]
      rfl
    cases hp with
    | op _ hperform hp =>
      cases hperform
      obtain ⟨t', hq⟩ := ih hp
      rw [hworld] at hq
      exact ⟨_, @Replays.op _ _ _ _ _ _ _ refuses _ _ _ ⟨World.map ψ _, 0, 0⟩ _ _ _ _ _ _ trivial rfl hq⟩
  | @op o k k' ho _ ih =>
    cases hp with
    | gasleft hp =>
      obtain ⟨t', hq⟩ := ih _ hp
      exact ⟨t', .gasleft hq⟩
    | call hp =>
      obtain ⟨t', hq⟩ := ih _ hp
      exact ⟨_, .call hq⟩
    | delegatecall hp => cases ho
    | op hunasked hperform hp =>
      cases o with
      | codeLength x =>
        cases hperform
        obtain ⟨t', hq⟩ := ih _ hp
        rw [← hcode] at hq
        exact ⟨_, @Replays.op _ _ _ _ _ _ _ refuses _ _ _ ⟨World.map ψ _, 0, 0⟩ _ _ _ _ _ _ trivial rfl hq⟩
      | emit log =>
        cases hperform
        obtain ⟨t', hq⟩ := ih _ hp
        exact ⟨_, @Replays.op _ _ _ _ _ _ _ refuses _ _ _ ⟨World.map ψ _, 0, 0⟩ _ _ _ _ _ _ trivial rfl hq⟩
      | gasleft => cases hunasked
      | call c => cases hunasked
      | _ => cases ho

end Carries

/-! ## Programs that do the same in a state -/

section Follows

variable [Inhabited R] (sys : System T M R L) (inv : Frame M → State T → Reply T M R L)
  (frame : Frame M) (l : Lens T S)

/-- If `p` returns from the state then `q` does the same there, and is told the same. -/
def Follows (p q : Prog S M R L α) (s : State T) : Prop :=
  ∀ a s' t, Returns sys inv frame l p s a s' t →
    Returns sys inv frame l q s a s' t
      ∧ answers sys frame inv (q.zoom l.get l.set) s = answers sys frame inv (p.zoom l.get l.set) s

variable {sys inv frame l}

omit [Inhabited R] in
theorem answers_op_some {o : Op T M R L} {k : o.Reply → Prog T M R L α} {s s1 s2 : State T}
    {reply : o.Reply} {t : List (Event T M R L)} (hs : s.charge frame.env = some s1)
    (hp : perform sys inv frame o s1 = (reply, s2, t))
    : answers sys frame inv (.op o k) s = o.answers reply t ++ answers sys frame inv (k reply) s2 := by
  conv_lhs => unfold answers
  simp only [hs, hp]

theorem answers_bind {p : Prog T M R L α} {f : α → Prog T M R L β} {s s1 : State T} {a : α}
    {t : List (Event T M R L)} (h : run sys inv frame p s = ⟨.ok a, s1, t⟩)
    : answers sys frame inv (p >>= f) s
        = answers sys frame inv p s ++ answers sys frame inv (f a) s1 := by
  induction p generalizing s t with
  | ret b =>
    cases h
    rfl
  | revert data => cases h
  | op o k ih =>
    change answers sys frame inv (.op o fun r => k r >>= f) s = _
    cases hs : s.charge frame.env with
    | none =>
      rw [run_op_none sys inv frame hs] at h
      cases h
    | some s2 =>
      rcases hp : perform sys inv frame o s2 with ⟨reply, s3, t3⟩
      rw [run_op_some sys inv frame hs hp] at h
      rcases hr : run sys inv frame (k reply) s3 with ⟨outcome, s4, t4⟩
      rw [hr] at h
      cases h
      rw [answers_op_some hs hp, answers_op_some hs hp]
      rw [ih reply hr]
      rw [List.append_assoc]

namespace Follows

variable {s : State T}

theorem refl (p : Prog S M R L α) : Follows sys inv frame l p p s :=
  fun _ _ _ h => ⟨h, rfl⟩

/-- Programs that begin alike. -/
theorem bind {p : Prog S M R L α} {f g : α → Prog S M R L β}
    (h : ∀ a s1 t, Returns sys inv frame l p s a s1 t → Follows sys inv frame l (f a) (g a) s1)
    : Follows sys inv frame l (p >>= f) (p >>= g) s := by
  intro b s' t hr
  obtain ⟨a, s1, t1, t2, h1, h2, rfl⟩ := hr.bind
  obtain ⟨h3, hanswers⟩ := h a s1 t1 h1 b s' t2 h2
  refine ⟨h1.seq h3, ?_⟩
  rw [Prog.zoom_bind, Prog.zoom_bind]
  rw [answers_bind h1, answers_bind h1]
  rw [hanswers]

/-- Programs that begin alike, with what is known of the beginning. -/
theorem bind_sat {I P : World T → Prop} {Q : α → World T → Prop} {p : Prog S M R L α}
    {f g : α → Prog S M R L β} (hp : Sat sys inv frame l I P p Q) (hs : P s.world)
    (h : ∀ a s1, Q a s1.world → Follows sys inv frame l (f a) (g a) s1)
    : Follows sys inv frame l (p >>= f) (p >>= g) s :=
  bind fun a s1 _ hr => h a s1 (hp.returns hs hr)

/-- Programs that end alike. -/
theorem append {p q : Prog S M R L α} {f : α → Prog S M R L β}
    (h : Follows sys inv frame l p q s)
    : Follows sys inv frame l (p >>= f) (q >>= f) s := by
  intro b s' t hr
  obtain ⟨a, s1, t1, t2, h1, h2, rfl⟩ := hr.bind
  obtain ⟨h3, hanswers⟩ := h a s1 t1 h1
  refine ⟨h3.seq h2, ?_⟩
  rw [Prog.zoom_bind, Prog.zoom_bind]
  rw [answers_bind h3, answers_bind h1]
  rw [hanswers]

end Follows

end Follows

/-! ## Programs with the same run -/

section Same

variable [Inhabited R] (sys : System T M R L) (inv : Frame M → State T → Reply T M R L)
  (frame : Frame M) (l : Lens T S)

/-- The programs have the same run from the state, however it ends. -/
def Same (p q : Prog S M R L α) (s : State T) : Prop :=
  run sys inv frame (p.zoom l.get l.set) s = run sys inv frame (q.zoom l.get l.set) s

variable {sys inv frame l}

namespace Same

variable {s : State T} {p q : Prog S M R L α}

theorem refl (p : Prog S M R L α) : Same sys inv frame l p p s := rfl

theorem bind {f g : α → Prog S M R L β} (h : Same sys inv frame l p q s)
    (hnext : ∀ a s1 t, Returns sys inv frame l p s a s1 t → Same sys inv frame l (f a) (g a) s1)
    : Same sys inv frame l (p >>= f) (q >>= g) s := by
  unfold Same at h hnext ⊢
  rw [Prog.zoom_bind, Prog.zoom_bind, run_bind, run_bind, ← h]
  rcases hr : run sys inv frame (p.zoom l.get l.set) s with ⟨outcome, s1, t⟩
  cases outcome with
  | error data => rfl
  | ok a =>
    dsimp only
    rw [hnext a s1 t hr]

/-- Programs that begin alike. -/
theorem next {f g : α → Prog S M R L β}
    (hnext : ∀ a s1 t, Returns sys inv frame l p s a s1 t → Same sys inv frame l (f a) (g a) s1)
    : Same sys inv frame l (p >>= f) (p >>= g) s :=
  bind (refl p) hnext

theorem next_require {c : Bool} {data : R} {f g : Unit → Prog S M R L β}
    (hnext : c = true → Same sys inv frame l (f ()) (g ()) s)
    : Same sys inv frame l (Prog.require c data >>= f) (Prog.require c data >>= g) s := by
  cases c with
  | true => exact hnext rfl
  | false => exact refl _

end Same

end Same

end Evm
