import FalconSmartAccount.EntryPoint.Solvency
import FalconSmartAccount.EntryPoint.Turns
import FalconSmartAccount.Evm.Replay

/-!
Groups without an aggregator: `handleAggregatedOps` does to them what `handleOps` does to the list of
all their operations.
-/

open Evm

namespace EntryPoint

/-- The logs that only `handleAggregatedOps` writes. -/
def isAggregatorChange : Log → Bool
  | .signatureAggregatorChanged _ => true
  | _ => false

theorem length_allOps (opas : List UserOpsPerAggregator) : (allOps opas).length = totalOps opas :=
  List.length_flatMap

/-- No group has an aggregator. -/
def Unaggregated (opsPerAggregator : List UserOpsPerAggregator) : Prop :=
  ∀ opa ∈ opsPerAggregator, opa.aggregator = 0

theorem Unaggregated.head {opa : UserOpsPerAggregator} {opas : List UserOpsPerAggregator}
    (h : Unaggregated (opa :: opas))
    : opa.aggregator = 0 :=
  h opa List.mem_cons_self

theorem Unaggregated.tail {opa : UserOpsPerAggregator} {opas : List UserOpsPerAggregator}
    (h : Unaggregated (opa :: opas))
    : Unaggregated opas :=
  fun opa' hmem => h opa' (List.mem_cons_of_mem _ hmem)

section

variable (cfg : Config) (msg : Frame Message)

/-- `handleOps`, with a way to add up what the operations pay. -/
def handleOpsAdding (add : Nat → Nat → Checked Nat) (ops : List PackedUserOperation)
    (beneficiary : Address) : Code ReturnData :=
  nonReentrant cfg do
    let opInfos ← validateOps cfg msg 0 0 0 ops (List.replicate ops.length default)
    Prog.emit .beforeExecution
    let collected ← executeOps msg add 0 ops opInfos 0
    compensate beneficiary collected
    return default

theorem handleOps_eq (ops : List PackedUserOperation) (beneficiary : Address)
    : handleOps cfg msg ops beneficiary
        = handleOpsAdding cfg msg (fun a b => .ok (Yul.add a b)) ops beneficiary :=
  rfl

/-! ## Loops over a list in two parts -/

theorem validateOps_append (aggregator : Address) (i opIndex : Nat) (ops ops' : List PackedUserOperation)
    (opInfos : List UserOpInfo)
    : validateOps cfg msg aggregator i opIndex (ops ++ ops') opInfos
        = validateOps cfg msg aggregator i opIndex ops opInfos
            >>= validateOps cfg msg aggregator (i + ops.length) (opIndex + ops.length) ops' := by
  induction ops generalizing i opIndex opInfos with
  | nil => rfl
  | cons op ops ih =>
    rw [List.cons_append]
    unfold validateOps
    simp only [Prog.bind_assoc, ih]
    rw [List.length_cons]
    rw [Nat.add_right_comm i, Nat.add_right_comm opIndex]
    rfl

theorem executeOps_append (add : Nat → Nat → Checked Nat) (opIndex : Nat)
    (ops ops' : List PackedUserOperation) (opInfos : List UserOpInfo) (collected : Nat)
    : executeOps msg add opIndex (ops ++ ops') opInfos collected
        = executeOps msg add opIndex ops opInfos collected
            >>= executeOps msg add (opIndex + ops.length) ops' opInfos := by
  induction ops generalizing opIndex collected with
  | nil => rfl
  | cons op ops ih =>
    rw [List.cons_append]
    unfold executeOps
    simp only [Prog.bind_assoc, ih]
    rw [List.length_cons]
    rw [Nat.add_right_comm opIndex]
    rfl

/-! ## Groups and their operations -/

variable {cfg msg} {quiet : Log → Bool} {lax : Prop}

theorem validateAggregators_unaggregated {opas : List UserOpsPerAggregator} (h : Unaggregated opas)
    : validateAggregators opas = pure () := by
  induction opas with
  | nil => rfl
  | cons opa opas ih =>
    unfold validateAggregators
    unfold validateAggregators.validateSignatures
    rw [if_pos h.head]
    rw [h.head]
    exact ih h.tail

/-- The index that an operation is reported under does not matter unless there is something to
report. -/
theorem validateOps_matches {aggregator : Address} {i j opIndex : Nat} {ops : List PackedUserOperation}
    {opInfos : List UserOpInfo}
    : Matches quiet lax (validateOps cfg msg aggregator i opIndex ops opInfos)
        (validateOps cfg msg aggregator j opIndex ops opInfos) := by
  induction ops generalizing i j opIndex opInfos with
  | nil => exact .ret
  | cons op ops ih =>
    unfold validateOps
    apply Matches.bind (.refl _)
    intro opInfo
    apply Matches.bind (.refl _)
    rintro ⟨opInfo, validationData, pmValidationData⟩
    apply Matches.bind
    . have hrequire {c : Bool} {data data' : ReturnData}
          : Matches quiet lax (Prog.require c data : Code Unit) (Prog.require c data') :=
        .require id (.inr id)
      exact hrequire.bind fun _ => hrequire.bind fun _ => hrequire.bind fun _ => hrequire
    . exact fun _ => ih

theorem validateGroups_matches {opIndex : Nat} {opas : List UserOpsPerAggregator}
    {opInfos : List UserOpInfo} (h : Unaggregated opas)
    : Matches quiet lax (validateGroups cfg msg opIndex opas opInfos)
        (validateOps cfg msg 0 opIndex opIndex (allOps opas) opInfos) := by
  induction opas generalizing opIndex opInfos with
  | nil => exact .ret
  | cons opa opas ih =>
    unfold validateGroups allOps
    rw [List.flatMap_cons]
    rw [validateOps_append]
    rw [h.head]
    apply Matches.bind validateOps_matches
    exact fun opInfos => ih h.tail

theorem executeGroups_matches {opIndex : Nat} {opas : List UserOpsPerAggregator}
    {opInfos : List UserOpInfo} {collected : Nat}
    : Matches isAggregatorChange lax (executeGroups msg opIndex opas opInfos collected)
        (executeOps msg Solidity.add opIndex (allOps opas) opInfos collected) := by
  induction opas generalizing opIndex collected with
  | nil => exact .ret
  | cons opa opas ih =>
    unfold executeGroups allOps
    rw [List.flatMap_cons]
    rw [executeOps_append]
    -- the change of the aggregator is logged before the operations of the group
    apply Matches.emit_left rfl
    apply Matches.bind (.refl _)
    exact fun collected => ih

theorem handleAggregatedOps_matches {opas : List UserOpsPerAggregator} {beneficiary : Address}
    (h : Unaggregated opas)
    : Matches isAggregatorChange lax (handleAggregatedOps cfg msg opas beneficiary)
        (handleOpsAdding cfg msg Solidity.add (allOps opas) beneficiary) := by
  unfold handleAggregatedOps handleOpsAdding nonReentrant
  rw [validateAggregators_unaggregated h]
  rw [length_allOps]
  apply Matches.bind (.refl _)
  intro s
  apply Matches.bind (.refl _)
  intro entered
  apply Matches.bind (.refl _)
  intro _
  apply Matches.bind
  . apply Matches.bind (validateGroups_matches h)
    intro opInfos
    apply Matches.bind (.refl _)
    intro _
    apply Matches.bind executeGroups_matches
    intro collected
    exact .emit_left rfl (.refl _)
  . exact fun a => .refl _

/-- Checked additions that do not revert are additions. -/
theorem executeOps_add_matches {opIndex : Nat} {ops : List PackedUserOperation}
    {opInfos : List UserOpInfo} {collected : Nat}
    : Matches quiet True (executeOps msg Solidity.add opIndex ops opInfos collected)
        (executeOps msg (fun a b => .ok (Yul.add a b)) opIndex ops opInfos collected) := by
  induction ops generalizing opIndex collected with
  | nil => exact .ret
  | cons op ops ih =>
    unfold executeOps
    apply Matches.bind (.refl _)
    intro opInfo
    apply Matches.bind (.refl _)
    intro paid
    cases hadd : Solidity.add collected paid with
    | error e => exact .stops trivial
    | ok total =>
      have hlt := Solidity.lt_of_add hadd
      have htotal : Yul.add collected paid = total := by
        rw [Solidity.eq_of_add hadd]
        exact Nat.mod_eq_of_lt hlt
      rw [htotal]
      exact ih

theorem handleOps_matches {ops : List PackedUserOperation} {beneficiary : Address}
    : Matches quiet True (handleOpsAdding cfg msg Solidity.add ops beneficiary)
        (handleOps cfg msg ops beneficiary) := by
  rw [handleOps_eq]
  unfold handleOpsAdding nonReentrant
  apply Matches.bind (.refl _)
  intro s
  apply Matches.bind (.refl _)
  intro entered
  apply Matches.bind (.refl _)
  intro _
  apply Matches.bind
  . apply Matches.bind (.refl _)
    intro opInfos
    apply Matches.bind (.refl _)
    intro _
    apply Matches.bind executeOps_add_matches
    exact fun collected => .refl _
  . exact fun a => .refl _

end

end EntryPoint

namespace Deployment

open EntryPoint

variable {X : Type} {d : Deployment X}
  {inv : Frame Message → State (Chain X) → Reply (Chain X) Message ReturnData Log}
  {msg : Frame Message} {used : List (Address × Word)} {locked collected : Nat}
  {s s' : State (Chain X)} {ret : ReturnData} {t : Chain.Trace X}

section

variable (hinv : d.Handles inv) (hmsg : msg.self = d.entryPoint)

include hinv hmsg

/-- What the operations of a bundle pay adds up to no more than a word, since the entry point holds it. -/
theorem executeOps_follows {start opIndex : Nat} {ops : List PackedUserOperation}
    {opInfos new rest : List UserOpInfo} (hnew : opInfos.drop opIndex = new ++ rest)
    (hlength : new.length = ops.length) (hsender : ∀ opInfo ∈ new, opInfo.mUserOp.sender ≠ d.entryPoint)
    (hs : d.Holds used 0 (locked + (new.map UserOpInfo.prefund).sum) (start + collected) s.world)
    : Follows d.system inv msg Chain.entryPointPart
        (executeOps msg (fun a b => .ok (Yul.add a b)) opIndex ops opInfos collected)
        (executeOps msg Solidity.add opIndex ops opInfos collected) s := by
  induction ops generalizing opIndex new collected s with
  | nil => exact .refl _
  | cons op ops ih =>
    cases new with
    | nil => cases hlength
    | cons opInfo new =>
      unfold executeOps
      apply Follows.bind_sat (Keeps.lift (P := (· = s.world))) rfl
      rintro opInfo' s1 ⟨hs1, hget⟩
      rw [← hs1] at hs
      have hget' := getOpInfo_eq hget
      rw [← Nat.add_zero opIndex, ← List.getElem?_drop, hnew] at hget'
      cases hget'
      have hnew' : opInfos.drop (opIndex + 1) = new ++ rest := by
        rw [← List.drop_drop, hnew]
        rfl
      rw [List.map_cons, List.sum_cons, Nat.add_comm opInfo.prefund, ← Nat.add_assoc] at hs
      apply Follows.bind_sat (executeUserOp_keeps hinv hmsg (hsender opInfo List.mem_cons_self)) hs
      intro paid s2 hs2
      rw [Nat.add_assoc] at hs2
      have hlt : collected + paid < Yul.wordSize := by
        have := hs2.collected_lt
        unfold Yul.wordSize
        omega
      rw [Solidity.add_ok hlt]
      rw [Yul.add_eq hlt]
      exact ih hnew' (Nat.succ.inj hlength) (fun o ho => hsender o (List.mem_cons_of_mem _ ho)) hs2

omit hinv hmsg in
theorem nonReentrant_follows {body body' : EntryPoint.Code ReturnData}
    (h : ∀ s1, d.Holds used 0 locked collected s1.world →
      Follows d.system inv msg Chain.entryPointPart body body' s1)
    (hs : d.Holds used 0 locked collected s.world)
    : Follows d.system inv msg Chain.entryPointPart (nonReentrant d.cfg body)
        (nonReentrant d.cfg body') s := by
  unfold nonReentrant
  apply Follows.bind_sat (Sat.sload (I := d.Safe)) hs
  rintro storage s1 ⟨hs1, _⟩
  cases d.cfg.nonReentrantBefore storage.entered with
  | none => exact fun _ _ _ hr => absurd hr Evm.Returns.not_revert
  | some entered =>
    have hentered (w : World (Chain X)) (hw : d.Holds used 0 locked collected w)
        : d.Holds used 0 locked collected
            (w.write Chain.entryPointPart fun s => { s with entered := entered }) :=
      hw.congr rfl rfl rfl (Nat.le_refl _)
    apply Follows.bind_sat (Sat.sstore (I := d.Safe) fun w hw => ⟨(hentered w hw).safe, hentered w hw⟩) hs1
    intro _ s2 hs2
    exact (h s2 hs2).append

theorem handleOps_follows {ops : List PackedUserOperation} {beneficiary : Address}
    (hs : d.Holds used 0 locked collected s.world)
    : Follows d.system inv msg Chain.entryPointPart (handleOps d.cfg msg ops beneficiary)
        (handleOpsAdding d.cfg msg Solidity.add ops beneficiary) s := by
  rw [handleOps_eq]
  apply nonReentrant_follows _ hs
  intro s1 hs1
  apply Follows.bind_sat (validateOps_keeps hinv hmsg) hs1
  rintro opInfos s2 ⟨new, hfill, hlength, hsender, hs2⟩
  apply Follows.bind_sat (Sat.emit (I := d.Safe)) hs2
  intro _ s3 hs3
  have hnew : opInfos.drop 0 = new ++ [] := by
    rw [hfill]
    simp
  rw [← Nat.add_zero collected] at hs3
  exact (executeOps_follows hinv hmsg hnew hlength hsender hs3).append

end

/-- A run of the entry point that is told what becomes of its calls. -/
abbrev Replays (d : Deployment X) (msg : Frame Message) {α : Type} (p : EntryPoint.Code α)
    (w : World (Chain X)) (told : List (Answer (Chain X) Message ReturnData Log)) (a : α)
    (w' : World (Chain X)) (t : Chain.Trace X) : Prop :=
  Evm.Replays d.system msg (p.zoom Chain.entryPointPart.get Chain.entryPointPart.set) w told a w' t

/-- What a run of the entry point is told. -/
abbrev told (d : Deployment X)
    (inv : Frame Message → State (Chain X) → Reply (Chain X) Message ReturnData Log)
    (msg : Frame Message) {α : Type} (p : EntryPoint.Code α) (s : State (Chain X))
    : List (Answer (Chain X) Message ReturnData Log) :=
  answers d.system msg inv (p.zoom Chain.entryPointPart.get Chain.entryPointPart.set) s

/-- Whatever the other contracts do: if the entry point handles groups without aggregators, then it
handles the list of their operations when it is told the same about gas and calls, and the other way
round. It returns the same, leaves the same world, and does the same on the way but for the logs that
announce an aggregator. -/
theorem handleAggregatedOps_agrees {n : Nat} (hmsg : msg.self = d.entryPoint) (hs : d.Passed s.world)
    {opas : List UserOpsPerAggregator} (hopas : ∀ opa ∈ opas, opa.aggregator = 0) (beneficiary : Address)
    : let aggregated := handleAggregatedOps d.cfg msg opas beneficiary
      let flat := handleOps d.cfg msg (allOps opas) beneficiary
      (∀ ret s' t, d.Returns (invoke d.system n) msg aggregated s ret s' t →
          ∃ t', d.Replays msg flat s.world (d.told (invoke d.system n) msg aggregated s) ret s'.world t'
            ∧ loud isAggregatorChange t' = loud isAggregatorChange t)
        ∧ ∀ ret s' t, d.Returns (invoke d.system n) msg flat s ret s' t →
          ∃ t', d.Replays msg aggregated s.world (d.told (invoke d.system n) msg flat s) ret s'.world t'
            ∧ loud isAggregatorChange t' = loud isAggregatorChange t := by
  constructor
  . intro ret s' t hr
    have hmatches : Matches isAggregatorChange True (handleAggregatedOps d.cfg msg opas beneficiary) _ :=
      handleAggregatedOps_matches hopas
    obtain ⟨t1, h1, ht1⟩ := (hmatches.zoom Chain.entryPointPart).replays (replays_answers hr)
    obtain ⟨t2, h2, ht2⟩ := (handleOps_matches.zoom Chain.entryPointPart).replays h1
    exact ⟨t2, h2, ht2.trans ht1⟩
  . intro ret s' t hr
    obtain ⟨hr', hanswers⟩ := handleOps_follows (handles n) hmsg hs.safe.holds ret s' t hr
    have h := replays_answers hr'
    rw [hanswers] at h
    have hmatches : Matches isAggregatorChange False (handleAggregatedOps d.cfg msg opas beneficiary) _ :=
      handleAggregatedOps_matches hopas
    exact (hmatches.zoom Chain.entryPointPart).symm.replays h

/-- Two groups, of which one is empty, with signatures that nobody looks at. -/
def unaggregatedGroups : List UserOpsPerAggregator := [⟨[sampleOp 3], 0, [1]⟩, ⟨[], 0, [2, 3]⟩]

def unaggregatedFrame : Frame Message :=
  (bundleTx (.handleAggregatedOps unaggregatedGroups 5)).frame

theorem handleAggregatedOps_agrees_unaggregatedGroups
    : ∃ told ret w t, sample.Replays unaggregatedFrame
        (handleOps sample.cfg unaggregatedFrame (allOps unaggregatedGroups) 5) sampleStart.world told ret w t := by
  have hopas : ∀ opa ∈ unaggregatedGroups, opa.aggregator = 0 := by
    decide
  have hreturns : (run sample.system (invoke sample.system 4) unaggregatedFrame
      ((handleAggregatedOps sample.cfg unaggregatedFrame unaggregatedGroups 5).zoom
        Chain.entryPointPart.get Chain.entryPointPart.set) sampleStart).outcome.isOk = true := by
    decide +kernel
  obtain ⟨ret, s', t, hr⟩ := exists_returns hreturns
  have hpassed : sample.Passed sampleStart.world := .start fundedWorld_reachable
  have hself : unaggregatedFrame.self = sample.entryPoint := rfl
  obtain ⟨hflat, _⟩ := handleAggregatedOps_agrees (n := 4) hself hpassed hopas 5
  obtain ⟨t', h, _⟩ := hflat ret s' t hr
  exact ⟨_, ret, s'.world, t', h⟩

end Deployment
