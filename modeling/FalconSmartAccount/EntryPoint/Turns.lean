import FalconSmartAccount.EntryPoint.Deployment

/-!
A bundle as a sequence of turns, each of which validates or executes one operation.
-/

open Evm

namespace EntryPoint

/-! ## Turns -/

/-- What is done for a bundle, in the order in which it is done. Positions count the operations of all
groups, `start + i` being the position of the operation with the index `i` in its group. -/
inductive Turn where
  | prepayment (position : Nat) (op : PackedUserOperation)
  | validationData (start i : Nat) (aggregator : Address) (op : PackedUserOperation)
  | beforeExecution
  | changeAggregator (aggregator : Address)
  | execution (position : Nat) (op : PackedUserOperation)

/-- Whose turn it is. -/
def Turn.operation : Turn → Option (Nat × PackedUserOperation)
  | .prepayment position op | .execution position op => some (position, op)
  | .validationData start i _ op => some (start + i, op)
  | .beforeExecution | .changeAggregator _ => none

/-- The index that is reported if the turn fails. -/
def Turn.reported : Turn → Option Nat
  | .prepayment position _ | .execution position _ => some position
  | .validationData _ i _ _ => some i
  | .beforeExecution | .changeAggregator _ => none

/-- The validation data is that of the last prepayment. -/
structure Progress where
  opInfos : List UserOpInfo
  validationData : Nat
  paymasterValidationData : Nat
  collected : Nat

def groupValidation (start : Nat) (aggregator : Address) : Nat → List PackedUserOperation → List Turn
  | _, [] => []
  | i, op :: ops =>
    .prepayment (start + i) op :: .validationData start i aggregator op
      :: groupValidation start aggregator (i + 1) ops

def groupExecution : Nat → List PackedUserOperation → List Turn
  | _, [] => []
  | position, op :: ops => .execution position op :: groupExecution (position + 1) ops

def validationTurns : Nat → List UserOpsPerAggregator → List Turn
  | _, [] => []
  | start, opa :: opas =>
    groupValidation start opa.aggregator 0 opa.userOps
      ++ validationTurns (start + opa.userOps.length) opas

def executionTurns : Nat → List UserOpsPerAggregator → List Turn
  | _, [] => []
  | start, opa :: opas =>
    .changeAggregator opa.aggregator :: (groupExecution start opa.userOps
      ++ executionTurns (start + opa.userOps.length) opas)

/-- How a bundle is processed, and how what is collected is added up. -/
structure Schedule where
  groups : List UserOpsPerAggregator
  turns : List Turn
  add : Nat → Nat → Checked Nat

/-- The addition of `handleOps` is unchecked. -/
def Schedule.handleOps (ops : List PackedUserOperation) : Schedule where
  groups := [⟨ops, 0, []⟩]
  turns := groupValidation 0 0 0 ops ++ .beforeExecution :: groupExecution 0 ops
  add a b := .ok (Yul.add a b)

def Schedule.handleAggregatedOps (opas : List UserOpsPerAggregator) : Schedule where
  groups := opas
  turns := validationTurns 0 opas ++ .beforeExecution :: executionTurns 0 opas
  add := Solidity.add

def scheduleOf : Message → Option Schedule
  | .handleOps ops _ => some (.handleOps ops)
  | .handleAggregatedOps opas _ => some (.handleAggregatedOps opas)
  | _ => none

section

variable (cfg : Config) (msg : Frame Message) (add : Nat → Nat → Checked Nat)

def Turn.run (p : Progress) : Turn → Code Progress
  | .prepayment position op => do
    let opInfo ← lift (validateOps.getOpInfo p.opInfos position)
    let r ← validatePrepayment cfg position op opInfo
    return ⟨p.opInfos.set position r.1, r.2.1, r.2.2, p.collected⟩
  | .validationData _ i aggregator _ => do
    validateAccountAndPaymasterValidationData msg i p.validationData p.paymasterValidationData aggregator
    return p
  | .beforeExecution => do
    Prog.emit .beforeExecution
    return p
  | .changeAggregator aggregator => do
    Prog.emit (.signatureAggregatorChanged aggregator)
    return p
  | .execution position op => do
    let opInfo ← lift (validateOps.getOpInfo p.opInfos position)
    let paid ← executeUserOp msg position op opInfo
    let collected ← lift (add p.collected paid)
    return { p with collected := collected }

/-- What happens before the first turn. -/
def beforeTurns (opas : List UserOpsPerAggregator) : Code Progress := do
  let s ← Prog.sload
  let entered ← decoded (cfg.nonReentrantBefore s.entered)
  Prog.sstore fun s => { s with entered := entered }
  validateAggregators opas
  return ⟨List.replicate (totalOps opas) default, 0, 0, 0⟩

/-- What happens in the end. -/
def pay (beneficiary : Address) (p : Progress) : Code ReturnData := do
  compensate beneficiary p.collected
  Prog.sstore fun s => { s with entered := cfg.nonReentrantAfter s.entered }
  return default

/-- What happens after the last turn of `handleAggregatedOps`. -/
def afterTurns (beneficiary : Address) (p : Progress) : Code ReturnData := do
  Prog.emit (.signatureAggregatorChanged 0)
  pay cfg beneficiary p

variable {cfg msg add} {β : Type}

theorem validateOps_turns (aggregator : Address) (start i : Nat) (ops : List PackedUserOperation)
    (p : Progress) (g : List UserOpInfo → Nat → Code β)
    : ((groupValidation start aggregator i ops).foldlM (Turn.run cfg msg add) p
        >>= fun p => g p.opInfos p.collected)
      = (validateOps cfg msg aggregator i (start + i) ops p.opInfos
        >>= fun opInfos => g opInfos p.collected) := by
  induction ops generalizing i p with
  | nil => rfl
  | cons op ops ih =>
    unfold groupValidation validateOps
    simp only [List.foldlM_cons, Turn.run, bind_assoc, pure_bind]
    refine bind_congr fun opInfo => bind_congr fun r => bind_congr fun _ => ?_
    exact ih (i + 1) ⟨p.opInfos.set (start + i) r.1, r.2.1, r.2.2, p.collected⟩

theorem validateGroups_turns (start : Nat) (opas : List UserOpsPerAggregator) (p : Progress)
    (g : List UserOpInfo → Nat → Code β)
    : ((validationTurns start opas).foldlM (Turn.run cfg msg add) p
        >>= fun p => g p.opInfos p.collected)
      = (validateGroups cfg msg start opas p.opInfos
        >>= fun opInfos => g opInfos p.collected) := by
  induction opas generalizing start p with
  | nil => rfl
  | cons opa opas ih =>
    unfold validationTurns validateGroups
    simp only [List.foldlM_append, bind_assoc, ih]
    exact validateOps_turns opa.aggregator start 0 opa.userOps p fun opInfos collected =>
      validateGroups cfg msg (start + opa.userOps.length) opas opInfos >>= fun opInfos => g opInfos collected

theorem executeOps_turns (position : Nat) (ops : List PackedUserOperation) (p : Progress)
    (g : List UserOpInfo → Nat → Code β)
    : ((groupExecution position ops).foldlM (Turn.run cfg msg add) p
        >>= fun p => g p.opInfos p.collected)
      = (executeOps msg add position ops p.opInfos p.collected
        >>= fun collected => g p.opInfos collected) := by
  induction ops generalizing position p with
  | nil => rfl
  | cons op ops ih =>
    unfold groupExecution executeOps
    simp only [List.foldlM_cons, Turn.run, bind_assoc, pure_bind]
    refine bind_congr fun opInfo => bind_congr fun paid => bind_congr fun collected => ?_
    exact ih (position + 1) { p with collected := collected }

theorem executeGroups_turns (start : Nat) (opas : List UserOpsPerAggregator) (p : Progress)
    (g : List UserOpInfo → Nat → Code β)
    : ((executionTurns start opas).foldlM (Turn.run cfg msg Solidity.add) p
        >>= fun p => g p.opInfos p.collected)
      = (executeGroups msg start opas p.opInfos p.collected
        >>= fun collected => g p.opInfos collected) := by
  induction opas generalizing start p with
  | nil => rfl
  | cons opa opas ih =>
    unfold executionTurns executeGroups
    simp only [List.foldlM_cons, List.foldlM_append, Turn.run, bind_assoc, pure_bind, ih]
    refine bind_congr fun _ => ?_
    exact executeOps_turns start opa.userOps p fun opInfos collected =>
      executeGroups msg (start + opa.userOps.length) opas opInfos collected >>= fun collected => g opInfos collected

/-- The turns are what the code does. -/
theorem handleOps_turns (ops : List PackedUserOperation) (beneficiary : Address)
    : handleOps cfg msg ops beneficiary
        = beforeTurns cfg (Schedule.handleOps ops).groups >>= fun p =>
            (Schedule.handleOps ops).turns.foldlM (Turn.run cfg msg (Schedule.handleOps ops).add) p
              >>= pay cfg beneficiary := by
  have haggregators : validateAggregators [⟨ops, 0, []⟩] = pure () := rfl
  have htotal : totalOps [⟨ops, 0, []⟩] = ops.length := Nat.add_zero _
  unfold handleOps nonReentrant beforeTurns Schedule.handleOps
  simp only [haggregators, htotal, List.foldlM_append, List.foldlM_cons, bind_assoc, pure_bind]
  refine bind_congr fun s => bind_congr fun entered => bind_congr fun _ => ?_
  have hexecution (p : Progress)
      : (groupExecution 0 ops).foldlM (Turn.run cfg msg fun a b => .ok (Yul.add a b)) p >>= pay cfg beneficiary
        = executeOps msg (fun a b => .ok (Yul.add a b)) 0 ops p.opInfos p.collected >>= fun collected =>
            pay cfg beneficiary { p with collected := collected } :=
    executeOps_turns 0 ops p fun opInfos collected => pay cfg beneficiary { p with collected := collected }
  simp only [Turn.run, bind_assoc, pure_bind, hexecution]
  refine Eq.trans ?_ (validateOps_turns 0 0 0 ops _ fun opInfos collected => do
    Prog.emit .beforeExecution
    let collected ← executeOps msg (fun a b => .ok (Yul.add a b)) 0 ops opInfos collected
    pay cfg beneficiary ⟨opInfos, 0, 0, collected⟩).symm
  rfl

theorem handleAggregatedOps_turns (opas : List UserOpsPerAggregator) (beneficiary : Address)
    : handleAggregatedOps cfg msg opas beneficiary
        = beforeTurns cfg opas >>= fun p =>
            (Schedule.handleAggregatedOps opas).turns.foldlM (Turn.run cfg msg Solidity.add) p
              >>= afterTurns cfg beneficiary := by
  unfold handleAggregatedOps nonReentrant beforeTurns Schedule.handleAggregatedOps
  simp only [List.foldlM_append, List.foldlM_cons, bind_assoc, pure_bind]
  refine bind_congr fun s => bind_congr fun entered => bind_congr fun _ => bind_congr fun _ => ?_
  have hexecution (p : Progress)
      : (executionTurns 0 opas).foldlM (Turn.run cfg msg Solidity.add) p >>= afterTurns cfg beneficiary
        = executeGroups msg 0 opas p.opInfos p.collected >>= fun collected =>
            afterTurns cfg beneficiary { p with collected := collected } :=
    executeGroups_turns 0 opas p fun opInfos collected =>
      afterTurns cfg beneficiary { p with collected := collected }
  simp only [Turn.run, bind_assoc, pure_bind, hexecution]
  refine Eq.trans ?_ (validateGroups_turns 0 opas _ fun opInfos collected => do
    Prog.emit .beforeExecution
    let collected ← executeGroups msg 0 opas opInfos collected
    afterTurns cfg beneficiary ⟨opInfos, 0, 0, collected⟩).symm
  unfold afterTurns
  rfl

end

/-! ## Positions -/

theorem operation_groupValidation {start i : Nat} {aggregator : Address}
    {ops : List PackedUserOperation} {turn : Turn} {position : Nat} {op : PackedUserOperation}
    (h : turn ∈ groupValidation start aggregator i ops) (hop : turn.operation = some (position, op))
    : ∃ j, position = start + i + j ∧ ops[j]? = some op := by
  induction ops generalizing i with
  | nil => exact absurd h List.not_mem_nil
  | cons op' ops ih =>
    unfold groupValidation at h
    rcases List.mem_cons.mp h with rfl | h
    . cases hop
      exact ⟨0, rfl, rfl⟩
    . rcases List.mem_cons.mp h with rfl | h
      . cases hop
        exact ⟨0, rfl, rfl⟩
      . obtain ⟨j, hposition, hj⟩ := ih h
        exact ⟨j + 1, by omega, hj⟩

theorem operation_groupExecution {first : Nat} {ops : List PackedUserOperation} {turn : Turn}
    {position : Nat} {op : PackedUserOperation} (h : turn ∈ groupExecution first ops)
    (hop : turn.operation = some (position, op))
    : ∃ j, position = first + j ∧ ops[j]? = some op := by
  induction ops generalizing first with
  | nil => exact absurd h List.not_mem_nil
  | cons op' ops ih =>
    unfold groupExecution at h
    rcases List.mem_cons.mp h with rfl | h
    . cases hop
      exact ⟨0, rfl, rfl⟩
    . obtain ⟨j, hposition, hj⟩ := ih h
      exact ⟨j + 1, by omega, hj⟩

/-- The operations of all groups in order. -/
def allOps (opas : List UserOpsPerAggregator) : List PackedUserOperation :=
  opas.flatMap fun opa => opa.userOps

theorem allOps_later {opa : UserOpsPerAggregator} {opas : List UserOpsPerAggregator}
    {start position : Nat} {op : PackedUserOperation}
    (h : ∃ j, position = start + opa.userOps.length + j ∧ (allOps opas)[j]? = some op)
    : ∃ j, position = start + j ∧ (allOps (opa :: opas))[j]? = some op := by
  obtain ⟨j, hposition, hj⟩ := h
  refine ⟨opa.userOps.length + j, by omega, ?_⟩
  change (opa.userOps ++ allOps opas)[opa.userOps.length + j]? = some op
  rw [List.getElem?_append_right (Nat.le_add_right _ _)]
  rw [Nat.add_sub_cancel_left]
  exact hj

theorem allOps_group {opa : UserOpsPerAggregator} {opas : List UserOpsPerAggregator}
    {start position : Nat} {op : PackedUserOperation}
    (h : ∃ j, position = start + j ∧ opa.userOps[j]? = some op)
    : ∃ j, position = start + j ∧ (allOps (opa :: opas))[j]? = some op := by
  obtain ⟨j, hposition, hj⟩ := h
  refine ⟨j, hposition, ?_⟩
  change (opa.userOps ++ allOps opas)[j]? = some op
  rw [List.getElem?_append_left (List.getElem?_eq_some_iff.mp hj).1]
  exact hj

theorem operation_validationTurns {start : Nat} {opas : List UserOpsPerAggregator} {turn : Turn}
    {position : Nat} {op : PackedUserOperation} (h : turn ∈ validationTurns start opas)
    (hop : turn.operation = some (position, op))
    : ∃ j, position = start + j ∧ (allOps opas)[j]? = some op := by
  induction opas generalizing start with
  | nil => exact absurd h List.not_mem_nil
  | cons opa opas ih =>
    unfold validationTurns at h
    rcases List.mem_append.mp h with h | h
    . apply allOps_group
      exact operation_groupValidation h hop
    . apply allOps_later
      exact ih h

theorem operation_executionTurns {start : Nat} {opas : List UserOpsPerAggregator} {turn : Turn}
    {position : Nat} {op : PackedUserOperation} (h : turn ∈ executionTurns start opas)
    (hop : turn.operation = some (position, op))
    : ∃ j, position = start + j ∧ (allOps opas)[j]? = some op := by
  induction opas generalizing start with
  | nil => exact absurd h List.not_mem_nil
  | cons opa opas ih =>
    unfold executionTurns at h
    rcases List.mem_cons.mp h with rfl | h
    . cases hop
    . rcases List.mem_append.mp h with h | h
      . apply allOps_group
        exact operation_groupExecution h hop
      . apply allOps_later
        exact ih h

/-- The positions are those in the concatenation of all groups. -/
theorem operation_turns {opas : List UserOpsPerAggregator} {turn : Turn} {position : Nat}
    {op : PackedUserOperation} (h : turn ∈ (Schedule.handleAggregatedOps opas).turns)
    (hop : turn.operation = some (position, op))
    : (allOps opas)[position]? = some op := by
  have hposition : ∃ j, position = 0 + j ∧ (allOps opas)[j]? = some op := by
    rcases List.mem_append.mp h with h | h
    . exact operation_validationTurns h hop
    . rcases List.mem_cons.mp h with rfl | h
      . cases hop
      . exact operation_executionTurns h hop
  obtain ⟨j, rfl, hj⟩ := hposition
  rw [Nat.zero_add]
  exact hj

/-! ## Order -/

/-- With `validated` operations validated and `executed` ones executed, the turns go on with the next one
of each, and execute only what is validated. -/
def Ordered : Nat → Nat → List Turn → Prop
  | _, _, [] => True
  | validated, executed, .prepayment position _ :: turns =>
    position = validated ∧ Ordered (validated + 1) executed turns
  | validated, executed, .execution position _ :: turns =>
    position = executed ∧ executed < validated ∧ Ordered validated (executed + 1) turns
  | validated, executed, _ :: turns => Ordered validated executed turns

theorem ordered_groupValidation {start i executed : Nat} {aggregator : Address}
    {ops : List PackedUserOperation} {turns : List Turn}
    (h : Ordered (start + i + ops.length) executed turns)
    : Ordered (start + i) executed (groupValidation start aggregator i ops ++ turns) := by
  induction ops generalizing i with
  | nil => exact h
  | cons op ops ih =>
    have hrest : Ordered (start + (i + 1)) executed
        (groupValidation start aggregator (i + 1) ops ++ turns) := by
      apply ih
      rw [List.length_cons] at h
      rw [← Nat.add_assoc, Nat.add_right_comm _ 1]
      exact h
    exact ⟨rfl, hrest⟩

theorem ordered_validationTurns {start executed : Nat} {opas : List UserOpsPerAggregator}
    {turns : List Turn} (h : Ordered (start + totalOps opas) executed turns)
    : Ordered start executed (validationTurns start opas ++ turns) := by
  induction opas generalizing start with
  | nil => exact h
  | cons opa opas ih =>
    unfold validationTurns
    rw [List.append_assoc]
    refine ordered_groupValidation (i := 0) (ih ?_)
    rw [Nat.add_zero, Nat.add_assoc]
    exact h

theorem ordered_groupExecution {validated position : Nat} {ops : List PackedUserOperation}
    {turns : List Turn} (hle : position + ops.length ≤ validated)
    (h : Ordered validated (position + ops.length) turns)
    : Ordered validated position (groupExecution position ops ++ turns) := by
  induction ops generalizing position with
  | nil => exact h
  | cons op ops ih =>
    rw [List.length_cons] at h hle
    refine ⟨rfl, by omega, ih (by omega) ?_⟩
    rw [Nat.add_right_comm]
    exact h

theorem ordered_executionTurns {validated start : Nat} {opas : List UserOpsPerAggregator}
    (hle : start + totalOps opas ≤ validated)
    : Ordered validated start (executionTurns start opas) := by
  induction opas generalizing start with
  | nil => trivial
  | cons opa opas ih =>
    have htotal : totalOps (opa :: opas) = opa.userOps.length + totalOps opas := rfl
    rw [htotal] at hle
    exact ordered_groupExecution (by omega) (ih (by omega))

theorem ordered_of_schedule {message : Message} {b : Schedule} (h : scheduleOf message = some b)
    : Ordered 0 0 b.turns := by
  cases message with
  | handleOps ops beneficiary =>
    cases h
    have h := @ordered_groupExecution (0 + 0 + ops.length) 0 ops [] (by omega) trivial
    rw [List.append_nil] at h
    exact @ordered_groupValidation 0 0 0 0 ops _ h
  | handleAggregatedOps opas beneficiary =>
    cases h
    exact ordered_validationTurns (ordered_executionTurns (Nat.le_refl _))
  | _ => cases h

end EntryPoint

namespace Deployment

open EntryPoint

variable {X : Type}

/-- The call `msg` of a bundle comes to the turn, with the progress `p` and in the state `s1`; what it
calls is at most `m` deep. -/
inductive ComesTo (d : Deployment X) (n : Nat) (msg : Frame Message) (b : Schedule)
    (s : State (Chain X)) (m : Nat) (turn : Turn) (p : Progress) (s1 : State (Chain X)) : Prop where
  | mk {ledger pre post p0 s0 t0 t1} :
      n = m + 1 →
      msg.value = 0 →
      s.world.ledger.transfer msg.caller msg.self msg.value = some ledger →
      b.turns = pre ++ turn :: post →
      d.Returns (invoke d.system m) msg (beforeTurns d.cfg b.groups)
        { s with world := { s.world with ledger := ledger } } p0 s0 t0 →
      d.Returns (invoke d.system m) msg (pre.foldlM (Turn.run d.cfg msg b.add) p0) s0 p s1 t1 →
      ComesTo d n msg b s m turn p s1

variable {d : Deployment X} {n : Nat} {msg : Frame Message} {b : Schedule} {s : State (Chain X)}

theorem ComesTo.mem {m : Nat} {turn : Turn} {p : Progress} {s1 : State (Chain X)}
    (h : d.ComesTo n msg b s m turn p s1)
    : turn ∈ b.turns := by
  obtain @⟨_, pre, post, _, _, _, _, _, _, _, hturns, _, _⟩ := h
  rw [hturns]
  exact List.mem_append_right _ List.mem_cons_self

/-- The bundle comes to the turn and fails in it. -/
def FailedTurn (d : Deployment X) (n : Nat) (msg : Frame Message) (b : Schedule)
    (s : State (Chain X)) (turn : Turn) : Prop :=
  ∃ m p s1 data, d.ComesTo n msg b s m turn p s1
    ∧ Reverts d.system (invoke d.system m) msg Chain.entryPointPart (turn.run d.cfg msg b.add p) s1 data

/-- A bundle fails in one turn at most. -/
theorem FailedTurn.unique {turn turn' : Turn} (h : d.FailedTurn n msg b s turn)
    (h' : d.FailedTurn n msg b s turn')
    : turn' = turn := by
  obtain ⟨m, p, s1, data, @⟨ledger, pre, post, p0, s0, t0, t1, rfl, _, htransfer, hturns, h0, h1⟩, hr⟩ := h
  obtain ⟨m', p', s1', data', @⟨ledger', pre', post', p0', s0', t0', t1', hn, _, htransfer', hturns', h0',
    h1'⟩, hr'⟩ := h'
  cases hn
  rw [htransfer] at htransfer'
  cases htransfer'
  obtain ⟨rfl, rfl, _⟩ := h0.unique h0'
  rw [hturns] at hturns'
  rcases List.append_eq_append_iff.mp hturns' with ⟨mid, hpre, hpost⟩ | ⟨mid, hpre, hpost⟩
  . cases mid with
    | nil => exact (List.cons.inj hpost).1.symm
    | cons x mid =>
      obtain ⟨rfl, _⟩ := List.cons.inj hpost
      rw [hpre] at h1'
      exact absurd h1' (Reverts.not_past h1 hr)
  . cases mid with
    | nil => exact (List.cons.inj hpost).1
    | cons x mid =>
      obtain ⟨rfl, _⟩ := List.cons.inj hpost
      rw [hpre] at h1
      exact absurd h1 (Reverts.not_past h1' hr')

/-- The first turns of the bundle return. -/
def reaches (d : Deployment X) (m : Nat) (msg : Frame Message) (b : Schedule) (s : State (Chain X))
    (i : Nat) : Bool :=
  (run d.system (invoke d.system m) msg ((beforeTurns d.cfg b.groups >>= fun p =>
    (b.turns.take i).foldlM (Turn.run d.cfg msg b.add) p).zoom
      Chain.entryPointPart.get Chain.entryPointPart.set) s).outcome.isOk

/-- A turn that is made and returns. -/
theorem comesTo_of_reaches {m i : Nat} {turn : Turn} (hn : n = m + 1) (hvalue : msg.value = 0)
    (hturn : b.turns[i]? = some turn)
    (hreaches : (s.world.ledger.transfer msg.caller msg.self msg.value).map (fun ledger =>
      d.reaches m msg b { s with world := { s.world with ledger := ledger } } (i + 1)) = some true)
    : ∃ p s1 p' s2 t, d.ComesTo n msg b s m turn p s1
        ∧ d.Returns (invoke d.system m) msg (turn.run d.cfg msg b.add p) s1 p' s2 t := by
  obtain ⟨ledger, htransfer, hreaches⟩ := Option.map_eq_some_iff.mp hreaches
  obtain ⟨hlt, heq⟩ := List.getElem?_eq_some_iff.mp hturn
  have hturns : b.turns = b.turns.take i ++ turn :: b.turns.drop (i + 1) := by
    rw [← heq, ← List.drop_eq_getElem_cons hlt, List.take_append_drop]
  have htake : b.turns.take (i + 1) = b.turns.take i ++ [turn] := by
    rw [List.take_add_one, hturn]
    rfl
  unfold reaches at hreaches
  rcases returns_or_reverts (beforeTurns d.cfg b.groups >>= fun p =>
      (b.turns.take (i + 1)).foldlM (Turn.run d.cfg msg b.add) p)
    { s with world := { s.world with ledger := ledger } } with ⟨p', s2, t, h⟩ | ⟨data, h⟩
  . obtain ⟨p0, s0, t0, t1, h0, h1, _⟩ := h.bind
    rw [htake, List.foldlM_append] at h1
    obtain ⟨p, s1, t2, t3, h2, h3, _⟩ := h1.bind
    rw [List.foldlM_cons] at h3
    obtain ⟨p'', s3, t4, t5, h4, h5, _⟩ := h3.bind
    exact ⟨p, s1, p'', s3, t4, .mk hn hvalue htransfer hturns h0 h2, h4⟩
  . unfold Reverts at h
    rw [h] at hreaches
    cases hreaches

end Deployment
