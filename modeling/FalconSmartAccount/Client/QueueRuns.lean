import FalconSmartAccount.Client.UserOpQueue

/-!
Runs of a process with queues of user operations: whether operations get lost, when bundles are sent, and
in which order.
-/

namespace AASigner

open JavaScript

variable {ι : Type} [DecidableEq ι]

/-! ## What has happened to the operations of a sender -/

def Event.enqueued : Event ι → Option (ι × List QueuedUserOp)
  | .enqueue i _ userOp => if userOp.senderString ∈ inherited then none else some (i, [userOp])
  | _ => none

/-- Operations that have left a queue. -/
def Output.taken : Output ι → Option (ι × List QueuedUserOp)
  | .bundle i ops => some (i, ops.userOps)
  | .thrown i userOps => some (i, userOps)
  | _ => none

def Output.bundled : Output ι → Option (ι × List QueuedUserOp)
  | .bundle i ops => some (i, ops.userOps)
  | _ => none

def Output.successful : Output ι → Option (ι × List QueuedUserOp)
  | .submitted i ops => some (i, ops.userOps)
  | _ => none

def Output.lost : Output ι → Option (ι × List QueuedUserOp)
  | .thrown i userOps => some (i, userOps)
  | .rejected i ops => some (i, ops.userOps)
  | _ => none

def Flight.batch (flight : Flight ι) : ι × List QueuedUserOp := (flight.queueSender, flight.ops.userOps)

/-- The operations of one sender in one queue. -/
def ofSender (i : ι) (sender : String) (batches : List (ι × List QueuedUserOp)) : List QueuedUserOp :=
  batches.flatMap fun batch => if batch.1 = i then batch.2.filter (·.senderString = sender) else []

section

variable (i : ι) (sender : String)

@[simp]
theorem ofSender_nil : ofSender i sender [] = [] := rfl

@[simp]
theorem ofSender_append (xs ys : List (ι × List QueuedUserOp))
    : ofSender i sender (xs ++ ys) = ofSender i sender xs ++ ofSender i sender ys :=
  List.flatMap_append

theorem ofSender_other {j : ι} (h : j ≠ i) (userOps : List QueuedUserOp)
    : ofSender i sender [(j, userOps)] = [] := by
  simp [ofSender, h]

theorem ofSender_self (userOps : List QueuedUserOp)
    : ofSender i sender [(i, userOps)] = userOps.filter (·.senderString = sender) := by
  simp [ofSender]

theorem ofSender_sublist {xs ys : List (ι × List QueuedUserOp)} (h : xs.Sublist ys)
    : (ofSender i sender xs).Sublist (ofSender i sender ys) :=
  h.flatMap _

end

/-! ## The invariant -/

/-- What holds after the events `es`, with `os` put out. -/
structure Invariant (es : List (Event ι)) (p : Process ι) (os : List (Output ι)) : Prop where
  exclusive : (p.flights = [] ∧ p.sending = false)
    ∨ ∃ flight, p.flights = [flight] ∧ p.sending = true ∧ flight.ops ≠ []
  spelled : ∀ i, Spelled (p.queueSenders i)
  fifo : ∀ i sender, ofSender i sender (es.filterMap Event.enqueued)
    = ofSender i sender (os.filterMap Output.taken) ++ (p.queueSenders i).queued sender
  senders : ∀ i ops, Output.bundle i ops ∈ os → (ops.userOps.map QueuedUserOp.senderString).Nodup
  lost : ∀ batch ∈ os.filterMap Output.lost, batch.2 ≠ []
  accounted : ∀ i sender, (ofSender i sender (os.filterMap Output.taken)).Perm
    (ofSender i sender (os.filterMap Output.successful)
      ++ ofSender i sender (p.flights.map Flight.batch) ++ ofSender i sender (os.filterMap Output.lost))

theorem invariant_start : Invariant [] (start : Process ι) [] where
  exclusive := .inl ⟨rfl, rfl⟩
  spelled _ _ _ h := by cases h
  fifo _ _ := rfl
  senders _ _ h := by cases h
  lost _ h := by cases h
  accounted _ _ := List.Perm.refl _

section Step

variable {es : List (Event ι)} {p : Process ι} {os : List (Output ι)}

/-- Operations leave a queue. -/
theorem Invariant.take (h : Invariant es p os) {i : ι} {after : QueueSendUserOp}
    {new : List QueuedUserOp} (htook : Took (p.queueSenders i) after new) (j : ι) (sender : String)
    : Spelled (Function.update p.queueSenders i after j)
        ∧ (p.queueSenders j).queued sender = ofSender j sender [(i, new)]
          ++ (Function.update p.queueSenders i after j).queued sender := by
  by_cases hj : j = i
  . subst hj
    rw [Function.update_self, ofSender_self]
    exact ⟨htook.spelled (h.spelled j), htook.queued sender⟩
  . rw [Function.update_of_ne hj, ofSender_other j sender (fun heq => hj heq.symm)]
    exact ⟨h.spelled j, rfl⟩

theorem Invariant.idle (h : Invariant es p os) {e : Event ι} (he : e.enqueued = none)
    : Invariant (es ++ [e]) p (os ++ []) := by
  rw [List.append_nil]
  refine ⟨h.exclusive, h.spelled, ?_, h.senders, h.lost, h.accounted⟩
  intro i sender
  have hnone : [e].filterMap Event.enqueued = [] := by simp [he]
  rw [List.filterMap_append, hnone, List.append_nil]
  exact h.fifo i sender

/-- A step with one output moves operations between the queues, the flights and the ends. -/
theorem Invariant.output (h : Invariant es p os) {e : Event ι} {p' : Process ι} {o : Output ι}
    (he : e.enqueued = none)
    (hexclusive : (p'.flights = [] ∧ p'.sending = false)
      ∨ ∃ flight, p'.flights = [flight] ∧ p'.sending = true ∧ flight.ops ≠ [])
    (hqueued : ∀ i sender, Spelled (p'.queueSenders i)
      ∧ (p.queueSenders i).queued sender
        = ofSender i sender o.taken.toList ++ (p'.queueSenders i).queued sender)
    (hsenders : ∀ i ops, o = .bundle i ops → (ops.userOps.map QueuedUserOp.senderString).Nodup)
    (hlost : ∀ batch, o.lost = some batch → batch.2 ≠ [])
    (haccounted : ∀ i sender,
      (ofSender i sender (p.flights.map Flight.batch) ++ ofSender i sender o.taken.toList).Perm
        (ofSender i sender o.successful.toList ++ ofSender i sender (p'.flights.map Flight.batch)
          ++ ofSender i sender o.lost.toList))
    : Invariant (es ++ [e]) p' (os ++ [o]) := by
  have happend (f : Output ι → Option (ι × List QueuedUserOp))
      : (os ++ [o]).filterMap f = os.filterMap f ++ (f o).toList := by
    rw [List.filterMap_append]
    cases hf : f o <;> simp [hf]
  have hidle := h.idle he
  rw [List.append_nil] at hidle
  refine ⟨hexclusive, fun i => (hqueued i "").1, ?_, ?_, ?_, ?_⟩
  . intro i sender
    rw [hidle.fifo i sender, happend, ofSender_append, List.append_assoc, (hqueued i sender).2]
  . intro i ops hmem
    rcases List.mem_append.mp hmem with hmem | hmem
    . exact h.senders i ops hmem
    . exact hsenders i ops (List.mem_singleton.mp hmem).symm
  . intro batch hmem
    rw [happend] at hmem
    rcases List.mem_append.mp hmem with hmem | hmem
    . exact h.lost batch hmem
    . exact hlost batch (Option.mem_toList.mp hmem)
  . intro i sender
    have hbefore := h.accounted i sender
    have hstep := haccounted i sender
    rw [happend, happend, happend, ofSender_append, ofSender_append, ofSender_append]
    rw [← Multiset.coe_eq_coe] at hbefore hstep ⊢
    simp only [← Multiset.coe_add] at hbefore hstep ⊢
    rw [hbefore]
    -- bring the flights of before next to what has been taken
    rw [add_right_comm _ _ (ofSender i sender o.taken.toList : Multiset QueuedUserOp), add_assoc _
      (ofSender i sender (p.flights.map Flight.batch) : Multiset QueuedUserOp), hstep]
    abel

/-- The call that an event is about is the only one. -/
theorem Invariant.flight_eq (h : Invariant es p os) {k : Nat} {flight : Flight ι}
    (hget : p.flights[k]? = some flight)
    : k = 0 ∧ p.flights = [flight] ∧ p.sending = true ∧ flight.ops ≠ [] := by
  obtain ⟨hflights, _⟩ | ⟨flight', hflights, hsending, hops⟩ := h.exclusive
  . rw [hflights] at hget
    cases hget
  . rw [hflights] at hget
    cases k with
    | zero =>
      cases hget
      exact ⟨rfl, hflights, hsending, hops⟩
    | succ k => cases hget

variable [Ethers]

theorem Invariant.enqueue (h : Invariant es p os) (i : ι) (now : Int) (userOp : QueuedUserOp)
    : Invariant (es ++ [.enqueue i now userOp]) (step p (.enqueue i now userOp)).1
        (os ++ (step p (.enqueue i now userOp)).2) := by
  unfold step
  dsimp only
  cases henqueue : AASigner.enqueue now userOp (p.queueSenders i) with
  | none =>
    have hinherited := enqueue_none.mp henqueue
    dsimp only
    rw [List.append_nil]
    refine ⟨h.exclusive, h.spelled, ?_, h.senders, h.lost, h.accounted⟩
    intro j sender
    rw [List.filterMap_append]
    simp [Event.enqueued, hinherited, h.fifo j sender]
  | some after =>
    have hinherited : userOp.senderString ∉ inherited := by
      intro hmem
      rw [enqueue_none.mpr hmem] at henqueue
      cases henqueue
    obtain ⟨hqueued, _, _⟩ := enqueue_some henqueue
    dsimp only
    rw [List.append_nil]
    refine ⟨h.exclusive, ?_, ?_, h.senders, h.lost, h.accounted⟩
    . intro j
      dsimp only
      by_cases hj : j = i
      . subst hj
        rw [Function.update_self]
        intro sender op hmem
        rw [hqueued] at hmem
        rcases List.mem_append.mp hmem with hmem | hmem
        . exact h.spelled j sender op hmem
        . simpa using (List.mem_filter.mp hmem).2
      . rw [Function.update_of_ne hj]
        exact h.spelled j
    . intro j sender
      have henqueued : [Event.enqueue i now userOp].filterMap Event.enqueued = [(i, [userOp])] := by
        simp [Event.enqueued, hinherited]
      rw [List.filterMap_append, ofSender_append, henqueued, h.fifo j sender, List.append_assoc]
      dsimp only
      by_cases hj : j = i
      . subst hj
        rw [Function.update_self, hqueued, ofSender_self]
      . rw [Function.update_of_ne hj, ofSender_other j sender (fun heq => hj heq.symm), List.append_nil]

theorem Invariant.push (h : Invariant es p os) (i : ι) (now : Int)
    : Invariant (es ++ [.push i now]) (step p (.push i now)).1 (os ++ (step p (.push i now)).2) := by
  by_cases hflushes : Flushes p i now
  . have hflights : p.flights = [] := by
      obtain ⟨hflights, _⟩ | ⟨flight, _, hsending, _⟩ := h.exclusive
      . exact hflights
      . rw [hflushes.1] at hsending
        cases hsending
    obtain ⟨after, ⟨_, lost, hlost, htook, hstep⟩ | ⟨_, _, hstep⟩ | ⟨_, _, ops, hops, htook, hstep⟩⟩ :=
      push_flushes (h.spelled i) hflushes
    . rw [hstep]
      refine h.output rfl (.inl ⟨hflights, hflushes.1⟩) (h.take htook) ?_ ?_ ?_
      . intro j ops heq
        cases heq
      . intro batch heq
        cases heq
        exact hlost
      . intro j sender
        simp [Output.taken, Output.successful, Output.lost]
    . rw [hstep]
      exact h.idle rfl
    . rw [hstep]
      refine h.output rfl (.inr ⟨_, by rw [hflights]; rfl, rfl, hops⟩) (h.take htook) ?_ ?_ ?_
      . intro j ops' heq
        cases heq
        exact htook.senders
      . intro batch heq
        cases heq
      . intro j sender
        simp [Output.taken, Output.successful, Output.lost, Flight.batch]
  . rw [push_idle hflushes]
    exact h.idle rfl

theorem Invariant.resolve (h : Invariant es p os) (k : Nat)
    : Invariant (es ++ [.resolve k]) (step p (.resolve k)).1 (os ++ (step p (.resolve k)).2) := by
  unfold step
  dsimp only
  cases hget : p.flights[k]? with
  | none => exact h.idle rfl
  | some flight =>
    obtain ⟨rfl, hflights, hsending, hops⟩ := h.flight_eq hget
    have hidle : Invariant (es ++ [.resolve 0]) p (os ++ []) := h.idle rfl
    -- the call waits for something else with the same operations
    have hnext (awaiting : Await) : Invariant (es ++ [.resolve 0])
        { p with flights := p.flights.set 0 { flight with awaiting } } (os ++ []) := by
      rw [hflights]
      refine ⟨.inr ⟨_, rfl, hsending, hops⟩, hidle.spelled, hidle.fifo, hidle.senders, hidle.lost, ?_⟩
      have haccounted := hidle.accounted
      rw [hflights] at haccounted
      exact haccounted
    unfold continueCall
    dsimp only
    cases flight.awaiting with
    | getAddress => exact hnext .handleOps
    | handleOps => exact hnext .wait
    | wait =>
      refine h.output rfl (.inl ⟨by rw [hflights]; rfl, rfl⟩) (fun i _ => ⟨h.spelled i, rfl⟩) ?_ ?_ ?_
      . intro i ops heq
        cases heq
      . intro batch heq
        cases heq
      . intro i sender
        simp [hflights, Output.taken, Output.successful, Output.lost, Flight.batch]

theorem Invariant.reject (h : Invariant es p os) (k : Nat)
    : Invariant (es ++ [.reject k]) (step p (.reject k)).1 (os ++ (step p (.reject k)).2) := by
  unfold step
  dsimp only
  cases hget : p.flights[k]? with
  | none => exact h.idle rfl
  | some flight =>
    obtain ⟨rfl, hflights, hsending, hops⟩ := h.flight_eq hget
    refine h.output rfl (.inl ⟨by rw [hflights]; rfl, rfl⟩) (fun i _ => ⟨h.spelled i, rfl⟩) ?_ ?_ ?_
    . intro i ops heq
      cases heq
    . intro batch heq
      cases heq
      intro hnil
      exact hops (List.map_eq_nil_iff.mp hnil)
    . intro i sender
      simp [hflights, Output.taken, Output.successful, Output.lost, Flight.batch]

theorem Invariant.step (h : Invariant es p os) (e : Event ι)
    : Invariant (es ++ [e]) (step p e).1 (os ++ (AASigner.step p e).2) := by
  cases e with
  | enqueue i now userOp => exact h.enqueue i now userOp
  | push i now => exact h.push i now
  | resolve k => exact h.resolve k
  | reject k => exact h.reject k

theorem invariant_run (es : List (Event ι)) : Invariant es (run es).1 (run es).2 := by
  induction es using List.reverseRecOn with
  | nil => exact invariant_start
  | append_singleton es e ih =>
    rw [run_append]
    exact ih.step e

end Step

/-! ## Lost operations -/

/-- Every operation that has been enqueued waits, is in flight or has been submitted. -/
def Conserved [Ethers] (es : List (Event ι)) : Prop :=
  ∀ i sender, (ofSender i sender (es.filterMap Event.enqueued)).Perm
    (ofSender i sender ((run es).2.filterMap Output.successful)
      ++ ofSender i sender ((run es).1.flights.map Flight.batch)
      ++ ((run es).1.queueSenders i).queued sender)

/-- A call is rejected by what it waits for, or a push comes to an operation that cannot be packed. -/
def Loses [Ethers] (p : Process ι) : Event ι → Prop
  | .enqueue _ _ _ => False
  | .push i now => Flushes p i now ∧ ¬ HeadsPack (p.queueSenders i)
  | .resolve _ => False
  | .reject k => k < p.flights.length

theorem step_lost [Ethers] {es : List (Event ι)} {p : Process ι} {os : List (Output ι)} (h : Invariant es p os)
    (e : Event ι)
    : (step p e).2.filterMap Output.lost = [] ↔ ¬ Loses p e := by
  cases e with
  | enqueue i now userOp =>
    unfold step Loses
    dsimp only
    split <;> simp
  | push i now =>
    unfold Loses
    by_cases hflushes : Flushes p i now
    . obtain ⟨after, ⟨hpack, lost, _, _, hstep⟩ | ⟨hpack, _, hstep⟩ | ⟨hpack, _, ops, _, _, hstep⟩⟩ :=
        push_flushes (h.spelled i) hflushes
      . simp [hstep, Output.lost, hflushes, hpack]
      . simp [hstep, hpack]
      . simp [hstep, Output.lost, hpack]
    . simp [push_idle hflushes, hflushes]
  | resolve k =>
    unfold step Loses
    dsimp only
    split
    . unfold continueCall
      split <;> simp [Output.lost]
    . simp
  | reject k =>
    unfold step Loses
    dsimp only
    split
    . next hget =>
      have hlt := (List.getElem?_eq_some_iff.mp hget).1
      simp [Output.lost, hlt]
    . next hget =>
      have hle := List.getElem?_eq_none_iff.mp hget
      simp [hle]

theorem run_lost [Ethers] (es : List (Event ι))
    : (run es).2.filterMap Output.lost = []
        ↔ ∀ es' e, es' ++ [e] <+: es → ¬ Loses (run es').1 e := by
  induction es using List.reverseRecOn with
  | nil =>
    have hprefix (es' : List (Event ι)) (e : Event ι) : ¬ es' ++ [e] <+: [] := by simp
    simp [run, hprefix]
  | append_singleton es e ih =>
    rw [run_append]
    dsimp only
    rw [List.filterMap_append, List.append_eq_nil_iff, ih, step_lost (invariant_run es) e]
    constructor
    . rintro ⟨hbefore, hlast⟩ es' e' hprefix
      rcases List.prefix_concat_iff.mp hprefix with heq | hprefix
      . obtain ⟨rfl, hlast'⟩ := List.append_inj' heq rfl
        cases hlast'
        exact hlast
      . exact hbefore es' e' hprefix
    . intro hall
      refine ⟨fun es' e' hprefix => hall es' e' ?_, hall es e (List.prefix_refl _)⟩
      exact hprefix.trans (List.prefix_append es [e])

theorem conserved_iff_lost [Ethers] (es : List (Event ι))
    : Conserved es ↔ (run es).2.filterMap Output.lost = [] := by
  have h := invariant_run es
  constructor
  . intro hconserved
    apply List.eq_nil_iff_forall_not_mem.mpr
    rintro ⟨i, userOps⟩ hmem
    cases userOps with
    | nil => exact h.lost _ hmem rfl
    | cons op userOps =>
      have hlength := (hconserved i op.senderString).length_eq
      have haccounted := (h.accounted i op.senderString).length_eq
      have hlost : op ∈ ofSender i op.senderString ((run es).2.filterMap Output.lost) := by
        apply List.mem_flatMap.mpr
        refine ⟨_, hmem, ?_⟩
        simp
      have hpos := List.length_pos_of_mem hlost
      rw [h.fifo i op.senderString] at hlength
      simp only [List.length_append] at hlength haccounted
      omega
  . intro hlost i sender
    have haccounted := h.accounted i sender
    rw [hlost, ofSender_nil, List.append_nil] at haccounted
    rw [h.fifo i sender]
    exact haccounted.append_right _

/-- A run keeps all operations in all of its states exactly if none of its steps loses any. -/
theorem conserved_iff [Ethers] (es : List (Event ι))
    : (∀ es', es' <+: es → Conserved es') ↔ ∀ es' e, es' ++ [e] <+: es → ¬ Loses (run es').1 e := by
  rw [← run_lost]
  constructor
  . intro hall
    exact (conserved_iff_lost es).mp (hall es (List.prefix_refl es))
  . intro hlost es' hprefix
    rw [run_lost] at hlost
    apply (conserved_iff_lost es').mpr
    rw [run_lost]
    intro es'' e hprefix'
    exact hlost es'' e (hprefix'.trans hprefix)

def sampleOp (nonce : Nat) : QueuedUserOp where
  sender := 0xab
  nonce
  initCode := []
  callData := [1, 2]
  callGasLimit := 100000
  verificationGasLimit := 100000
  preVerificationGas := 21000
  maxFeePerGas := 10 ^ 9
  maxPriorityFeePerGas := 10 ^ 9
  paymaster := none
  paymasterVerificationGasLimit := 0
  paymasterPostOpGasLimit := 0
  paymasterData := []
  signature := []
  senderString := "0x00000000000000000000000000000000000000ab"

/-- An operation that is sent after the idle time, in a transaction that is rejected. -/
def rejectedRun : List (Event Unit) :=
  [.enqueue () 0 (sampleOp 0), .push () 5000, .resolve 0, .reject 0]

theorem not_conserved_rejectedRun : let _ := Ethers.sample; ¬ Conserved rejectedRun := by
  intro ethers h
  have hlength := (h () "0x00000000000000000000000000000000000000ab").length_eq
  revert hlength
  decide +kernel

/-! ## When a bundle is sent -/

/-- The number of operations in all queues of the senders. -/
def QueueSendUserOp.held (queueSender : QueueSendUserOp) : Nat :=
  (queueSender.queue.keys.map fun sender => (queueSender.queued sender).length).sum

def Event.enqueuedAt (i : ι) : Event ι → Option Int
  | .enqueue j now userOp => if j = i ∧ userOp.senderString ∉ inherited then some now else none
  | _ => none

def lastEnqueue (es : List (Event ι)) (i : ι) : Option Int := (es.filterMap (Event.enqueuedAt i)).getLast?

/-- The push goes on to send a bundle. -/
def Submits [Ethers] (p : Process ι) (i : ι) (now : Int) : Prop :=
  ∃ ops, Output.bundle i ops ∈ (step p (.push i now)).2

/-- The two properties that the constructor leaves undefined. The first operation sets the time, and makes
the size `NaN`. -/
inductive Counted (es : List (Event ι)) (i : ι) (queueSender : QueueSendUserOp) : Prop where
  | fresh :
      lastEnqueue es i = none → queueSender.queueSize = .undefined → ¬ Nonempty queueSender →
      Counted es i queueSender
  | used (last : Int) :
      lastEnqueue es i = some last → queueSender.queueSize = .nan →
      queueSender.lastQueueUpdate = .number last → Counted es i queueSender

theorem Counted.congr {es es' : List (Event ι)} {i : ι} {queueSender : QueueSendUserOp}
    (h : Counted es i queueSender) (heq : lastEnqueue es' i = lastEnqueue es i)
    : Counted es' i queueSender := by
  cases h with
  | fresh hlast hsize hempty => exact .fresh (heq.trans hlast) hsize hempty
  | used last hlast hsize htime => exact .used last (heq.trans hlast) hsize htime

/-- Taking operations does not set a value right. -/
theorem Counted.took {es : List (Event ι)} {i : ι} {before after : QueueSendUserOp}
    {new : List QueuedUserOp} (h : Counted es i before) (htook : Took before after new)
    (hne : Nonempty before)
    : Counted es i after := by
  cases h with
  | fresh _ _ hempty => exact absurd hne hempty
  | used last hlast hsize htime =>
    exact .used last hlast (htook.queueSize hsize) (htook.lastQueueUpdate.trans htime)

theorem lastEnqueue_append_none {es : List (Event ι)} {e : Event ι} {i : ι} (h : e.enqueuedAt i = none)
    : lastEnqueue (es ++ [e]) i = lastEnqueue es i := by
  unfold lastEnqueue
  rw [List.filterMap_append]
  simp [h]

theorem counted_run [Ethers] (es : List (Event ι)) (i : ι) : Counted es i ((run es).1.queueSenders i) := by
  induction es using List.reverseRecOn with
  | nil => exact .fresh rfl rfl (fun ⟨_, hne⟩ => hne rfl)
  | append_singleton es e ih =>
    rw [run_append]
    cases e with
    | enqueue j now userOp =>
      unfold step
      dsimp only
      cases henqueue : enqueue now userOp ((run es).1.queueSenders j) with
      | none =>
        apply ih.congr
        apply lastEnqueue_append_none
        simp [Event.enqueuedAt, enqueue_none.mp henqueue]
      | some after =>
        dsimp only
        by_cases hj : i = j
        . subst hj
          rw [Function.update_self]
          have hinherited : userOp.senderString ∉ inherited := by
            intro hmem
            rw [enqueue_none.mpr hmem] at henqueue
            cases henqueue
          obtain ⟨_, htime, hsize⟩ := enqueue_some henqueue
          refine .used now ?_ ?_ htime
          . unfold lastEnqueue
            rw [List.filterMap_append]
            simp [Event.enqueuedAt, hinherited]
          -- `undefined + 1` is NaN, and NaN stays NaN
          . rw [hsize]
            cases ih with
            | fresh _ hundefined _ => rw [hundefined, Value.undefined_add]
            | used _ _ hnan _ => rw [hnan, Value.nan_add]
        . rw [Function.update_of_ne hj]
          apply ih.congr
          apply lastEnqueue_append_none
          have hne : j ≠ i := fun heq => hj heq.symm
          simp [Event.enqueuedAt, hne]
    | push j now =>
      have hsame : Counted (es ++ [.push j now]) i ((run es).1.queueSenders i) :=
        ih.congr (lastEnqueue_append_none rfl)
      have htaken {after : QueueSendUserOp} {new : List QueuedUserOp}
          (htook : Took ((run es).1.queueSenders j) after new) (hnew : new ≠ [])
          : Counted (es ++ [.push j now]) i (Function.update (run es).1.queueSenders j after i) := by
        by_cases hj : i = j
        . subst hj
          rw [Function.update_self]
          apply hsame.took htook
          obtain ⟨op, rest, rfl⟩ := List.exists_cons_of_ne_nil hnew
          refine ⟨op.senderString, ?_⟩
          rw [htook.queued]
          simp
        . rw [Function.update_of_ne hj]
          exact hsame
      by_cases hflushes : Flushes (run es).1 j now
      . obtain ⟨after, ⟨_, lost, hlost, htook, hstep⟩ | ⟨_, _, hstep⟩ | ⟨_, _, ops, hops, htook, hstep⟩⟩ :=
          push_flushes ((invariant_run es).spelled j) hflushes
        . rw [hstep]
          exact htaken htook hlost
        . rw [hstep]
          exact hsame
        . rw [hstep]
          exact htaken htook (fun hnil => hops (List.map_eq_nil_iff.mp hnil))
      . rw [push_idle hflushes]
        exact hsame
    | resolve k =>
      have hsame : Counted (es ++ [.resolve k]) i ((run es).1.queueSenders i) :=
        ih.congr (lastEnqueue_append_none rfl)
      unfold step
      dsimp only
      split
      . unfold continueCall
        split <;> exact hsame
      . exact hsame
    | reject k =>
      have hsame : Counted (es ++ [.reject k]) i ((run es).1.queueSenders i) :=
        ih.congr (lastEnqueue_append_none rfl)
      unfold step
      dsimp only
      split <;> exact hsame

theorem submits_iff [Ethers] {p : Process ι} {i : ι} {now : Int} (hspelled : Spelled (p.queueSenders i))
    : Submits p i now ↔ Flushes p i now ∧ HeadsPack (p.queueSenders i) ∧ Nonempty (p.queueSenders i) := by
  unfold Submits
  by_cases hflushes : Flushes p i now
  . obtain ⟨after, ⟨hpack, _, _, _, hstep⟩ | ⟨_, hempty, hstep⟩ | ⟨hpack, hne, ops, _, _, hstep⟩⟩ :=
      push_flushes hspelled hflushes
    . simp [hstep, hpack]
    . simp [hstep, hempty]
    . simp [hstep, hpack, hne, hflushes]
  . simp [push_idle hflushes, hflushes]

/-- The size is never the number of operations that are held. Only the time of the last operation decides
whether a push sends a bundle: it does not if there are enough operations and the idle time has not
passed, nor if an operation at the head of a queue cannot be packed. -/
theorem flushes_by_time [Ethers] (es : List (Event ι)) (i : ι)
    : ((run es).1.queueSenders i).queueSize ≠ .number ((run es).1.queueSenders i).held
        ∧ ∀ now, (run es).1.sending = false → Nonempty ((run es).1.queueSenders i) →
          ∃ last, lastEnqueue es i = some last
            ∧ (Submits (run es).1 i now
              ↔ last + IDLE_TIME ≤ now ∧ HeadsPack ((run es).1.queueSenders i))
            ∧ ((Submits (run es).1 i now
                ↔ BUNDLE_SIZE_IMMEDIATE ≤ ((run es).1.queueSenders i).held ∨ last + IDLE_TIME ≤ now)
              ↔ (now < last + IDLE_TIME →
                  ((run es).1.queueSenders i).held < BUNDLE_SIZE_IMMEDIATE)
                ∧ (last + IDLE_TIME ≤ now → HeadsPack ((run es).1.queueSenders i))) := by
  have hspelled := (invariant_run es).spelled i
  cases counted_run es i with
  | fresh hlast hsize hempty =>
    refine ⟨?_, fun now _ hne => absurd hne hempty⟩
    rw [hsize]
    intro heq
    cases heq
  | used last hlast hsize htime =>
    refine ⟨?_, ?_⟩
    . rw [hsize]
      intro heq
      cases heq
    . intro now hsending hne
      have hflushes : Flushes (run es).1 i now ↔ last + IDLE_TIME ≤ now := by
        unfold Flushes waits
        simp [hsending, hsize, htime]
      have hsubmits : Submits (run es).1 i now
          ↔ last + IDLE_TIME ≤ now ∧ HeadsPack ((run es).1.queueSenders i) := by
        rw [submits_iff hspelled, hflushes]
        simp [hne]
      refine ⟨last, hlast, hsubmits, ?_⟩
      rw [hsubmits]
      by_cases hidle : last + IDLE_TIME ≤ now
      . have hnot : ¬ now < last + IDLE_TIME := by omega
        simp [hidle, hnot]
      . have hlt : now < last + IDLE_TIME := by omega
        simp [hidle, hlt]

/-- Three operations of three senders. -/
def fullQueueRun : List (Event Unit) :=
  ["0xa", "0xb", "0xc"].map fun senderString => .enqueue () 0 { sampleOp 0 with senderString }

/-- The queue has reached its threshold, but it does not know that, and a push does not send it. -/
theorem not_submits_fullQueueRun
    : let _ := Ethers.sample
      ((run fullQueueRun).1.queueSenders ()).held = 3
        ∧ ((run fullQueueRun).1.queueSenders ()).queueSize ≠ .number 3
        ∧ (run fullQueueRun).1.sending = false ∧ ¬ Submits (run fullQueueRun).1 () 0 := by
  intro ethers
  refine ⟨by decide +kernel, by decide +kernel, rfl, ?_⟩
  rintro ⟨ops, hmem⟩
  have hnone : (step (run fullQueueRun).1 (.push () 0)).2 = [] := by rfl
  rw [hnone] at hmem
  cases hmem

/-! ## Order -/

/-- One call sends at a time, a bundle has at most one operation of each sender, and what has been put into
bundles, followed by what waits, is what was enqueued, in order and with nothing twice. -/
theorem bundles_in_order [Ethers] (es : List (Event ι))
    : (run es).1.flights.length ≤ 1
        ∧ (∀ i ops, Output.bundle i ops ∈ (run es).2 →
          (ops.userOps.map QueuedUserOp.senderString).Nodup)
        ∧ ∀ i sender, (ofSender i sender ((run es).2.filterMap Output.bundled)
            ++ ((run es).1.queueSenders i).queued sender).Sublist
          (ofSender i sender (es.filterMap Event.enqueued)) := by
  have h := invariant_run es
  refine ⟨?_, h.senders, ?_⟩
  . obtain ⟨hflights, _⟩ | ⟨flight, hflights, _⟩ := h.exclusive
    . rw [hflights]
      exact Nat.zero_le 1
    . rw [hflights]
      exact Nat.le_refl 1
  . intro i sender
    have hbundled (os : List (Output ι))
        : (os.filterMap Output.bundled).Sublist (os.filterMap Output.taken) := by
      induction os with
      | nil => exact List.Sublist.refl []
      | cons o os ih =>
        cases o with
        | bundle j ops => exact ih.cons_cons _
        | thrown j userOps => exact ih.cons _
        | submitted j ops => exact ih
        | rejected j ops => exact ih
    rw [h.fifo i sender]
    exact (ofSender_sublist i sender (hbundled (run es).2)).append_right _

end AASigner
