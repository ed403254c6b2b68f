import FalconSmartAccount.Client.AASigner

/-!
What becomes of the operations that are put into the queues of a process, in any order of events.
-/

namespace AASigner

open JavaScript

/-- The operations that wait in one queue for one sender. -/
def QueueSendUserOp.queued (queueSender : QueueSendUserOp) (sender : String) : List QueuedUserOp :=
  (queueSender.queue.get sender).getD []

/-- The first operation of each sender can be packed. -/
def HeadsPack [Ethers] (queueSender : QueueSendUserOp) : Prop :=
  ∀ sender, ∀ op ∈ (queueSender.queued sender).head?, (Client.packUserOp op.toUserOperation).isSome

/-- Operations wait under their own sender. -/
def Spelled (queueSender : QueueSendUserOp) : Prop :=
  ∀ sender, ∀ op ∈ queueSender.queued sender, op.senderString = sender

/-! ## Putting operations into a queue -/

theorem enqueue_none {now : Int} {userOp : QueuedUserOp} {queueSender : QueueSendUserOp}
    : enqueue now userOp queueSender = none ↔ userOp.senderString ∈ inherited := by
  unfold enqueue
  split <;> simp [*]

theorem enqueue_some {now : Int} {userOp : QueuedUserOp} {before after : QueueSendUserOp}
    (h : enqueue now userOp before = some after)
    : (∀ sender, after.queued sender
          = before.queued sender ++ [userOp].filter (·.senderString = sender))
        ∧ after.lastQueueUpdate = .number now
        ∧ after.queueSize = before.queueSize.add (.number 1) := by
  unfold enqueue at h
  split at h
  . cases h
  . cases h
    refine ⟨?_, rfl, rfl⟩
    intro sender
    unfold QueueSendUserOp.queued
    dsimp only
    rw [Object.get_set]
    by_cases hsender : sender = userOp.senderString
    . rw [if_pos hsender, hsender]
      simp
    . have hne : userOp.senderString ≠ sender := fun heq => hsender heq.symm
      rw [if_neg hsender]
      simp [hne]

/-! ## Taking operations out of a queue -/

def takenOps : Except (List QueuedUserOp) Bundle → List QueuedUserOp
  | .ok ops => ops.userOps
  | .error userOps => userOps

theorem queued_set {queueSender : QueueSendUserOp} (sender other : String) (ops : List QueuedUserOp)
    : QueueSendUserOp.queued { queueSender with queue := queueSender.queue.set sender ops } other
        = if other = sender then ops else queueSender.queued other := by
  unfold QueueSendUserOp.queued
  rw [Object.get_set]
  split <;> rfl

theorem Spelled.set {queueSender : QueueSendUserOp} (h : Spelled queueSender) {sender : String}
    {op : QueuedUserOp} {rest : List QueuedUserOp} (hqueued : queueSender.queued sender = op :: rest)
    (queueSize : Value)
    : Spelled { queueSender with queue := queueSender.queue.set sender rest, queueSize } := by
  intro other op' hmem
  change op' ∈ QueueSendUserOp.queued { queueSender with queue := queueSender.queue.set sender rest } other
    at hmem
  rw [queued_set] at hmem
  split at hmem
  . next hother =>
    rw [hother]
    apply h
    rw [hqueued]
    exact List.mem_cons_of_mem op hmem
  . exact h other op' hmem

section Take

variable [Ethers] {queueSender : QueueSendUserOp}

/-- The cases of one round. -/
theorem takeOps_cons (sender : String) (senders : List String) (ops : Bundle)
    : (queueSender.queued sender = []
          ∧ takeOps (sender :: senders) queueSender ops = takeOps senders queueSender ops)
        ∨ ∃ op rest, queueSender.queued sender = op :: rest
          ∧ ((Client.packUserOp op.toUserOperation = none
              ∧ takeOps (sender :: senders) queueSender ops
                = ({ queueSender with queue := queueSender.queue.set sender rest },
                  .error (ops.userOps ++ [op])))
            ∨ ∃ packed, Client.packUserOp op.toUserOperation = some packed
              ∧ takeOps (sender :: senders) queueSender ops
                = takeOps senders { queueSender with
                    queue := queueSender.queue.set sender rest
                    queueSize := queueSender.queueSize.add (.number (-1)) } (ops ++ [(op, packed)])) := by
  unfold QueueSendUserOp.queued
  cases hget : queueSender.queue.get sender with
  | none =>
    refine .inl ⟨rfl, ?_⟩
    rw [takeOps, hget]
  | some userOps =>
    cases userOps with
    | nil =>
      refine .inl ⟨rfl, ?_⟩
      rw [takeOps, hget]
    | cons op rest =>
      refine .inr ⟨op, rest, rfl, ?_⟩
      cases hpacked : Client.packUserOp op.toUserOperation with
      | none =>
        refine .inl ⟨rfl, ?_⟩
        rw [takeOps, hget]
        dsimp only
        rw [hpacked]
      | some packed =>
        refine .inr ⟨packed, rfl, ?_⟩
        rw [takeOps, hget]
        dsimp only
        rw [hpacked]

/-- What is taken are the first operations of some of the senders. -/
theorem takeOps_taken (senders : List String) (hspelled : Spelled queueSender) (ops : Bundle)
    : ∃ new, takenOps (takeOps senders queueSender ops).2 = ops.userOps ++ new
        ∧ (new.map QueuedUserOp.senderString).Sublist senders
        ∧ ∀ sender, queueSender.queued sender
            = new.filter (·.senderString = sender)
              ++ (takeOps senders queueSender ops).1.queued sender := by
  induction senders generalizing queueSender ops with
  | nil => exact ⟨[], by simp [takeOps, takenOps], by simp, by simp [takeOps]⟩
  | cons sender senders ih =>
    obtain ⟨_, heq⟩ | ⟨op, rest, hqueued, ⟨_, heq⟩ | ⟨packed, _, heq⟩⟩ :=
      takeOps_cons sender senders ops
    . obtain ⟨new, htaken, hsublist, hrest⟩ := ih hspelled ops
      rw [heq]
      exact ⟨new, htaken, hsublist.cons sender, hrest⟩
    . have hop : op.senderString = sender := hspelled sender op (by rw [hqueued]; exact List.mem_cons_self)
      rw [heq]
      refine ⟨[op], rfl, ?_, ?_⟩
      . simp [hop]
      . intro other
        rw [queued_set]
        by_cases hother : other = sender
        . subst hother
          simp [hop, hqueued]
        . have hne : op.senderString ≠ other := by rw [hop]; exact fun h => hother h.symm
          simp [hother, hne]
    . have hop : op.senderString = sender := hspelled sender op (by rw [hqueued]; exact List.mem_cons_self)
      obtain ⟨new, htaken, hsublist, hrest⟩ := ih
        (hspelled.set hqueued (queueSender.queueSize.add (.number (-1)))) (ops ++ [(op, packed)])
      rw [heq]
      refine ⟨op :: new, ?_, ?_, ?_⟩
      . rw [htaken]
        simp [Bundle.userOps]
      . rw [List.map_cons, hop]
        exact hsublist.cons_cons sender
      . intro other
        have hrest' := hrest other
        change QueueSendUserOp.queued { queueSender with queue := queueSender.queue.set sender rest } other
          = _ at hrest'
        rw [queued_set] at hrest'
        by_cases hother : other = sender
        . subst hother
          rw [if_pos rfl] at hrest'
          rw [hqueued, List.filter_cons_of_pos (by simp [hop]), List.cons_append, ← hrest']
        . have hne : op.senderString ≠ other := by rw [hop]; exact fun h => hother h.symm
          rw [if_neg hother] at hrest'
          rw [hrest']
          simp [hne]

theorem takeOps_lastQueueUpdate (senders : List String) (ops : Bundle)
    : (takeOps senders queueSender ops).1.lastQueueUpdate = queueSender.lastQueueUpdate := by
  induction senders generalizing queueSender ops with
  | nil => rfl
  | cons sender senders ih =>
    obtain ⟨_, heq⟩ | ⟨op, rest, _, ⟨_, heq⟩ | ⟨packed, _, heq⟩⟩ := takeOps_cons sender senders ops
    . rw [heq]
      exact ih ops
    . rw [heq]
    . rw [heq]
      exact ih _

theorem takeOps_queueSize (senders : List String) (ops : Bundle) (h : queueSender.queueSize = .nan)
    : (takeOps senders queueSender ops).1.queueSize = .nan := by
  induction senders generalizing queueSender ops with
  | nil => exact h
  | cons sender senders ih =>
    obtain ⟨_, heq⟩ | ⟨op, rest, _, ⟨_, heq⟩ | ⟨packed, _, heq⟩⟩ := takeOps_cons sender senders ops
    . rw [heq]
      exact ih ops h
    . rw [heq]
      exact h
    . rw [heq]
      apply ih
      rw [h]
      rfl

theorem takeOps_empty (senders : List String) (ops : Bundle) (h : ∀ sender, queueSender.queued sender = [])
    : takeOps senders queueSender ops = (queueSender, .ok ops) := by
  induction senders with
  | nil => rfl
  | cons sender senders ih =>
    obtain ⟨_, heq⟩ | ⟨op, rest, hqueued, _⟩ := takeOps_cons sender senders ops
    . rw [heq]
      exact ih
    . rw [h sender] at hqueued
      cases hqueued

/-- Either all first operations are taken, or one of them cannot be packed. -/
theorem takeOps_heads {senders : List String} (hnodup : senders.Nodup) (hspelled : Spelled queueSender)
    (ops : Bundle)
    : ((∃ sender ∈ senders, ∃ op ∈ (queueSender.queued sender).head?,
          Client.packUserOp op.toUserOperation = none)
        ∧ ∃ userOps, (takeOps senders queueSender ops).2 = .error userOps ∧ userOps ≠ [])
      ∨ ((∀ sender ∈ senders, ∀ op ∈ (queueSender.queued sender).head?,
          (Client.packUserOp op.toUserOperation).isSome)
        ∧ ∃ new : Bundle, (takeOps senders queueSender ops).2 = .ok (ops ++ new)
          ∧ new.userOps.map QueuedUserOp.senderString
            = senders.filter fun sender => queueSender.queued sender ≠ []) := by
  induction senders generalizing queueSender ops with
  | nil => exact .inr ⟨by simp, [], by simp [takeOps], by simp [Bundle.userOps]⟩
  | cons sender senders ih =>
    obtain ⟨hnew, hnodup⟩ := List.nodup_cons.mp hnodup
    obtain ⟨hempty, heq⟩ | ⟨op, rest, hqueued, ⟨hpacked, heq⟩ | ⟨packed, hpacked, heq⟩⟩ :=
      takeOps_cons sender senders ops
    . rw [heq]
      obtain ⟨⟨other, hmem, hthrows⟩, herror⟩ | ⟨hpack, new, hok, hsenders⟩ := ih hnodup hspelled ops
      . exact .inl ⟨⟨other, List.mem_cons_of_mem sender hmem, hthrows⟩, herror⟩
      . refine .inr ⟨?_, new, hok, ?_⟩
        . intro other hmem op hop
          rcases List.mem_cons.mp hmem with rfl | hmem
          . rw [hempty] at hop
            cases hop
          . exact hpack other hmem op hop
        . rw [hsenders, List.filter_cons_of_neg (by simp [hempty])]
    -- `packUserOp` throws: the operation has left the queue and is in no bundle
    . rw [heq]
      refine .inl ⟨⟨sender, List.mem_cons_self, op, ?_, hpacked⟩, _, rfl, by simp⟩
      rw [hqueued]
      rfl
    . have hop : op.senderString = sender := hspelled sender op (by rw [hqueued]; exact List.mem_cons_self)
      have hrest (other : String) (hmem : other ∈ senders)
          : QueueSendUserOp.queued { queueSender with
              queue := queueSender.queue.set sender rest
              queueSize := queueSender.queueSize.add (.number (-1)) } other
            = queueSender.queued other := by
        have hne : other ≠ sender := fun h => hnew (h ▸ hmem)
        exact (queued_set sender other rest).trans (if_neg hne)
      rw [heq]
      obtain ⟨⟨other, hmem, op', hop', hthrows⟩, herror⟩ | ⟨hpack, new, hok, hsenders⟩ := ih hnodup
        (hspelled.set hqueued (queueSender.queueSize.add (.number (-1)))) (ops ++ [(op, packed)])
      . rw [hrest other hmem] at hop'
        exact .inl ⟨⟨other, List.mem_cons_of_mem sender hmem, op', hop', hthrows⟩, herror⟩
      . refine .inr ⟨?_, (op, packed) :: new, ?_, ?_⟩
        . intro other hmem op' hop'
          rcases List.mem_cons.mp hmem with rfl | hmem
          . rw [hqueued] at hop'
            cases hop'
            rw [hpacked]
            rfl
          . apply hpack other hmem
            rw [hrest other hmem]
            exact hop'
        . rw [hok, List.append_assoc]
          rfl
        . have hfilter : (senders.filter fun other => queueSender.queued other ≠ [])
              = new.userOps.map QueuedUserOp.senderString := by
            rw [hsenders]
            apply List.filter_congr
            intro other hmem
            rw [hrest other hmem]
          rw [List.filter_cons_of_pos (by simp [hqueued]), hfilter, ← hop]
          rfl

end Take

/-- The operations `new` have been taken from `before`, which leaves `after`. -/
structure Took (before after : QueueSendUserOp) (new : List QueuedUserOp) : Prop where
  senders : (new.map QueuedUserOp.senderString).Nodup
  queued : ∀ sender, before.queued sender = new.filter (·.senderString = sender) ++ after.queued sender
  lastQueueUpdate : after.lastQueueUpdate = before.lastQueueUpdate
  queueSize : before.queueSize = .nan → after.queueSize = .nan

theorem Took.spelled {before after : QueueSendUserOp} {new : List QueuedUserOp}
    (h : Took before after new) (hspelled : Spelled before)
    : Spelled after := by
  intro sender op hmem
  apply hspelled sender op
  rw [h.queued sender]
  exact List.mem_append_right _ hmem

theorem takeOps_took [Ethers] {queueSender : QueueSendUserOp} (hspelled : Spelled queueSender)
    : Took queueSender (takeOps queueSender.queue.keys queueSender []).1
        (takenOps (takeOps queueSender.queue.keys queueSender []).2) := by
  obtain ⟨new, htaken, hsublist, hqueued⟩ := takeOps_taken queueSender.queue.keys hspelled []
  rw [htaken]
  refine ⟨?_, hqueued, takeOps_lastQueueUpdate _ _, takeOps_queueSize _ _⟩
  exact queueSender.queue.keys_nodup.sublist hsublist

theorem mem_keys_of_queued {queueSender : QueueSendUserOp} {sender : String}
    (h : queueSender.queued sender ≠ [])
    : sender ∈ queueSender.queue.keys := by
  apply Object.mem_keys.mpr
  unfold QueueSendUserOp.queued at h
  cases hget : queueSender.queue.get sender with
  | none =>
    rw [hget] at h
    exact absurd rfl h
  | some ops => rfl

/-! ## Pushes -/

section Push

variable {ι : Type} [DecidableEq ι] {p : Process ι} {i : ι} {now : Int}

/-- The push goes on to take operations. -/
def Flushes (p : Process ι) (i : ι) (now : Int) : Prop :=
  p.sending = false ∧ waits now (p.queueSenders i) = false

/-- Some sender of the queue has operations waiting. -/
def Nonempty (queueSender : QueueSendUserOp) : Prop := ∃ sender, queueSender.queued sender ≠ []

theorem push_idle [Ethers] (h : ¬ Flushes p i now) : step p (.push i now) = (p, []) := by
  unfold Flushes at h
  unfold step sendQueuedUserOps
  dsimp only
  cases hsending : p.sending with
  | true => rfl
  | false =>
    rw [hsending] at h
    have hwaits : waits now (p.queueSenders i) = true := by simpa using h
    rw [hwaits]
    cases p
    cases hsending
    rfl

/-- What a push that goes on does. -/
theorem push_flushes [Ethers] (hspelled : Spelled (p.queueSenders i)) (h : Flushes p i now)
    : ∃ after, (¬ HeadsPack (p.queueSenders i) ∧ ∃ lost, lost ≠ []
          ∧ Took (p.queueSenders i) after lost
          ∧ step p (.push i now)
            = ({ p with queueSenders := Function.update p.queueSenders i after }, [.thrown i lost]))
        ∨ (HeadsPack (p.queueSenders i) ∧ ¬ Nonempty (p.queueSenders i)
          ∧ step p (.push i now) = (p, []))
        ∨ (HeadsPack (p.queueSenders i) ∧ Nonempty (p.queueSenders i) ∧ ∃ ops : Bundle, ops ≠ []
          ∧ Took (p.queueSenders i) after ops.userOps
          ∧ step p (.push i now)
            = ({ queueSenders := Function.update p.queueSenders i after
                 sending := true
                 flights := p.flights ++ [⟨i, ops, .getAddress⟩] }, [.bundle i ops])) := by
  obtain ⟨hsending, hwaits⟩ := h
  have htook := takeOps_took hspelled
  have hstep : step p (.push i now) = sendQueuedUserOps i now p := rfl
  rw [hstep]
  unfold sendQueuedUserOps
  rw [hsending, hwaits]
  dsimp only [Bool.false_eq_true]
  rw [if_neg Bool.false_ne_true, if_neg Bool.false_ne_true]
  refine ⟨(takeOps (p.queueSenders i).queue.keys (p.queueSenders i) []).1, ?_⟩
  obtain ⟨⟨sender, _, op, hop, hthrows⟩, lost, herror, hlost⟩ | ⟨hpack, ops, hok, hsenders⟩ :=
    takeOps_heads (p.queueSenders i).queue.keys_nodup hspelled []
  . rw [herror] at htook ⊢
    refine .inl ⟨?_, lost, hlost, htook, ?_⟩
    . intro hall
      have hsome := hall sender op hop
      rw [hthrows] at hsome
      cases hsome
    . cases p
      cases hsending
      rfl
  . have hall : HeadsPack (p.queueSenders i) := by
      intro sender op hop
      apply hpack sender ?_ op hop
      apply mem_keys_of_queued
      intro hempty
      rw [hempty] at hop
      cases hop
    rw [List.nil_append] at hok
    rw [hok] at htook ⊢
    cases ops with
    | nil =>
      have hempty : ∀ sender, (p.queueSenders i).queued sender = [] := by
        intro sender
        by_contra hne
        have hmem : sender ∈ (p.queueSenders i).queue.keys.filter
            fun sender => (p.queueSenders i).queued sender ≠ [] :=
          List.mem_filter.mpr ⟨mem_keys_of_queued hne, by simpa using hne⟩
        rw [← hsenders] at hmem
        cases hmem
      have hnone : ¬ Nonempty (p.queueSenders i) := fun ⟨sender, hne⟩ => hne (hempty sender)
      refine .inr (.inl ⟨hall, hnone, ?_⟩)
      rw [takeOps_empty _ _ hempty, Function.update_eq_self]
      cases p
      cases hsending
      rfl
    | cons op ops =>
      have hqueued := htook.queued op.1.senderString
      have hne : Nonempty (p.queueSenders i) := by
        refine ⟨op.1.senderString, ?_⟩
        rw [hqueued]
        simp [takenOps, Bundle.userOps]
      exact .inr (.inr ⟨hall, hne, op :: ops, List.cons_ne_nil _ _, htook, rfl⟩)

end Push

end AASigner
