import FalconSmartAccount.Client.JavaScript
import FalconSmartAccount.EntryPoint.UserOpHash

/-!
The queue of user operations of the client: `queueUserOpSender` and `sendQueuedUserOps`. Code runs
without interruption up to the next `await`, and what happens in between is a sequence of events.
-/

namespace AASigner

open JavaScript

/-- A user operation with the string that it spells its sender with. -/
structure QueuedUserOp extends Client.UserOperation where
  senderString : String

structure QueueSendUserOp where
  lastQueueUpdate : Value
  queueSize : Value
  queue : Object (List QueuedUserOp)

/-- The returned function before it is called. Only `queue` has been assigned to. -/
def queueUserOpSender : QueueSendUserOp where
  lastQueueUpdate := .undefined
  queueSize := .undefined
  queue := .empty

/-- A call of the returned function, which throws if `queue[userOp.sender]` is there, but no array. -/
def enqueue (now : Int) (userOp : QueuedUserOp) (ret : QueueSendUserOp) : Option QueueSendUserOp :=
  if userOp.senderString ∈ inherited then
    none
  else
    let ops := (ret.queue.get userOp.senderString).getD []
    some {
      queue := ret.queue.set userOp.senderString (ops ++ [userOp])
      lastQueueUpdate := .number now
      queueSize := ret.queueSize.add (.number 1) }

def IDLE_TIME : Int := 5000

def BUNDLE_SIZE_IMMEDIATE : Int := 3

/-- The packed operations of a bundle, each with the operation that it comes from. -/
abbrev Bundle := List (QueuedUserOp × Client.PackedUserOperation)

def Bundle.userOps (ops : Bundle) : List QueuedUserOp := ops.map Prod.fst

/-- Take the first operation of every sender. If one cannot be packed, this throws with all operations
taken so far gone from the queue. -/
def takeOps [Ethers] : List String → QueueSendUserOp → Bundle → QueueSendUserOp × Except (List QueuedUserOp) Bundle
  | [], queueSender, ops => (queueSender, .ok ops)
  | sender :: senders, queueSender, ops =>
    match queueSender.queue.get sender with
    | some (op :: rest) =>
      let queueSender := { queueSender with queue := queueSender.queue.set sender rest }
      match Client.packUserOp op.toUserOperation with
      | some packed =>
        let queueSize := queueSender.queueSize.add (.number (-1))
        takeOps senders { queueSender with queueSize } (ops ++ [(op, packed)])
      | none => (queueSender, .error (ops.userOps ++ [op]))
    | _ => takeOps senders queueSender ops

/-- What the rest of a call of `sendQueuedUserOps` waits for. -/
inductive Await where
  | getAddress
  | handleOps
  | wait
  deriving DecidableEq

/-- A call of `sendQueuedUserOps` that has taken its operations and not ended. -/
structure Flight (ι : Type) where
  queueSender : ι
  ops : Bundle
  awaiting : Await

/-- A process with a queue for each `ι`. The flag `sending` belongs to the module. -/
structure Process (ι : Type) where
  queueSenders : ι → QueueSendUserOp
  sending : Bool
  flights : List (Flight ι)

inductive Event (ι : Type) where
  | enqueue (i : ι) (now : Int) (userOp : QueuedUserOp)
  | push (i : ι) (now : Int)
  /-- What the `k`-th call waits for has succeeded. -/
  | resolve (k : Nat)
  | reject (k : Nat)

/-- What becomes of operations that have left the queue. -/
inductive Output (ι : Type) where
  | bundle (i : ι) (ops : Bundle)
  | thrown (i : ι) (userOps : List QueuedUserOp)
  | submitted (i : ι) (ops : Bundle)
  | rejected (i : ι) (ops : Bundle)

/-- The queue is too small or too young. -/
def waits (now : Int) (queueSender : QueueSendUserOp) : Bool :=
  queueSender.queueSize.lt (.number BUNDLE_SIZE_IMMEDIATE)
    || Value.lt (.number now) (queueSender.lastQueueUpdate.add (.number IDLE_TIME))

section

variable {ι : Type} [DecidableEq ι]

/-- `sendQueuedUserOps` up to its first `await`. -/
def sendQueuedUserOps [Ethers] (i : ι) (now : Int) (p : Process ι) : Process ι × List (Output ι) :=
  if p.sending then
    (p, [])
  else if waits now (p.queueSenders i) then
    -- here and below, `sending` was set and is cleared on the way out
    ({ p with sending := false }, [])
  else
    let taken := takeOps (p.queueSenders i).queue.keys (p.queueSenders i) []
    let queueSenders := Function.update p.queueSenders i taken.1
    match taken.2 with
    | .error userOps => ({ p with queueSenders, sending := false }, [.thrown i userOps])
    | .ok [] => ({ p with queueSenders, sending := false }, [])
    | .ok (op :: ops) =>
      ({ queueSenders, sending := true, flights := p.flights ++ [⟨i, op :: ops, .getAddress⟩] },
        [.bundle i (op :: ops)])

/-- The rest of a call, from one `await` to the next. -/
def continueCall (k : Nat) (p : Process ι) (flight : Flight ι) : Process ι × List (Output ι) :=
  match flight.awaiting with
  | .getAddress => ({ p with flights := p.flights.set k { flight with awaiting := .handleOps } }, [])
  | .handleOps => ({ p with flights := p.flights.set k { flight with awaiting := .wait } }, [])
  | .wait =>
    ({ p with flights := p.flights.eraseIdx k, sending := false },
      [.submitted flight.queueSender flight.ops])

def step [Ethers] (p : Process ι) : Event ι → Process ι × List (Output ι)
  | .enqueue i now userOp =>
    match enqueue now userOp (p.queueSenders i) with
    | some queueSender => ({ p with queueSenders := Function.update p.queueSenders i queueSender }, [])
    | none => (p, [])
  | .push i now => sendQueuedUserOps i now p
  | .resolve k =>
    match p.flights[k]? with
    | some flight => continueCall k p flight
    | none => (p, [])
  | .reject k =>
    match p.flights[k]? with
    | some flight =>
      ({ p with flights := p.flights.eraseIdx k, sending := false },
        [.rejected flight.queueSender flight.ops])
    | none => (p, [])

def start : Process ι where
  queueSenders _ := queueUserOpSender
  sending := false
  flights := []

/-- The process after the events, and what it has put out. -/
def run [Ethers] (events : List (Event ι)) : Process ι × List (Output ι) :=
  events.foldl (fun r e => ((step r.1 e).1, r.2 ++ (step r.1 e).2)) (start, [])

theorem run_append [Ethers] (events : List (Event ι)) (e : Event ι)
    : run (events ++ [e])
        = ((step (run events).1 e).1, (run events).2 ++ (step (run events).1 e).2) := by
  unfold run
  rw [List.foldl_append]
  rfl

end

end AASigner
