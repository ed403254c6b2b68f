import FalconSmartAccount.Evm.Ledger

/-!
Contracts that call each other. A contract is a program over its storage, a call runs the callee's
program in a frame of its own, and a frame that reverts takes back everything but the gas it used.
Messages `M`, returned or reverted data `R` and logs `L` are whatever the contracts exchange.
-/

namespace Evm

/-- `cost n` is the gas that the `n`-th operation of a transaction uses. -/
structure Env where
  timestamp : Nat
  basefee : Nat
  cost : Nat → Nat

structure Frame (M : Type) where
  self : Address
  caller : Address
  value : Nat
  message : M
  env : Env

/-- Without a limit a call gets all the gas that it can get. -/
structure Call (M : Type) where
  target : Address
  value : Nat
  gas : Option Nat
  message : M

/-! ## Programs -/

/-- What a program over the storage `S` can do apart from computing. -/
inductive Op (S M R L : Type) where
  | gasleft
  | codeLength (a : Address)
  | balance (a : Address)
  | sload
  | sstore (f : S → S)
  | emit (l : L)
  | call (c : Call M)
  | delegatecall (target : Address) (message : M)
  /-- Currency that arrives without running code, as by `selfdestruct`. -/
  | push (target : Address) (value : Nat)

def Op.Reply {S M R L : Type} : Op S M R L → Type
  | .gasleft | .codeLength _ | .balance _ => Nat
  | .sload => S
  | .sstore _ | .emit _ | .push _ _ => Unit
  | .call _ | .delegatecall _ _ => Bool × R

inductive Prog (S M R L : Type) (α : Type) where
  | ret (a : α)
  | revert (data : R)
  | op (o : Op S M R L) (k : o.Reply → Prog S M R L α)

namespace Prog

variable {S T M R L α β : Type}

def bind : Prog S M R L α → (α → Prog S M R L β) → Prog S M R L β
  | .ret a, f => f a
  | .revert data, _ => .revert data
  | .op o k, f => .op o fun r => (k r).bind f

instance : Monad (Prog S M R L) where
  pure := .ret
  bind := bind

def gasleft : Prog S M R L Nat := .op .gasleft .ret

def codeLength (a : Address) : Prog S M R L Nat := .op (.codeLength a) .ret

def balance (a : Address) : Prog S M R L Nat := .op (.balance a) .ret

def sload : Prog S M R L S := .op .sload .ret

def sstore (f : S → S) : Prog S M R L Unit := .op (.sstore f) .ret

def emit (l : L) : Prog S M R L Unit := .op (.emit l) .ret

def call (c : Call M) : Prog S M R L (Bool × R) := .op (.call c) .ret

def delegatecall (target : Address) (message : M) : Prog S M R L (Bool × R) :=
  .op (.delegatecall target message) .ret

def push (target : Address) (value : Nat) : Prog S M R L Unit := .op (.push target value) .ret

/-- Go on only if the condition holds. -/
def require (c : Bool) (data : R) : Prog S M R L Unit := if c then .ret () else .revert data

end Prog

/-- An operation on a part of the storage. -/
def Op.zoom {S T M R L : Type} (get : T → S) (set : S → T → T) : Op S M R L → Op T M R L
  | .gasleft => .gasleft
  | .codeLength a => .codeLength a
  | .balance a => .balance a
  | .sload => .sload
  | .sstore f => .sstore fun t => set (f (get t)) t
  | .emit l => .emit l
  | .call c => .call c
  | .delegatecall target message => .delegatecall target message
  | .push target value => .push target value

def Op.zoomReply {S T M R L : Type} (get : T → S) (set : S → T → T)
    : (o : Op S M R L) → (o.zoom get set).Reply → o.Reply
  | .gasleft, r | .codeLength _, r | .balance _, r => r
  | .sload, t => get t
  | .sstore _, r | .emit _, r | .push _ _, r => r
  | .call _, r | .delegatecall _ _, r => r

def Prog.zoom {S T M R L α : Type} (get : T → S) (set : S → T → T)
    : Prog S M R L α → Prog T M R L α
  | .ret a => .ret a
  | .revert data => .revert data
  | .op o k => .op (o.zoom get set) fun r => (k (o.zoomReply get set r)).zoom get set

/-! ## Execution -/

/-- The storage of all contracts and the balances of all addresses. -/
structure World (S : Type) where
  ledger : Ledger
  storage : S

/-- What a frame did, in order. A call that reverted has no effect, but is listed too, as is all that the
code of a `delegatecall` did. -/
inductive Event (S M R L : Type) where
  /-- The frame starts, its value having arrived. -/
  | enter (world : World S)
  | sstore (before after : World S)
  | log (l : L)
  | push (before after : World S)
  | delegate (before after : World S) (body : List (Event S M R L))
  | call (frame : Frame M) (before after : World S) (ok : Bool) (data : R)
      (body : List (Event S M R L))

/-- The world together with the gas that a frame has left and the number of operations so far. -/
structure State (S : Type) where
  world : World S
  gas : Nat
  tick : Nat

def State.charge {S : Type} (env : Env) (s : State S) : Option (State S) :=
  if env.cost s.tick ≤ s.gas then
    some { s with gas := s.gas - env.cost s.tick, tick := s.tick + 1 }
  else
    none

structure Result (S M R L α : Type) where
  outcome : Except R α
  state : State S
  trace : List (Event S M R L)

/-- What a caller gets to know. -/
structure Reply (S M R L : Type) where
  ok : Bool
  data : R
  state : State S
  body : List (Event S M R L)

/-- The contracts of a chain. Which address has code may depend on what has been deployed so far. -/
structure System (S M R L : Type) where
  code : S → Address → Option (Frame M → Prog S M R L R)
  codeLength : S → Address → Nat
  /-- What becomes of a `delegatecall` of a frame, whose calls are made by the first argument. -/
  delegate : (Frame M → State S → Reply S M R L) → Frame M → State S → Address → M → Reply S M R L
  delegate_gas : ∀ invoke, (∀ frame s, (invoke frame s).state.gas ≤ s.gas) →
    ∀ frame s target message, (delegate invoke frame s target message).state.gas ≤ s.gas
  clearTransient : S → S

section

variable {S M R L α : Type} [Inhabited R] (sys : System S M R L)
  (invoke : Frame M → State S → Reply S M R L) (frame : Frame M)

/-- A call leaves the caller at least a 64th of its gas. -/
def callGas (requested : Option Nat) (gas : Nat) : Nat := min (requested.getD gas) (gas - gas / 64)

def perform : (o : Op S M R L) → State S → o.Reply × State S × List (Event S M R L)
  | .gasleft, s => (s.gas, s, [])
  | .codeLength a, s => (sys.codeLength s.world.storage a, s, [])
  | .balance a, s => (s.world.ledger.balance a, s, [])
  | .sload, s => (s.world.storage, s, [])
  | .sstore f, s =>
    let after := { s.world with storage := f s.world.storage }
    ((), { s with world := after }, [.sstore s.world after])
  | .emit l, s => ((), s, [.log l])
  | .call c, s =>
    let callee : Frame M := ⟨c.target, frame.self, c.value, c.message, frame.env⟩
    let gas := callGas c.gas s.gas
    let r := invoke callee { s with gas := gas }
    ((r.ok, r.data), { r.state with gas := s.gas - gas + r.state.gas },
      [.call callee s.world r.state.world r.ok r.data r.body])
  | .delegatecall target message, s =>
    let gas := callGas none s.gas
    let r := sys.delegate invoke frame { s with gas := gas } target message
    ((r.ok, r.data), { r.state with gas := s.gas - gas + r.state.gas },
      [.delegate s.world r.state.world r.body])
  | .push target value, s =>
    match s.world.ledger.transfer frame.self target value with
    | some ledger =>
      let after := { s.world with ledger := ledger }
      ((), { s with world := after }, [.push s.world after])
    | none => ((), s, [])

/-- Run a program in its frame. A frame that runs out of gas reverts without data. -/
def run : Prog S M R L α → State S → Result S M R L α
  | .ret a, s => ⟨.ok a, s, []⟩
  | .revert data, s => ⟨.error data, s, []⟩
  | .op o k, s =>
    match s.charge frame.env with
    | none => ⟨.error default, { s with gas := 0, tick := s.tick + 1 }, []⟩
    | some s =>
      let (reply, s, t) := perform sys invoke frame o s
      let r := run (k reply) s
      { r with trace := t ++ r.trace }

end

section

variable {S M R L : Type} [Inhabited R] (sys : System S M R L)

/-- A call with at most `depth` frames on top of it, as the machine has a limit for them. -/
def invoke : Nat → Frame M → State S → Reply S M R L
  | 0, _, s => ⟨false, default, s, []⟩
  | depth + 1, frame, s =>
    match s.world.ledger.transfer frame.caller frame.self frame.value with
    | none => ⟨false, default, s, []⟩
    | some ledger =>
      let world := { s.world with ledger := ledger }
      match sys.code world.storage frame.self with
      | none => ⟨true, default, { s with world := world }, [.enter world]⟩
      | some program =>
        let r := run sys (invoke depth) frame (program frame) { s with world := world }
        match r.outcome with
        | .ok data => ⟨true, data, r.state, .enter world :: r.trace⟩
        | .error data => ⟨false, data, { r.state with world := s.world }, .enter world :: r.trace⟩

/-- Run the program of another contract as one's own. -/
def runDelegate (invoke : Frame M → State S → Reply S M R L) (frame : Frame M) (p : Prog S M R L R)
    (s : State S) : Reply S M R L :=
  let r := run sys invoke frame p s
  match r.outcome with
  | .ok data => ⟨true, data, r.state, r.trace⟩
  | .error data => ⟨false, data, { r.state with world := s.world }, r.trace⟩

/-- A call made from outside, which starts with clean transient storage. -/
structure Transaction (M : Type) where
  origin : Address
  target : Address
  value : Nat
  gas : Nat
  message : M
  env : Env

def Transaction.frame {M : Type} (tx : Transaction M) : Frame M :=
  ⟨tx.target, tx.origin, tx.value, tx.message, tx.env⟩

def execute (depth : Nat) (tx : Transaction M) (w : World S) : Reply S M R L :=
  invoke sys depth tx.frame ⟨{ w with storage := sys.clearTransient w.storage }, tx.gas, 0⟩

end

end Evm
