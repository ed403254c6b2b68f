import FalconSmartAccount.Evm.Word

/-!
Balances of native currency. The supply fits a word, which is why a balance, a value and a sum of
some of them do as well.
-/

namespace Evm

instance fintypeBitVec : Fintype (BitVec w) :=
  Fintype.ofEquiv (Fin (2 ^ w)) ⟨BitVec.ofFin, BitVec.toFin, fun _ => rfl, fun _ => rfl⟩

/-- Replacing one summand. -/
theorem sum_update [Fintype α] [DecidableEq α] (f : α → Nat) (a : α) (v : Nat)
    : ∑ b, Function.update f a v b + f a = ∑ b, f b + v := by
  rw [Finset.sum_update_of_mem (Finset.mem_univ a), ← Finset.sum_sdiff (Finset.subset_univ {a}),
    Finset.sum_singleton]
  omega

structure Ledger where
  balance : Address → Nat
  bounded : ∑ a, balance a < 2 ^ 256

namespace Ledger

theorem balance_lt (l : Ledger) (a : Address) : l.balance a < 2 ^ 256 :=
  Nat.lt_of_le_of_lt (Finset.single_le_sum (fun _ _ => Nat.zero_le _) (Finset.mem_univ a)) l.bounded

def move (balance : Address → Nat) (src dst : Address) (v : Nat) : Address → Nat :=
  let withdrawn := Function.update balance src (balance src - v)
  Function.update withdrawn dst (withdrawn dst + v)

theorem sum_move {balance : Address → Nat} {src dst : Address} {v : Nat} (h : v ≤ balance src)
    : ∑ a, move balance src dst v a = ∑ a, balance a := by
  have h1 := sum_update balance src (balance src - v)
  have h2 := sum_update (Function.update balance src (balance src - v)) dst
    (Function.update balance src (balance src - v) dst + v)
  unfold move
  omega

/-- `none` if the sender's balance is too low. -/
def transfer (l : Ledger) (src dst : Address) (v : Nat) : Option Ledger :=
  if h : v ≤ l.balance src then
    some ⟨move l.balance src dst v, by rw [sum_move h]; exact l.bounded⟩
  else
    none

section

variable {l l' : Ledger} {src dst : Address} {v : Nat} (h : l.transfer src dst v = some l')

include h

theorem transfer_le : v ≤ l.balance src := by
  unfold transfer at h
  split at h
  . assumption
  . cases h

theorem transfer_balance (a : Address)
    : l'.balance a + (if a = src then v else 0) = l.balance a + (if a = dst then v else 0) := by
  have hle := transfer_le h
  unfold transfer at h
  rw [dif_pos hle] at h
  cases h
  simp only [move, Function.update_apply]
  split <;> split <;> simp_all

end

end Ledger

end Evm
