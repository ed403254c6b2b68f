import Mathlib

/-!
This module contains the 256 bit word operations of the EVM, as Yul and Solidity spell them, and
the two loop shapes that the contracts use.
-/

/-- `bytes` values, most significant byte first. -/
abbrev Bytes := List UInt8

/-- 20 byte addresses. -/
abbrev Address := BitVec 160

/-- `uint256` and `bytes32` values that are stored or sent as one word. -/
abbrev Word := BitVec 256

namespace Yul

def wordSize : Nat := 2 ^ 256

def add (a b : Nat) : Nat := (a + b) % wordSize

def sub (a b : Nat) : Nat := (a + (wordSize - b % wordSize)) % wordSize

def mul (a b : Nat) : Nat := (a * b) % wordSize

/-- Yul passes the shift distance first. -/
def shl (s a : Nat) : Nat := (a <<< s) % wordSize

def shr (s a : Nat) : Nat := a >>> s

def addmod (a b m : Nat) : Nat := if m = 0 then 0 else (a + b) % m

def mulmod (a b m : Nat) : Nat := if m = 0 then 0 else (a * b) % m

theorem add_eq {a b : Nat} (h : a + b < wordSize) : add a b = a + b :=
  Nat.mod_eq_of_lt h

theorem mul_eq {a b : Nat} (h : a * b < wordSize) : mul a b = a * b :=
  Nat.mod_eq_of_lt h

theorem sub_eq {a b : Nat} (hb : b ≤ a) (ha : a < wordSize) : sub a b = a - b := by
  unfold sub
  rw [Nat.mod_eq_of_lt (Nat.lt_of_le_of_lt hb ha)]
  have : a + (wordSize - b) = (a - b) + wordSize := by omega
  rw [this, Nat.add_mod_right, Nat.mod_eq_of_lt]
  omega

theorem shl_one_eq {a : Nat} (h : 2 * a < wordSize) : shl 1 a = 2 * a := by
  unfold shl
  rw [Nat.shiftLeft_eq, Nat.mod_eq_of_lt] <;> omega

theorem shr_one_eq (a : Nat) : shr 1 a = a / 2 := by
  simp [shr, Nat.shiftRight_eq_div_pow]

theorem addmod_lt {a b m : Nat} (h : 0 < m) : addmod a b m < m := by
  unfold addmod
  split
  . assumption
  . exact Nat.mod_lt _ h

theorem mulmod_lt {a b m : Nat} (h : 0 < m) : mulmod a b m < m := by
  unfold mulmod
  split
  . assumption
  . exact Nat.mod_lt _ h

section Cast

variable {q : Nat} [NeZero q]

@[simp]
theorem cast_addmod (a b : Nat) : (addmod a b q : ZMod q) = a + b := by
  simp [addmod, NeZero.ne q]

@[simp]
theorem cast_mulmod (a b : Nat) : (mulmod a b q : ZMod q) = a * b := by
  simp [mulmod, NeZero.ne q]

end Cast

/-- `addmod(U, sub(q, V), q)` is the difference of `U` and `V` as long as `V` is at most `q`. -/
theorem cast_sub_modulus {q v : Nat} (hv : v ≤ q) (hq : q < wordSize)
    : (sub q v : ZMod q) = -v := by
  rw [sub_eq hv hq, Nat.cast_sub hv]
  simp

/-- `for { let i := lo } gt(hi, i) { i := add(i, 1) } { .. }`, and the Solidity loop of that shape. -/
def forLoop (lo hi : Nat) (body : Nat → σ → σ) (s : σ) : σ :=
  (List.range' lo (hi - lo)).foldl (fun s i => body i s) s

theorem forLoop_of_ge {lo hi : Nat} (h : hi ≤ lo) (body : Nat → σ → σ) (s : σ)
    : forLoop lo hi body s = s := by
  have : hi - lo = 0 := by omega
  simp [forLoop, this]

theorem forLoop_succ {lo hi : Nat} (h : lo ≤ hi) (body : Nat → σ → σ) (s : σ)
    : forLoop lo (hi + 1) body s = body hi (forLoop lo hi body s) := by
  have : hi + 1 - lo = (hi - lo) + 1 := by omega
  unfold forLoop
  rw [this, List.range'_concat, List.foldl_append]
  simp [h]

/-- A loop keeps an invariant that each round carries from one index to the next. -/
theorem forLoop_induction {lo hi : Nat} (hle : lo ≤ hi) {body : Nat → σ → σ} (P : Nat → σ → Prop)
    {s : σ} (hinit : P lo s)
    (hstep : ∀ i s, lo ≤ i → i < hi → P i s → P (i + 1) (body i s))
    : P hi (forLoop lo hi body s) := by
  induction hi, hle using Nat.le_induction with
  | base => rwa [forLoop_of_ge (Nat.le_refl lo)]
  | succ hi hle ih =>
    rw [forLoop_succ hle]
    apply hstep _ _ hle (Nat.lt_succ_self hi)
    exact ih (fun i s h1 h2 => hstep i s h1 (Nat.lt_succ_of_lt h2))

/-- A loop on `σ` simulates one on `τ` through `φ` as long as the invariant `I` holds. -/
theorem forLoop_hom {lo hi : Nat} (hle : lo ≤ hi) (φ : σ → τ) (I : Nat → σ → Prop)
    {f : Nat → σ → σ} {g : Nat → τ → τ} {s : σ} (hinit : I lo s)
    (hstep : ∀ i s, lo ≤ i → i < hi → I i s → φ (f i s) = g i (φ s) ∧ I (i + 1) (f i s))
    : φ (forLoop lo hi f s) = forLoop lo hi g (φ s) ∧ I hi (forLoop lo hi f s) := by
  induction hi, hle using Nat.le_induction with
  | base => exact ⟨by simp only [forLoop_of_ge (Nat.le_refl lo)], by rwa [forLoop_of_ge (Nat.le_refl lo)]⟩
  | succ hi hle ih =>
    obtain ⟨hφ, hI⟩ := ih (fun i s h1 h2 => hstep i s h1 (Nat.lt_succ_of_lt h2))
    obtain ⟨hφ', hI'⟩ := hstep hi _ hle (Nat.lt_succ_self hi) hI
    rw [forLoop_succ hle, forLoop_succ hle, hφ', hφ]
    exact ⟨rfl, hI'⟩

end Yul
