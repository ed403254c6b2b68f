import FalconSmartAccount.Evm.Word

/-!
One layer of an in-place transform: `m` blocks of `2 * t` entries, in which a butterfly `g i` of
block `i` replaces the entries at `j` and `j + t`. Nothing here depends on what the butterfly
computes.
-/

namespace Ntt

/-- The layer as a whole: both outputs of a butterfly are computed from the old entries. -/
def layer (g : Nat → α → α → α × α) (t : Nat) (x : Nat → α) : Nat → α := fun k =>
  if k % (2 * t) < t then
    (g (k / (2 * t)) (x k) (x (k + t))).1
  else
    (g (k / (2 * t)) (x (k - t)) (x k)).2

/-- One butterfly of the layer, in place. -/
def pairStep (g : α → α → α × α) (t j : Nat) (x : Nat → α) : Nat → α := fun k =>
  if k = j then
    (g (x j) (x (j + t))).1
  else if k = j + t then
    (g (x j) (x (j + t))).2
  else
    x k

/-- The two inner loops of the transforms: blocks from left to right, butterflies in a block too. -/
def layerLoop (g : Nat → α → α → α × α) (m t : Nat) (x : Nat → α) : Nat → α :=
  Yul.forLoop 0 m
    (fun i x => Yul.forLoop (2 * (i * t)) (2 * (i * t) + t) (fun j x => pairStep (g i) t j x) x) x

/-- After the butterflies `j1, .., j - 1` of a block exactly the entries they own have changed. -/
def BlockDone (g : α → α → α × α) (t j1 : Nat) (x : Nat → α) (j : Nat) (y : Nat → α) : Prop :=
  ∀ k, y k =
    if j1 ≤ k ∧ k < j then
      (g (x k) (x (k + t))).1
    else if j1 + t ≤ k ∧ k < j + t then
      (g (x (k - t)) (x k)).2
    else
      x k

theorem BlockDone.step {g : α → α → α × α} {t j1 j : Nat} {x y : Nat → α}
    (h : BlockDone g t j1 x j y) (hlo : j1 ≤ j) (hhi : j < j1 + t)
    : BlockDone g t j1 x (j + 1) (pairStep g t j y) := by
  have hj : y j = x j := by
    rw [h j]
    split
    . omega
    . split
      . omega
      . rfl
  have hjt : y (j + t) = x (j + t) := by
    rw [h (j + t)]
    split
    . omega
    . split
      . omega
      . rfl
  intro k
  unfold pairStep
  rw [hj, hjt]
  by_cases hk : k = j
  . have : j1 ≤ k ∧ k < j + 1 := by omega
    simp only [if_pos hk, if_pos this]
    rw [hk]
  . by_cases hkt : k = j + t
    . have h1 : ¬(j1 ≤ k ∧ k < j + 1) := by omega
      have h2 : j1 + t ≤ k ∧ k < j + 1 + t := by omega
      simp only [if_neg hk, if_pos hkt, if_neg h1, if_pos h2]
      rw [hkt, Nat.add_sub_cancel]
    . have h1 : (j1 ≤ k ∧ k < j + 1) ↔ (j1 ≤ k ∧ k < j) := by omega
      have h2 : (j1 + t ≤ k ∧ k < j + 1 + t) ↔ (j1 + t ≤ k ∧ k < j + t) := by omega
      simp only [if_neg hk, if_neg hkt, h1, h2]
      exact h k

theorem blockLoop_done (g : α → α → α × α) (t j1 : Nat) (x : Nat → α)
    : BlockDone g t j1 x (j1 + t) (Yul.forLoop j1 (j1 + t) (fun j x => pairStep g t j x) x) := by
  apply Yul.forLoop_induction (Nat.le_add_right j1 t) (BlockDone g t j1 x)
  . intro k
    have h1 : ¬(j1 ≤ k ∧ k < j1) := by omega
    have h2 : ¬(j1 + t ≤ k ∧ k < j1 + t) := by omega
    rw [if_neg h1, if_neg h2]
  . intro j y hlo hhi hy
    exact hy.step hlo hhi

theorem block_index {t k i : Nat} (hlo : 2 * t * i ≤ k) (hhi : k < 2 * t * (i + 1))
    : k / (2 * t) = i ∧ k % (2 * t) = k - 2 * t * i := by
  have hdiv : k / (2 * t) = i := by
    apply Nat.div_eq_of_lt_le
    . rwa [Nat.mul_comm]
    . rwa [Nat.mul_comm]
  have := Nat.div_add_mod k (2 * t)
  rw [hdiv] at this
  omega

/-- After the blocks `0, .., i - 1` the layer is in place below `2 * t * i` and nothing else moved. -/
def LayerDone (g : Nat → α → α → α × α) (t : Nat) (x : Nat → α) (i : Nat) (y : Nat → α) : Prop :=
  ∀ k, y k = if k < 2 * t * i then layer g t x k else x k

theorem LayerDone.step {g : Nat → α → α → α × α} {t i : Nat} {x y : Nat → α}
    (h : LayerDone g t x i y)
    : LayerDone g t x (i + 1)
        (Yul.forLoop (2 * (i * t)) (2 * (i * t) + t) (fun j x => pairStep (g i) t j x) y) := by
  have hb : 2 * (i * t) = 2 * t * i := by
    rw [Nat.mul_comm i t, Nat.mul_assoc]
  have hs : 2 * t * (i + 1) = 2 * t * i + 2 * t := by
    rw [Nat.mul_add, Nat.mul_one]
  have hdone := blockLoop_done (g i) t (2 * t * i) y
  rw [hb]
  intro k
  rw [hdone k]
  by_cases h1 : 2 * t * i ≤ k ∧ k < 2 * t * i + t
  . have hk := block_index h1.1 (by omega)
    rw [if_pos h1, if_pos (by omega), h k, h (k + t), if_neg (by omega), if_neg (by omega)]
    unfold layer
    rw [hk.1, hk.2, if_pos (by omega)]
  . rw [if_neg h1]
    by_cases h2 : 2 * t * i + t ≤ k ∧ k < 2 * t * i + t + t
    . have hk := block_index (i := i) (t := t) (k := k) (by omega) (by omega)
      rw [if_pos h2, if_pos (by omega), h k, h (k - t), if_neg (by omega), if_neg (by omega)]
      unfold layer
      rw [hk.1, hk.2, if_neg (by omega)]
    . rw [if_neg h2, h k]
      by_cases h3 : k < 2 * t * i
      . rw [if_pos h3, if_pos (by omega)]
      . rw [if_neg h3, if_neg (by omega)]

/-- The loops compute the layer. -/
theorem layerLoop_apply (g : Nat → α → α → α × α) (m t : Nat) (x : Nat → α) (k : Nat)
    : layerLoop g m t x k = if k < 2 * t * m then layer g t x k else x k := by
  have : LayerDone g t x m (layerLoop g m t x) := by
    apply Yul.forLoop_induction (Nat.zero_le m) (LayerDone g t x)
    . intro k
      simp
    . intro i y _ _ hy
      exact hy.step
  exact this k

/-- Entries of a block stay in their block, so a layer of `m` blocks only reads what it covers. -/
theorem layer_congr {g : Nat → α → α → α × α} {m t : Nat} {x y : Nat → α}
    (h : ∀ k < 2 * t * m, x k = y k)
    : ∀ k < 2 * t * m, layer g t x k = layer g t y k := by
  intro k hk
  have ht : 0 < 2 * t := Nat.pos_of_ne_zero (fun h0 => by simp [h0] at hk)
  have hdiv : k / (2 * t) < m := Nat.div_lt_of_lt_mul hk
  have hmod := Nat.div_add_mod k (2 * t)
  have hle : 2 * t * (k / (2 * t)) + 2 * t ≤ 2 * t * m := by
    rw [← Nat.mul_succ]
    exact Nat.mul_le_mul_left _ hdiv
  unfold layer
  split
  . rw [h k hk, h (k + t) (by omega)]
  . rw [h k hk, h (k - t) (by omega)]

end Ntt
