import FalconSmartAccount.Ntt.Layer

/-!
The number theoretic transform of length `2 ^ K` over a commutative ring, with its roots taken from
a table in bit reversed order. The forward transform evaluates at the `2 ^ K` roots of
`X ^ (2 ^ K) + 1` that the table spans, and multiplication of the values is multiplication modulo
that polynomial.
-/

namespace Ntt

open Polynomial

variable {R : Type} [CommRing R]

def fwButterfly (S : Nat → R) (m i : Nat) (u v : R) : R × R :=
  (u + v * S (m + i), u - v * S (m + i))

def invButterfly (S : Nat → R) (h i : Nat) (u v : R) : R × R :=
  (u + v, (u - v) * S (h + i))

/-- The first `i` layers of the forward transform: `1, 2, 4, ..` blocks. -/
def fw (S : Nat → R) (K : Nat) : Nat → (Nat → R) → Nat → R
  | 0, x => x
  | i + 1, x => layer (fwButterfly S (2 ^ i)) (2 ^ (K - 1 - i)) (fw S K i x)

/-- The first `i` layers of the inverse transform, without the final division by the length. -/
def inv (S : Nat → R) (K : Nat) : Nat → (Nat → R) → Nat → R
  | 0, x => x
  | i + 1, x => layer (invButterfly S (2 ^ (K - 1 - i))) (2 ^ i) (inv S K i x)

theorem two_pow_split {K i : Nat} (h : i < K) : 2 * 2 ^ (K - 1 - i) * 2 ^ i = 2 ^ K := by
  rw [Nat.mul_assoc, ← Nat.pow_add, ← Nat.pow_succ']
  congr 1
  omega

theorem two_pow_split' {K i : Nat} (h : i < K) : 2 * 2 ^ i * 2 ^ (K - 1 - i) = 2 ^ K := by
  rw [Nat.mul_assoc, ← Nat.pow_add, ← Nat.pow_succ']
  congr 1
  omega

theorem fw_congr {S : Nat → R} {K : Nat} {x y : Nat → R} (h : ∀ k < 2 ^ K, x k = y k) (i : Nat)
    (hi : i ≤ K)
    : ∀ k < 2 ^ K, fw S K i x k = fw S K i y k := by
  induction i with
  | zero => exact h
  | succ i ih =>
    have := layer_congr (g := fwButterfly S (2 ^ i)) (m := 2 ^ i) (t := 2 ^ (K - 1 - i))
      (x := fw S K i x) (y := fw S K i y)
    rw [two_pow_split hi] at this
    exact this (ih (by omega))

theorem inv_congr {S : Nat → R} {K : Nat} {x y : Nat → R} (h : ∀ k < 2 ^ K, x k = y k) (i : Nat)
    (hi : i ≤ K)
    : ∀ k < 2 ^ K, inv S K i x k = inv S K i y k := by
  induction i with
  | zero => exact h
  | succ i ih =>
    have := layer_congr (g := invButterfly S (2 ^ (K - 1 - i))) (m := 2 ^ (K - 1 - i)) (t := 2 ^ i)
      (x := inv S K i x) (y := inv S K i y)
    rw [two_pow_split' hi] at this
    exact this (ih (by omega))

theorem layer_inv_smul (S : Nat → R) (h t : Nat) (c : R) (x : Nat → R) (k : Nat)
    : layer (invButterfly S h) t (fun k => c * x k) k = c * layer (invButterfly S h) t x k := by
  unfold layer invButterfly
  split <;> ring

theorem layer_fw_smul (S : Nat → R) (m t : Nat) (c : R) (x : Nat → R) (k : Nat)
    : layer (fwButterfly S m) t (fun k => c * x k) k = c * layer (fwButterfly S m) t x k := by
  unfold layer fwButterfly
  split <;> ring

theorem fw_smul (S : Nat → R) (K i : Nat) (c : R) (x : Nat → R)
    : fw S K i (fun k => c * x k) = fun k => c * fw S K i x k := by
  induction i with
  | zero => rfl
  | succ i ih =>
    funext k
    rw [fw, ih]
    apply layer_fw_smul

/-! ## The transforms undo each other -/

section Inverse

variable {S S' : Nat → R} {K : Nat}

theorem layer_inv_fw {m t k : Nat} (ht : 0 < t)
    (hS : S (m + k / (2 * t)) * S' (m + k / (2 * t)) = 1) (x : Nat → R)
    : layer (invButterfly S' m) t (layer (fwButterfly S m) t x) k = 2 * x k := by
  have hmod : k % (2 * t) < 2 * t := Nat.mod_lt _ (by omega)
  have hdm := Nat.div_add_mod k (2 * t)
  by_cases hk : k % (2 * t) < t
  . have hkt := block_index (t := t) (k := k + t) (i := k / (2 * t)) (by omega)
      (by rw [Nat.mul_add]; omega)
    unfold layer invButterfly fwButterfly
    rw [if_pos hk, if_pos hk, hkt.1, hkt.2, if_neg (by omega), Nat.add_sub_cancel]
    ring
  . have hkt := block_index (t := t) (k := k - t) (i := k / (2 * t)) (by omega)
      (by rw [Nat.mul_add]; omega)
    unfold layer invButterfly fwButterfly
    rw [if_neg hk, if_neg hk, hkt.1, hkt.2, if_pos (by omega), Nat.sub_add_cancel (by omega)]
    calc _ = 2 * x k * (S (m + k / (2 * t)) * S' (m + k / (2 * t))) := by ring
      _ = _ := by rw [hS, mul_one]

/-- `j` inverse layers take back the last `j` forward layers, at a factor of two each. -/
theorem inv_fw (hS : ∀ k, 0 < k → k < 2 ^ K → S k * S' k = 1) (x : Nat → R) (j : Nat) (hj : j ≤ K)
    : ∀ k < 2 ^ K, inv S' K j (fw S K K x) k = 2 ^ j * fw S K (K - j) x k := by
  induction j with
  | zero => simp [inv]
  | succ j ih =>
    intro k hk
    have hsplit := two_pow_split' (K := K) (i := j) hj
    have hlt : k / (2 * 2 ^ j) < 2 ^ (K - 1 - j) := Nat.div_lt_of_lt_mul (by rwa [hsplit])
    have hfw : fw S K (K - j) x
        = layer (fwButterfly S (2 ^ (K - 1 - j))) (2 ^ j) (fw S K (K - (j + 1)) x) := by
      have h1 : K - j = (K - (j + 1)) + 1 := by omega
      have h2 : K - (j + 1) = K - 1 - j := by omega
      have h3 : K - 1 - (K - 1 - j) = j := by omega
      rw [h1, fw, h2, h3]
    have hidx : 2 ^ (K - 1 - j) + k / (2 * 2 ^ j) < 2 ^ K := by
      have : 2 ^ K = 2 ^ (K - 1 - j) * 2 * 2 ^ j := by rw [← hsplit]; ring
      nlinarith [Nat.one_le_two_pow (n := j)]
    have hcongr := layer_congr (g := invButterfly S' (2 ^ (K - 1 - j))) (m := 2 ^ (K - 1 - j))
      (t := 2 ^ j) (x := inv S' K j (fw S K K x)) (y := fun k => 2 ^ j * fw S K (K - j) x k)
      (by rw [hsplit]; exact ih (by omega)) k (by rwa [hsplit])
    rw [inv, hcongr, layer_inv_smul, hfw, layer_inv_fw (Nat.two_pow_pos j), pow_succ]
    . ring
    . exact hS _ (Nat.add_pos_left (Nat.two_pow_pos _) _) hidx

theorem layer_fw_inv {m t k : Nat} (ht : 0 < t)
    (hS : S (m + k / (2 * t)) * S' (m + k / (2 * t)) = 1) (x : Nat → R)
    : layer (fwButterfly S m) t (layer (invButterfly S' m) t x) k = 2 * x k := by
  have hmod : k % (2 * t) < 2 * t := Nat.mod_lt _ (by omega)
  have hdm := Nat.div_add_mod k (2 * t)
  by_cases hk : k % (2 * t) < t
  . have hkt := block_index (t := t) (k := k + t) (i := k / (2 * t)) (by omega)
      (by rw [Nat.mul_add]; omega)
    unfold layer invButterfly fwButterfly
    rw [if_pos hk, if_pos hk, hkt.1, hkt.2, if_neg (by omega), Nat.add_sub_cancel]
    calc _ = x k + x (k + t) + (x k - x (k + t)) * (S (m + k / (2 * t)) * S' (m + k / (2 * t))) := by ring
      _ = _ := by rw [hS]; ring
  . have hkt := block_index (t := t) (k := k - t) (i := k / (2 * t)) (by omega)
      (by rw [Nat.mul_add]; omega)
    unfold layer invButterfly fwButterfly
    rw [if_neg hk, if_neg hk, hkt.1, hkt.2, if_pos (by omega), Nat.sub_add_cancel (by omega)]
    calc _ = x (k - t) + x k - (x (k - t) - x k) * (S (m + k / (2 * t)) * S' (m + k / (2 * t))) := by ring
      _ = _ := by rw [hS]; ring

/-- `i` forward layers take back the last `i` inverse layers, at a factor of two each. -/
theorem fw_inv (hS : ∀ k, 0 < k → k < 2 ^ K → S k * S' k = 1) (x : Nat → R) (i : Nat) (hi : i ≤ K)
    : ∀ k < 2 ^ K, fw S K i (inv S' K K x) k = 2 ^ i * inv S' K (K - i) x k := by
  induction i with
  | zero => simp [fw]
  | succ i ih =>
    intro k hk
    have hsplit := two_pow_split (K := K) (i := i) hi
    have hlt : k / (2 * 2 ^ (K - 1 - i)) < 2 ^ i := Nat.div_lt_of_lt_mul (by rwa [hsplit])
    have hinv : inv S' K (K - i) x
        = layer (invButterfly S' (2 ^ i)) (2 ^ (K - 1 - i)) (inv S' K (K - (i + 1)) x) := by
      have h1 : K - i = (K - (i + 1)) + 1 := by omega
      have h2 : K - (i + 1) = K - 1 - i := by omega
      have h3 : K - 1 - (K - 1 - i) = i := by omega
      rw [h1, inv, h2, h3]
    have hidx : 2 ^ i + k / (2 * 2 ^ (K - 1 - i)) < 2 ^ K := by
      have : 2 ^ K = 2 ^ i * 2 * 2 ^ (K - 1 - i) := by rw [← hsplit]; ring
      nlinarith [Nat.one_le_two_pow (n := K - 1 - i)]
    have hcongr := layer_congr (g := fwButterfly S (2 ^ i)) (m := 2 ^ i) (t := 2 ^ (K - 1 - i))
      (x := fw S K i (inv S' K K x)) (y := fun k => 2 ^ i * inv S' K (K - i) x k)
      (by rw [hsplit]; exact ih (by omega)) k (by rwa [hsplit])
    rw [fw, hcongr, layer_fw_smul, hinv, layer_fw_inv (Nat.two_pow_pos _), pow_succ]
    . ring
    . exact hS _ (Nat.add_pos_left (Nat.two_pow_pos _) _) hidx

end Inverse

/-! ## The forward transform evaluates -/

/-- The table lists the roots of `X ^ (2 ^ K) + 1` in bit reversed order. -/
structure RootTree (K : Nat) (S : Nat → R) : Prop where
  root : 0 < K → S 1 ^ 2 = -1
  even : ∀ k, 0 < k → 2 * k < 2 ^ K → S (2 * k) ^ 2 = S k
  odd : ∀ k, 0 < k → 2 * k < 2 ^ K → S (2 * k + 1) ^ 2 = -S k

/-- Block `b` of layer `i` holds the input modulo `X ^ (2 ^ (K - i)) - point S i b`. -/
def point (S : Nat → R) : Nat → Nat → R
  | 0, _ => -1
  | i + 1, b => if b % 2 = 0 then S (2 ^ i + b / 2) else -S (2 ^ i + b / 2)

namespace RootTree

variable {K : Nat} {S : Nat → R}

theorem sq_eq_point (hS : RootTree K S) (i b : Nat) (hi : i < K) (hb : b < 2 ^ i)
    : S (2 ^ i + b) ^ 2 = point S i b := by
  cases i with
  | zero =>
    have : b = 0 := by simpa using hb
    simpa [this, point] using hS.root hi
  | succ i =>
    have hpow : 2 ^ (i + 1) = 2 * 2 ^ i := Nat.pow_succ'
    have hpos := Nat.two_pow_pos i
    have hbound : 2 * (2 ^ i + b / 2) < 2 ^ K := by
      have h1 : 2 ^ (i + 2) ≤ 2 ^ K := Nat.pow_le_pow_right (by omega) hi
      have h2 : 2 ^ (i + 2) = 2 * (2 * 2 ^ i) := by rw [Nat.pow_succ', Nat.pow_succ']
      omega
    rw [point]
    split
    . have : 2 ^ (i + 1) + b = 2 * (2 ^ i + b / 2) := by omega
      rw [this]
      exact hS.even _ (by omega) hbound
    . have : 2 ^ (i + 1) + b = 2 * (2 ^ i + b / 2) + 1 := by omega
      rw [this]
      exact hS.odd _ (by omega) hbound

theorem point_succ_sq (hS : RootTree K S) (i b : Nat) (hi : i < K) (hb : b < 2 ^ (i + 1))
    : point S (i + 1) b ^ 2 = point S i (b / 2) := by
  have hlt : b / 2 < 2 ^ i := by
    rw [Nat.pow_succ'] at hb
    omega
  rw [← hS.sq_eq_point i (b / 2) hi hlt, point]
  split
  . rfl
  . exact neg_sq _

/-- Every evaluation point is a root of `X ^ (2 ^ i) + 1`. -/
theorem point_pow (hS : RootTree K S) (i b : Nat) (hi : i ≤ K) (hb : b < 2 ^ i)
    : point S i b ^ 2 ^ i = -1 := by
  induction i generalizing b with
  | zero => simp [point]
  | succ i ih =>
    have hlt : b / 2 < 2 ^ i := by
      rw [Nat.pow_succ'] at hb
      omega
    rw [Nat.pow_succ', pow_mul, hS.point_succ_sq i b hi hb]
    exact ih (b / 2) (by omega) hlt

end RootTree

theorem sum_range_two_mul (f : Nat → R) (n : Nat)
    : ∑ t ∈ Finset.range (2 * n), f t = ∑ t ∈ Finset.range n, (f (2 * t) + f (2 * t + 1)) := by
  induction n with
  | zero => simp
  | succ n ih =>
    have : 2 * (n + 1) = 2 * n + 1 + 1 := by ring
    rw [this, Finset.sum_range_succ, Finset.sum_range_succ, ih, Finset.sum_range_succ]
    ring

/-- What entry `k` holds when the blocks have `B` entries and block `b` stands for `c b`. -/
def partialEval (x : Nat → R) (B N : Nat) (c : Nat → R) (k : Nat) : R :=
  ∑ t ∈ Finset.range N, x (k % B + t * B) * c (k / B) ^ t

theorem mod_add_two_mul (p t B : Nat) : p + 2 * t * B = p + t * (2 * B) := by ring

theorem mod_add_two_mul_succ (p t B : Nat) : p + (2 * t + 1) * B = p + B + t * (2 * B) := by ring

/-- A forward layer refines the blocks: `c` is replaced by its square roots `s` and `-s`. -/
theorem layer_partialEval {B N m : Nat} (hB : 0 < B) (x : Nat → R) (S c : Nat → R) (k : Nat)
    (hs : S (m + k / (2 * B)) ^ 2 = c (k / (2 * B)))
    : layer (fwButterfly S m) B (partialEval x (2 * B) N c) k
        =
      partialEval x B (2 * N)
        (fun b => if b % 2 = 0 then S (m + b / 2) else -S (m + b / 2)) k := by
  have hdm := Nat.div_add_mod k (2 * B)
  have hmod : k % (2 * B) < 2 * B := Nat.mod_lt _ (by omega)
  set b := k / (2 * B) with hb
  by_cases hk : k % (2 * B) < B
  -- the first half of a block gets the root, the second half its opposite
  . have hkt := block_index (t := B) (k := k + B) (i := b) (by omega) (by rw [Nat.mul_add]; omega)
    have h1 : 2 * b * B = 2 * B * b := by ring
    have h2 : (2 * b + 1) * B = 2 * B * b + B := by ring
    have hdiv : k / B = 2 * b := by
      apply Nat.div_eq_of_lt_le <;> omega
    have hmodB : k % B = k % (2 * B) := by
      have := Nat.div_add_mod k B
      rw [hdiv, Nat.mul_comm] at this
      omega
    have hpar : 2 * b % 2 = 0 := by omega
    have hhalf : 2 * b / 2 = b := by omega
    unfold layer fwButterfly partialEval
    rw [if_pos hk, ← hb, hkt.1, hkt.2, hdiv, hmodB, sum_range_two_mul]
    simp only [hpar, if_true, hhalf]
    rw [← hs, Finset.sum_mul, ← Finset.sum_add_distrib]
    apply Finset.sum_congr rfl
    intro t _
    have : k + B - 2 * B * b = k % (2 * B) + B := by omega
    rw [mod_add_two_mul, mod_add_two_mul_succ, this]
    ring
  . have hkt := block_index (t := B) (k := k - B) (i := b) (by omega) (by rw [Nat.mul_add]; omega)
    have h1 : (2 * b + 1) * B = 2 * B * b + B := by ring
    have h2 : (2 * b + 1 + 1) * B = 2 * B * b + 2 * B := by ring
    have hdiv : k / B = 2 * b + 1 := by
      apply Nat.div_eq_of_lt_le <;> omega
    have hmodB : k % B = k % (2 * B) - B := by
      have := Nat.div_add_mod k B
      rw [hdiv, Nat.mul_comm] at this
      omega
    have hpar : ¬((2 * b + 1) % 2 = 0) := by omega
    have hhalf : (2 * b + 1) / 2 = b := by omega
    unfold layer fwButterfly partialEval
    rw [if_neg hk, ← hb, hkt.1, hkt.2, hdiv, hmodB, sum_range_two_mul]
    simp only [hpar, if_false, hhalf]
    rw [← hs, Finset.sum_mul, ← Finset.sum_sub_distrib]
    apply Finset.sum_congr rfl
    intro t _
    have h1 : k - B - 2 * B * b = k % (2 * B) - B := by omega
    have h2 : k % (2 * B) - B + B = k % (2 * B) := by omega
    rw [mod_add_two_mul, mod_add_two_mul_succ, h1, h2]
    have hev : (-S (m + b)) ^ (2 * t) = S (m + b) ^ (2 * t) := Even.neg_pow ⟨t, by ring⟩ _
    have hodd : (-S (m + b)) ^ (2 * t + 1) = -S (m + b) ^ (2 * t + 1) := Odd.neg_pow ⟨t, rfl⟩ _
    rw [hev, hodd]
    ring

theorem fw_eq_partialEval {K : Nat} {S : Nat → R} (hS : RootTree K S) (x : Nat → R) (i : Nat)
    (hi : i ≤ K)
    : ∀ k < 2 ^ K, fw S K i x k = partialEval x (2 ^ (K - i)) (2 ^ i) (point S i) k := by
  induction i with
  | zero =>
    intro k hk
    simp [fw, partialEval, Nat.mod_eq_of_lt hk]
  | succ i ih =>
    intro k hk
    have hB : 2 ^ (K - i) = 2 * 2 ^ (K - 1 - i) := by
      rw [← Nat.pow_succ']
      congr 1
      omega
    have hsplit := two_pow_split (K := K) (i := i) hi
    have hlt : k / (2 * 2 ^ (K - 1 - i)) < 2 ^ i := Nat.div_lt_of_lt_mul (by rwa [hsplit])
    have hcongr := layer_congr (g := fwButterfly S (2 ^ i)) (m := 2 ^ i) (t := 2 ^ (K - 1 - i))
      (x := fw S K i x) (y := partialEval x (2 ^ (K - i)) (2 ^ i) (point S i))
      (by rw [hsplit]; exact ih (by omega)) k (by rwa [hsplit])
    have hsub : K - (i + 1) = K - 1 - i := by omega
    rw [fw, hcongr, hB, layer_partialEval (Nat.two_pow_pos _), hsub, Nat.pow_succ']
    . rfl
    . exact hS.sq_eq_point i _ hi hlt

/-- The forward transform evaluates the input at `point S K k`. -/
theorem fw_eq_sum {K : Nat} {S : Nat → R} (hS : RootTree K S) (x : Nat → R) (k : Nat)
    (hk : k < 2 ^ K)
    : fw S K K x k = ∑ t ∈ Finset.range (2 ^ K), x t * point S K k ^ t := by
  rw [fw_eq_partialEval hS x K (Nat.le_refl K) k hk]
  simp [partialEval, Nat.mod_one]

/-! ## Products modulo `X ^ n + 1` -/

/-- The polynomial whose coefficients are the first `n` entries. -/
noncomputable def toPoly (n : Nat) (x : Nat → R) : R[X] :=
  ∑ t ∈ Finset.range n, C (x t) * X ^ t

/-- The coefficients of `a * b` in `R[X] / (X ^ n + 1)`. -/
noncomputable def negacyclicMul (n : Nat) (a b : Nat → R) : Nat → R :=
  ((toPoly n a * toPoly n b) %ₘ (X ^ n + 1)).coeff

theorem toPoly_eval (n : Nat) (x : Nat → R) (r : R)
    : (toPoly n x).eval r = ∑ t ∈ Finset.range n, x t * r ^ t := by
  simp [toPoly, eval_finsetSum]

theorem toPoly_congr {n : Nat} {x y : Nat → R} (h : ∀ k < n, x k = y k)
    : toPoly n x = toPoly n y := by
  unfold toPoly
  apply Finset.sum_congr rfl
  intro t ht
  rw [h t (Finset.mem_range.mp ht)]

theorem negacyclicMul_congr {n : Nat} {a a' b b' : Nat → R} (ha : ∀ k < n, a k = a' k)
    (hb : ∀ k < n, b k = b' k)
    : negacyclicMul n a b = negacyclicMul n a' b' := by
  unfold negacyclicMul
  rw [toPoly_congr ha, toPoly_congr hb]

theorem monic_X_pow_add_one {n : Nat} (hn : 0 < n) : (X ^ n + 1 : R[X]).Monic := by
  simpa using monic_X_pow_add_C (1 : R) (Nat.pos_iff_ne_zero.mp hn)

/-- Reduction modulo `X ^ n + 1` does not change the value at a root of it. -/
theorem sum_negacyclicMul {n : Nat} (hn : 0 < n) (a b : Nat → R) {r : R} (hr : r ^ n = -1)
    : ∑ t ∈ Finset.range n, negacyclicMul n a b t * r ^ t
        =
      (∑ t ∈ Finset.range n, a t * r ^ t) * (∑ t ∈ Finset.range n, b t * r ^ t) := by
  nontriviality R
  have hmonic := monic_X_pow_add_one (R := R) hn
  have hdeg : (X ^ n + 1 : R[X]).natDegree = n := by
    simpa using natDegree_X_pow_add_C (n := n) (r := (1 : R))
  have hne : (X ^ n + 1 : R[X]) ≠ 1 := by
    intro h
    rw [h, natDegree_one] at hdeg
    omega
  have hlt : ((toPoly n a * toPoly n b) %ₘ (X ^ n + 1)).natDegree < n := by
    have := natDegree_modByMonic_lt (toPoly n a * toPoly n b) hmonic hne
    rwa [hdeg] at this
  have hroot : (X ^ n + 1 : R[X]).eval r = 0 := by
    simp [hr]
  unfold negacyclicMul
  rw [← eval_eq_sum_range' hlt r, ← toPoly_eval, ← toPoly_eval, ← eval_mul]
  conv_rhs => rw [← modByMonic_add_div (toPoly n a * toPoly n b) (X ^ n + 1)]
  rw [eval_add, eval_mul, hroot, zero_mul, add_zero]

/-- Transform, multiply, transform back: the product modulo `X ^ (2 ^ K) + 1`, times the length. -/
theorem inv_mul_fw {K : Nat} {S S' : Nat → R} (hS : RootTree K S)
    (hinv : ∀ k, 0 < k → k < 2 ^ K → S k * S' k = 1) (a b : Nat → R)
    : ∀ k < 2 ^ K,
        inv S' K K (fun k => fw S K K a k * fw S K K b k) k
          =
        2 ^ K * negacyclicMul (2 ^ K) a b k := by
  have hpoint : ∀ k < 2 ^ K,
      fw S K K a k * fw S K K b k = fw S K K (negacyclicMul (2 ^ K) a b) k := by
    intro k hk
    rw [fw_eq_sum hS _ k hk, fw_eq_sum hS _ k hk, fw_eq_sum hS _ k hk]
    rw [sum_negacyclicMul (Nat.two_pow_pos K) a b (hS.point_pow K k (Nat.le_refl K) hk)]
  intro k hk
  rw [inv_congr hpoint K (Nat.le_refl K) k hk, inv_fw hinv _ K (Nat.le_refl K) k hk]
  simp [fw]

end Ntt
