import FalconSmartAccount.Ntt.Transform

/-!
Transforms of polynomials in `X ^ (n / 2)`. Whatever the table holds, only its entry at `1` has an
influence on them, so their products tell how the two tables in use fit together.
-/

namespace Ntt

open Polynomial

variable {R : Type} [CommRing R]

/-- Entries at the multiples of `B`, the same ones throughout each block of `H` entries. -/
def spread (H B : Nat) (w : Nat → R) : Nat → R := fun k => if k % B = 0 then w (k / H) else 0

def twoTerm (H : Nat) (u v : R) : Nat → R := spread H H fun i => if i = 0 then u else v

theorem twoTerm_apply {H k : Nat} (hk : k < 2 * H) (u v : R)
    : twoTerm H u v k = if k = 0 then u else if k = H then v else 0 := by
  unfold twoTerm spread
  by_cases hlt : k < H
  . rw [Nat.mod_eq_of_lt hlt, Nat.div_eq_of_lt hlt, if_neg (Nat.ne_of_lt hlt)]
    rfl
  . have hle := Nat.not_lt.mp hlt
    have hdiv : k / H = 1 := by
      rw [Nat.div_eq_sub_div (by omega) hle, Nat.div_eq_of_lt (by omega)]
    have hmod : k % H = 0 ↔ k = H := by
      rw [Nat.mod_eq_sub_mod hle, Nat.mod_eq_of_lt (by omega)]
      omega
    rw [if_neg (by omega : ¬k = 0)]
    simp only [hdiv, hmod, Nat.one_ne_zero, if_false]

theorem twoTerm_mul {H k : Nat} (c u v : R)
    : twoTerm H (c * u) (c * v) k = c * twoTerm H u v k := by
  unfold twoTerm spread
  dsimp only
  split
  . split <;> rfl
  . rw [mul_zero]

/-! ## Both transforms keep the shape -/

section

variable {H t : Nat} (ht : 0 < t) (hH : 2 * t ∣ H) {w : Nat → R} {k : Nat}

theorem mod_of_lower (hk : k % (2 * t) < t) : k % t = k % (2 * t) := by
  rw [← Nat.mod_mul_left_mod k 2 t, Nat.mod_eq_of_lt hk]

theorem lower_partner (hk : k % (2 * t) < t)
    : (k + t) / (2 * t) = k / (2 * t) ∧ (k + t) % (2 * t) = k % (2 * t) + t := by
  have hdm := Nat.div_add_mod k (2 * t)
  have := block_index (t := t) (k := k + t) (i := k / (2 * t)) (by omega)
    (by rw [Nat.mul_add]; omega)
  omega

include ht

theorem mod_of_upper (hk : ¬k % (2 * t) < t) : k % t = k % (2 * t) - t := by
  have hlt : k % (2 * t) < 2 * t := Nat.mod_lt _ (by omega)
  rw [← Nat.mod_mul_left_mod k 2 t, Nat.mod_eq_sub_mod (by omega), Nat.mod_eq_of_lt (by omega)]

theorem upper_partner (hk : ¬k % (2 * t) < t)
    : (k - t) / (2 * t) = k / (2 * t) ∧ (k - t) % (2 * t) = k % (2 * t) - t := by
  have hdm := Nat.div_add_mod k (2 * t)
  have hlt : k % (2 * t) < 2 * t := Nat.mod_lt _ (by omega)
  have := block_index (t := t) (k := k - t) (i := k / (2 * t)) (by omega)
    (by rw [Nat.mul_add]; omega)
  omega

omit ht in
include hH in
/-- Whole blocks lie within one half. -/
theorem div_eq_of_block {j : Nat} (h : j / (2 * t) = k / (2 * t)) : j / H = k / H := by
  obtain ⟨m, rfl⟩ := hH
  rw [← Nat.div_div_eq_div_mul j (2 * t) m, ← Nat.div_div_eq_div_mul k (2 * t) m, h]

include hH

theorem layer_fw_spread (S : Nat → R) (m : Nat)
    : layer (fwButterfly S m) t (spread H (2 * t) w) k = spread H t w k := by
  unfold layer fwButterfly spread
  by_cases hk : k % (2 * t) < t
  . obtain ⟨hdiv, hmod⟩ := lower_partner hk
    have hne : k % (2 * t) + t ≠ 0 := by omega
    rw [if_pos hk, hmod, if_neg hne, mod_of_lower hk]
    simp
  . obtain ⟨hdiv, hmod⟩ := upper_partner ht hk
    have hne : k % (2 * t) ≠ 0 := by omega
    rw [if_neg hk, hmod, div_eq_of_block hH hdiv, mod_of_upper ht hk, if_neg hne]
    simp

theorem layer_inv_spread (S : Nat → R) (m : Nat)
    : layer (invButterfly S m) t (spread H t w) k = spread H (2 * t) (fun i => 2 * w i) k := by
  unfold layer invButterfly spread
  by_cases hk : k % (2 * t) < t
  . obtain ⟨hdiv, hmod⟩ := lower_partner hk
    rw [if_pos hk, Nat.add_mod_right, div_eq_of_block hH hdiv, mod_of_lower hk]
    dsimp only
    split <;> ring
  . obtain ⟨hdiv, hmod⟩ := upper_partner ht hk
    have hmodt : (k - t) % t = k % t := by
      have hle : t ≤ k := by
        have := Nat.mod_le k (2 * t)
        omega
      rw [← Nat.mod_eq_sub_mod hle]
    rw [if_neg hk, hmodt, div_eq_of_block hH hdiv, if_neg (by omega : ¬k % (2 * t) = 0)]
    ring

end

section

variable {L : Nat} (S S' : Nat → R) (w : Nat → R)

theorem two_mul_dvd {i : Nat} (hi : i < L) : 2 * 2 ^ (L - (i + 1)) ∣ 2 ^ L := by
  rw [← pow_succ']
  exact pow_dvd_pow 2 (by omega)

/-- The first layer combines the two halves; the others copy within each half. -/
theorem fw_spread (i : Nat) (hi : i ≤ L)
    : ∀ k < 2 ^ (L + 1),
        fw S (L + 1) (i + 1) (spread (2 ^ L) (2 ^ L) w) k
          =
        spread (2 ^ L) (2 ^ (L - i))
          (fun j => if j = 0 then w 0 + w 1 * S 1 else w 0 - w 1 * S 1) k := by
  induction i with
  | zero =>
    intro k hk
    have hpos := Nat.two_pow_pos L
    rw [Nat.pow_succ'] at hk
    unfold fw fw layer fwButterfly spread
    simp only [Nat.pow_zero, Nat.add_sub_cancel, Nat.sub_zero, Nat.mod_eq_of_lt hk,
      Nat.div_eq_of_lt hk, Nat.add_zero]
    by_cases hlt : k < 2 ^ L
    . have hdiv : (k + 2 ^ L) / 2 ^ L = 1 := by
        rw [Nat.add_div_right _ hpos, Nat.div_eq_of_lt hlt]
      rw [if_pos hlt, Nat.add_mod_right, Nat.div_eq_of_lt hlt, hdiv]
      split <;> simp
    . have hdiv : k / 2 ^ L = 1 := by
        have := Nat.div_eq_sub_div hpos (Nat.not_lt.mp hlt)
        rw [this, Nat.div_eq_of_lt (by omega)]
      have hdiv' : (k - 2 ^ L) / 2 ^ L = 0 := Nat.div_eq_of_lt (by omega)
      rw [if_neg hlt, ← Nat.mod_eq_sub_mod (Nat.not_lt.mp hlt), hdiv, hdiv']
      split <;> simp
  | succ i ih =>
    intro k hk
    have hsplit := two_pow_split (K := L + 1) (i := i + 1) (by omega)
    have h1 : L + 1 - 1 - (i + 1) = L - (i + 1) := by omega
    have h2 : 2 ^ (L - i) = 2 * 2 ^ (L - (i + 1)) := by
      rw [← Nat.pow_succ']
      congr 1
      omega
    rw [h1] at hsplit
    rw [fw, h1, layer_congr (by rw [hsplit]; exact ih (by omega)) k (by rwa [hsplit]), h2]
    exact layer_fw_spread (Nat.two_pow_pos _) (two_mul_dvd hi) S _

/-- All layers but the last sum up each half. -/
theorem inv_spread (j : Nat) (hj : j ≤ L)
    : ∀ k < 2 ^ (L + 1),
        inv S' (L + 1) j (spread (2 ^ L) 1 w) k
          =
        spread (2 ^ L) (2 ^ j) (fun i => 2 ^ j * w i) k := by
  induction j with
  | zero => simp [inv]
  | succ j ih =>
    intro k hk
    have hsplit := two_pow_split' (K := L + 1) (i := j) (by omega)
    have hdvd : 2 * 2 ^ j ∣ 2 ^ L := by
      rw [← pow_succ']
      exact pow_dvd_pow 2 hj
    rw [inv, layer_congr (by rw [hsplit]; exact ih (by omega)) k (by rwa [hsplit]),
      layer_inv_spread (Nat.two_pow_pos j) hdvd, ← Nat.pow_succ']
    unfold spread
    simp only [pow_succ', mul_assoc]

theorem inv_spread_last
    : ∀ k < 2 ^ (L + 1),
        inv S' (L + 1) (L + 1) (spread (2 ^ L) 1 w) k
          =
        twoTerm (2 ^ L) (2 ^ L * (w 0 + w 1)) (2 ^ L * (w 0 - w 1) * S' 1) k := by
  intro k hk
  have hpos := Nat.two_pow_pos L
  have hsplit := two_pow_split' (K := L + 1) (i := L) (by omega)
  rw [inv, layer_congr (by rw [hsplit]; exact inv_spread S' w L (Nat.le_refl L)) k (by rwa [hsplit])]
  rw [Nat.pow_succ'] at hk
  unfold layer invButterfly twoTerm spread
  simp only [Nat.add_sub_cancel, Nat.sub_self, Nat.pow_zero, Nat.mod_eq_of_lt hk,
    Nat.div_eq_of_lt hk, Nat.add_zero]
  by_cases hlt : k < 2 ^ L
  . have hdiv : (k + 2 ^ L) / 2 ^ L = 1 := by
      rw [Nat.add_div_right _ hpos, Nat.div_eq_of_lt hlt]
    rw [if_pos hlt, Nat.add_mod_right, Nat.div_eq_of_lt hlt, hdiv]
    split
    . simp only [if_true]
      ring
    . ring
  . have hdiv : k / 2 ^ L = 1 := by
      have := Nat.div_eq_sub_div hpos (Nat.not_lt.mp hlt)
      rw [this, Nat.div_eq_of_lt (by omega)]
    have hdiv' : (k - 2 ^ L) / 2 ^ L = 0 := Nat.div_eq_of_lt (by omega)
    rw [if_neg hlt, ← Nat.mod_eq_sub_mod (Nat.not_lt.mp hlt), hdiv, hdiv']
    split
    . simp only [Nat.one_ne_zero, if_false]
      ring
    . ring

/-- What the transforms compute as product, for any two tables. -/
theorem inv_mul_fw_twoTerm (a₀ a₁ b₀ b₁ : R)
    : ∀ k < 2 ^ (L + 1),
        inv S' (L + 1) (L + 1)
          (fun k => fw S (L + 1) (L + 1) (twoTerm (2 ^ L) a₀ a₁) k
            * fw S (L + 1) (L + 1) (twoTerm (2 ^ L) b₀ b₁) k) k
          =
        twoTerm (2 ^ L) (2 ^ (L + 1) * (a₀ * b₀ + S 1 ^ 2 * (a₁ * b₁)))
          (2 ^ (L + 1) * (S 1 * S' 1) * (a₀ * b₁ + a₁ * b₀)) k := by
  intro k hk
  have hfw : ∀ k < 2 ^ (L + 1),
      fw S (L + 1) (L + 1) (twoTerm (2 ^ L) a₀ a₁) k * fw S (L + 1) (L + 1) (twoTerm (2 ^ L) b₀ b₁) k
        = spread (2 ^ L) 1
            (fun j => if j = 0 then (a₀ + a₁ * S 1) * (b₀ + b₁ * S 1)
              else (a₀ - a₁ * S 1) * (b₀ - b₁ * S 1)) k := by
    intro k hk
    unfold twoTerm
    rw [fw_spread S _ L (Nat.le_refl L) k hk, fw_spread S _ L (Nat.le_refl L) k hk, Nat.sub_self]
    unfold spread
    simp only [Nat.pow_zero, Nat.mod_one, if_true, Nat.one_ne_zero, if_false]
    split <;> rfl
  rw [inv_congr hfw (L + 1) (Nat.le_refl _) k hk, inv_spread_last S' _ k hk]
  unfold twoTerm
  simp only [if_true, Nat.one_ne_zero, if_false]
  congr 2
  funext i
  split <;> ring

end

/-! ## The products modulo `X ^ n + 1` -/

theorem toPoly_twoTerm {H : Nat} (hH : 0 < H) (u v : R)
    : toPoly (2 * H) (twoTerm H u v) = C u + C v * X ^ H := by
  have h0 : twoTerm H u v 0 = u := by rw [twoTerm_apply (by omega), if_pos rfl]
  have h1 : twoTerm H u v H = v := by
    rw [twoTerm_apply (by omega), if_neg (by omega), if_pos rfl]
  unfold toPoly
  rw [Finset.sum_eq_add 0 H (by omega)]
  . simp [h0, h1]
  . rintro k hk ⟨hk0, hkH⟩
    have hlt := Finset.mem_range.mp hk
    rw [twoTerm_apply hlt, if_neg hk0, if_neg hkH, C_0, zero_mul]
  . intro h
    exact absurd (Finset.mem_range.mpr (by omega)) h
  . intro h
    exact absurd (Finset.mem_range.mpr (by omega)) h

theorem negacyclicMul_twoTerm {H : Nat} (hH : 0 < H) (a₀ a₁ b₀ b₁ : R)
    : negacyclicMul (2 * H) (twoTerm H a₀ a₁) (twoTerm H b₀ b₁)
        = (C (a₀ * b₀ - a₁ * b₁) + C (a₀ * b₁ + a₁ * b₀) * X ^ H).coeff := by
  nontriviality R
  have hmonic := monic_X_pow_add_one (R := R) (n := 2 * H) (by omega)
  have hdeg : (X ^ (2 * H) + 1 : R[X]).degree = (2 * H : Nat) := by
    simpa using degree_X_pow_add_C (n := 2 * H) (by omega) (1 : R)
  unfold negacyclicMul
  congr 1
  apply (div_modByMonic_unique (C (a₁ * b₁)) _ hmonic ⟨?_, ?_⟩).2
  . rw [toPoly_twoTerm hH, toPoly_twoTerm hH]
    simp only [C_mul, C_sub, C_add]
    ring
  . rw [hdeg]
    apply lt_of_le_of_lt (degree_add_le _ _)
    apply max_lt
    . exact lt_of_le_of_lt degree_C_le (by exact_mod_cast (by omega : 0 < 2 * H))
    . exact lt_of_le_of_lt (degree_C_mul_X_pow_le _ _) (by exact_mod_cast (by omega : H < 2 * H))

theorem negacyclicMul_one {n : Nat} (hn : 0 < n) (b : Nat → R) {k : Nat} (hk : k < n)
    : negacyclicMul n (fun k => if k = 0 then 1 else 0) b k = b k := by
  nontriviality R
  have hmonic := monic_X_pow_add_one (R := R) hn
  have hdeg : (X ^ n + 1 : R[X]).degree = n := by
    simpa using degree_X_pow_add_C hn (1 : R)
  have hone : toPoly n (fun k => if k = 0 then (1 : R) else 0) = 1 := by
    unfold toPoly
    rw [Finset.sum_eq_single_of_mem 0 (Finset.mem_range.mpr hn)]
    . simp
    . intro i _ hi
      simp [hi]
  have hlt : (toPoly n b).degree < n := by
    unfold toPoly
    apply (degree_sum_le _ _).trans_lt
    rw [Finset.sup_lt_iff (by exact WithBot.bot_lt_coe n)]
    intro i hi
    apply (degree_C_mul_X_pow_le _ _).trans_lt
    exact_mod_cast Finset.mem_range.mp hi
  unfold negacyclicMul
  rw [hone, one_mul, (modByMonic_eq_self_iff hmonic).mpr (by rwa [hdeg])]
  simp [toPoly, coeff_C_mul, coeff_X_pow, hk]

end Ntt
