import FalconSmartAccount.Falcon.ZknoxNttMul
import FalconSmartAccount.Ntt.TwoTerm

/-!
The product of a contract whose two table addresses are the same, as the deployment script and the
test set it up. The inverse transform then multiplies by the roots where it should divide by them.
-/

namespace ZKNOX_NTT

open Yul Ntt

structure Reduced (xs : List Nat) : Prop where
  length : xs.length = 512
  lt : ∀ x ∈ xs, x < 12289

/-- `ZKNOX_NTT_MUL` is multiplication modulo `X ^ 512 + 1`. -/
def MultipliesCorrectly (code : Address → Bytes) (s : Storage) : Prop :=
  ∀ a b, Reduced a → Reduced b →
    ∃ p, ZKNOX_NTT_MUL code s a b = .ok p
      ∧ Represents 9 p (negacyclicMul 512 (residues falconQ a) (residues falconQ b))

/-! ## Monomials -/

/-- The array of `X ^ i`. -/
def monomial (i : Nat) : List Nat := (List.range 512).map fun k => if k = i then 1 else 0

theorem monomial_reduced (i : Nat) : Reduced (monomial i) := by
  refine ⟨by simp [monomial], ?_⟩
  intro x hx
  obtain ⟨k, _, rfl⟩ := List.mem_map.mp hx
  split <;> omega

theorem residues_monomial (i k : Nat) (hk : k < 512)
    : residues falconQ (monomial i) k = if k = i then 1 else 0 := by
  simp [residues, monomial, hk]

theorem residues_monomial_zero
    : ∀ k < 2 ^ 9, residues falconQ (monomial 0) k = twoTerm (2 ^ 8) 1 0 k := by
  intro k hk
  rw [residues_monomial 0 k (by omega), twoTerm_apply (by omega), ite_self]

theorem residues_monomial_half
    : ∀ k < 2 ^ 9, residues falconQ (monomial 256) k = twoTerm (2 ^ 8) 0 1 k := by
  intro k hk
  rw [residues_monomial 256 k (by omega), twoTerm_apply (by omega)]
  by_cases h0 : k = 0
  . rw [h0]
    rfl
  . rw [if_neg h0]
    rfl

/-! ## One table for both directions -/

section

variable (code : Address → Bytes) (A : Address)

/-- The constructor call of the deployment. -/
def deployed (A : Address) : Storage := constructor A A 12289 12265

/-- The one entry that products of polynomials in `X ^ 256` depend on. -/
def root : ZMod falconQ := table falconQ (code A) 1

theorem deployed_twoTerm {a b : List Nat} (ha : a.length = 512) (hb : b.length = 512)
    {a₀ a₁ b₀ b₁ : ZMod falconQ} (hra : ∀ k < 2 ^ 9, residues falconQ a k = twoTerm (2 ^ 8) a₀ a₁ k)
    (hrb : ∀ k < 2 ^ 9, residues falconQ b k = twoTerm (2 ^ 8) b₀ b₁ k)
    : ∃ p, ZKNOX_NTT_MUL code (deployed A) a b = .ok p
        ∧ Represents 9 p (twoTerm (2 ^ 8) (a₀ * b₀ + root code A ^ 2 * (a₁ * b₁))
            (root code A ^ 2 * (a₀ * b₁ + a₁ * b₀))) := by
  obtain ⟨p, hp, hrep⟩ := ZKNOX_NTT_MUL_spec (q := falconQ) (s := deployed A) rfl falconQ_lt
    fits_falcon code (a := a) (b := b) ha hb
  refine ⟨p, hp, hrep.length, hrep.lt, ?_⟩
  intro k hk
  rw [hrep.cast k hk]
  have hfw : ∀ k < 2 ^ 9,
      fw (table falconQ (code A)) 9 9 (residues falconQ a) k
        * fw (table falconQ (code A)) 9 9 (residues falconQ b) k
        = fw (table falconQ (code A)) 9 9 (twoTerm (2 ^ 8) a₀ a₁) k
            * fw (table falconQ (code A)) 9 9 (twoTerm (2 ^ 8) b₀ b₁) k := by
    intro k hk
    rw [fw_congr hra 9 (Nat.le_refl 9) k hk, fw_congr hrb 9 (Nat.le_refl 9) k hk]
  have hinv := inv_mul_fw_twoTerm (L := 8) (table falconQ (code A)) (table falconQ (code A))
    a₀ a₁ b₀ b₁ k hk
  unfold tableMul tableHalfMul
  rw [show (deployed A).o_psirev = A from rfl, show (deployed A).o_psi_inv_rev = A from rfl,
    show (deployed A).storage_nm1modq = 12265 from rfl, inv_congr hfw 9 (Nat.le_refl 9) k hk, hinv,
    mul_assoc, twoTerm_mul, mul_right_comm, two_pow_mul_nm1modq, one_mul, ← pow_two]
  rfl

open Polynomial in
theorem negacyclicMul_of_twoTerm {x y : Nat → ZMod falconQ} {a₀ a₁ b₀ b₁ : ZMod falconQ}
    (hx : ∀ k < 2 ^ 9, x k = twoTerm (2 ^ 8) a₀ a₁ k)
    (hy : ∀ k < 2 ^ 9, y k = twoTerm (2 ^ 8) b₀ b₁ k)
    : negacyclicMul 512 x y
        = (C (a₀ * b₀ - a₁ * b₁) + C (a₀ * b₁ + a₁ * b₀) * X ^ 256).coeff := by
  have hhalf : 2 ^ 8 = 256 := by norm_num
  have hn : 2 * 256 = 512 := by norm_num
  have hmul := negacyclicMul_twoTerm (H := 256) (by omega) a₀ a₁ b₀ b₁
  rw [hn] at hmul
  rw [negacyclicMul_congr (n := 512) hx hy, hhalf, hmul]

theorem negacyclicMul_half_half
    : negacyclicMul 512 (residues falconQ (monomial 256)) (residues falconQ (monomial 256)) 0 = -1 := by
  rw [negacyclicMul_of_twoTerm residues_monomial_half residues_monomial_half]
  simp

theorem negacyclicMul_one_half
    : negacyclicMul 512 (residues falconQ (monomial 0)) (residues falconQ (monomial 256)) 256 = 1 := by
  rw [negacyclicMul_of_twoTerm residues_monomial_zero residues_monomial_half]
  simp

/-- `X ^ 256 * X ^ 256` asks for a square root of `-1` and `1 * X ^ 256` for one of `1`. -/
theorem deployed_not_multipliesCorrectly : ¬MultipliesCorrectly code (deployed A) := by
  intro h
  have hmul : ∀ {a b : List Nat} {a₀ a₁ b₀ b₁ : ZMod falconQ}, Reduced a → Reduced b →
      (∀ k < 2 ^ 9, residues falconQ a k = twoTerm (2 ^ 8) a₀ a₁ k) →
      (∀ k < 2 ^ 9, residues falconQ b k = twoTerm (2 ^ 8) b₀ b₁ k) → ∀ k < 2 ^ 9,
        negacyclicMul 512 (residues falconQ a) (residues falconQ b) k
          = twoTerm (2 ^ 8) (a₀ * b₀ + root code A ^ 2 * (a₁ * b₁))
              (root code A ^ 2 * (a₀ * b₁ + a₁ * b₀)) k := by
    intro a b a₀ a₁ b₀ b₁ ha hb hra hrb k hk
    obtain ⟨p, hp, hrep⟩ := h a b ha hb
    obtain ⟨p', hp', hrep'⟩ := deployed_twoTerm code A ha.length hb.length hra hrb
    rw [hp] at hp'
    cases hp'
    rw [← hrep.cast k hk, ← hrep'.cast k hk]
  have hneg := hmul (monomial_reduced 256) (monomial_reduced 256) residues_monomial_half
    residues_monomial_half 0 (by omega)
  have hone := hmul (monomial_reduced 0) (monomial_reduced 256) residues_monomial_zero
    residues_monomial_half 256 (by omega)
  rw [negacyclicMul_half_half] at hneg
  rw [negacyclicMul_one_half] at hone
  rw [twoTerm_apply (by omega)] at hneg hone
  norm_num at hneg hone
  rw [← hone] at hneg
  exact absurd hneg (by decide)

end

/-- With the words of `psi_rev` as the shared table the product of `1` and `X ^ 256` has a sign. -/
theorem deployed_psi_rev_one_mul_half
    : (∃ p, ZKNOX_NTT_MUL (fun _ => tableBytes (psi_rev.take 512)) (deployed 1) (monomial 0)
          (monomial 256) = .ok p ∧ p.getD 256 0 = 12288)
        ∧ negacyclicMul 512 (residues falconQ (monomial 0)) (residues falconQ (monomial 256)) 256 = 1
        ∧ ¬MultipliesCorrectly (fun _ => tableBytes (psi_rev.take 512)) (deployed 1) := by
  obtain ⟨p, hp, hrep⟩ := deployed_twoTerm (fun _ => tableBytes (psi_rev.take 512)) 1
    (monomial_reduced 0).length (monomial_reduced 256).length residues_monomial_zero
    residues_monomial_half
  have hroot : root (fun _ => tableBytes (psi_rev.take 512)) 1 ^ 2 = -1 := by
    have hword : extcodeword (tableBytes (psi_rev.take 512)) (1 * 32) = 1479 := by
      rw [extcodeword_tableBytes (by rw [List.length_take, psi_rev_length]; omega)
        (by rw [show (psi_rev.take 512).getD 1 0 = 1479 from rfl]; norm_num [wordSize])]
      rfl
    unfold root table
    rw [hword]
    decide
  have hcast := hrep.cast 256 (by omega)
  rw [hroot] at hcast
  have hentry : p.getD 256 0 = 12288 := by
    have hlt := hrep.lt 256 (by omega)
    have : ((p.getD 256 0 : Nat) : ZMod falconQ) = (12288 : Nat) := by
      rw [show ((p.getD 256 0 : Nat) : ZMod falconQ) = _ from hcast]
      decide
    have := (ZMod.natCast_eq_natCast_iff' _ _ falconQ).mp this
    rwa [Nat.mod_eq_of_lt hlt, Nat.mod_eq_of_lt (by norm_num)] at this
  refine ⟨⟨p, hp, hentry⟩, negacyclicMul_one_half, ?_⟩
  intro h
  obtain ⟨p', hp', hrep'⟩ := h (monomial 0) (monomial 256) (monomial_reduced 0) (monomial_reduced 256)
  rw [hp] at hp'
  cases hp'
  have hone := hrep'.cast 256 (by omega)
  rw [negacyclicMul_one_half, hcast] at hone
  exact absurd hone (by decide)

end ZKNOX_NTT
