import FalconSmartAccount.Falcon.Verify

/-!
Which `s2` have a second representation that is accepted as well. The range of the coefficients is
only checked by the subtraction `q - s2[i]`, which does not distinguish `q` from `0`.
-/

namespace ZKNOX_falcon

open Yul Ntt ZKNOX_NTT
open ZKNOX_HashToPoint (zeroSalt hashToPoint_zeroSalt)

/-- Both arrays represent the same polynomial modulo `q`. -/
def SamePolynomial (s2 s2' : Vector Nat 512) : Prop := ∀ i, ∀ h : i < 512, s2[i] % q = s2'[i] % q

namespace SamePolynomial

variable {s2 s2' : Vector Nat 512}

theorem residues_eq (h : SamePolynomial s2 s2') {k : Nat} (hk : k < 512)
    : residues q s2.toList k = residues q s2'.toList k := by
  unfold residues
  rw [toList_getD s2 hk, toList_getD s2' hk]
  exact (ZMod.natCast_eq_natCast_iff' _ _ q).mpr (h k hk)

theorem sqNorm_eq (h : SamePolynomial s2 s2')
    : sqNorm (residues q s2.toList) = sqNorm (residues q s2'.toList) := by
  apply Finset.sum_congr rfl
  intro k hk
  rw [h.residues_eq (Finset.mem_range.mp hk)]

theorem short {c : List Nat} {P : (Nat → ZMod q) → Nat → ZMod q} (h : SamePolynomial s2 s2')
    (hP : ∀ x y : Nat → ZMod q, (∀ k < 512, x k = y k) → ∀ k < 512, P x k = P y k)
    (hshort : Short c s2 (P (residues q s2.toList)))
    : Short c s2' (P (residues q s2'.toList)) := by
  have := (short_congr (hP _ _ fun k hk => h.residues_eq hk)).mp hshort
  unfold Short at this ⊢
  rwa [← h.sqNorm_eq]

/-- Coefficients strictly between `0` and `q` have no other representation up to `q`. -/
theorem eq_of_inRange (h : SamePolynomial s2 s2') (hs2 : ¬OutOfRange s2) (hs2' : ¬OutOfRange s2')
    (hne : ∀ i, ∀ h : i < 512, s2[i] ≠ 0 ∧ s2[i] ≠ q)
    : s2 = s2' := by
  apply Vector.ext
  intro i hi
  have hle : s2[i] ≤ q := by
    by_contra hlt
    exact hs2 ⟨i, hi, Nat.not_le.mp hlt⟩
  have hle' : s2'[i] ≤ q := by
    by_contra hlt
    exact hs2' ⟨i, hi, Nat.not_le.mp hlt⟩
  obtain ⟨h0, hq⟩ := hne i hi
  have hmod := h i hi
  rw [Nat.mod_eq_of_lt (Nat.lt_of_le_of_ne hle hq)] at hmod
  rcases Nat.lt_or_eq_of_le hle' with hlt | heq
  . rwa [Nat.mod_eq_of_lt hlt] at hmod
  . rw [heq, Nat.mod_self] at hmod
    exact absurd hmod h0

end SamePolynomial

/-- Write a zero coefficient the other way. -/
def flipZero (s2 : Vector Nat 512) (i : Nat) (h : i < 512) : Vector Nat 512 := s2.set i (q - s2[i])

section

variable {s2 : Vector Nat 512} {i : Nat} (hi : i < 512)

/-- `q` is odd. -/
theorem flipZero_ne : s2 ≠ flipZero s2 i hi := by
  intro heq
  have : s2[i] = q - s2[i] := by
    conv_lhs => rw [heq]
    simp [flipZero]
  have hq : q = 12289 := rfl
  omega

theorem flipZero_samePolynomial (hzero : s2[i] = 0 ∨ s2[i] = q)
    : SamePolynomial s2 (flipZero s2 i hi) := by
  intro j hj
  unfold flipZero
  by_cases hij : i = j
  . subst hij
    rw [Vector.getElem_set_self]
    rcases hzero with h | h
    . rw [h, Nat.sub_zero, Nat.mod_self, Nat.zero_mod]
    . rw [h, Nat.sub_self, Nat.mod_self, Nat.zero_mod]
  . rw [Vector.getElem_set_ne _ _ hij]

theorem flipZero_inRange (h : ¬OutOfRange s2) : ¬OutOfRange (flipZero s2 i hi) := by
  rintro ⟨j, hj, hlt⟩
  unfold flipZero at hlt
  by_cases hij : i = j
  . subst hij
    rw [Vector.getElem_set_self] at hlt
    omega
  . rw [Vector.getElem_set_ne _ _ hij] at hlt
    exact h ⟨j, hj, hlt⟩

end

/-! ## The shared body -/

section Body

variable {keccak256 : Bytes → Word} {mul : List Nat → Checked (List Nat)} {gas : Nat}
  {st : Storage} {msgs salt : Bytes} {s2 s2' : Vector Nat 512} {h : List Nat}
  {P : (Nat → ZMod q) → Nat → ZMod q}
  (hqs1 : st.qs1 = 6144) (hsalt : salt.length = 40)
  (hmul : h.length = 512 → ∀ s2 : Vector Nat 512,
    ∃ p, mul s2.toList = .ok p ∧ Represents 9 p (P (residues q s2.toList)))

include hqs1 hsalt hmul

theorem verifyWith_true_iff
    : verifyWith keccak256 mul gas st msgs ⟨salt, s2⟩ h = .ok true
        ↔
      h.length = 512 ∧ ¬OutOfRange s2
        ∧ ∃ c, ZKNOX_HashToPoint.hashToPoint keccak256 gas salt msgs q n = .ok c
            ∧ Short c s2 (P (residues q s2.toList)) := by
  by_cases hh : h.length = 512
  . obtain ⟨p, hp, hrep⟩ := hmul hh s2
    cases hc : ZKNOX_HashToPoint.hashToPoint keccak256 gas salt msgs q n with
    | error e =>
      rw [@verifyWith_hash_error keccak256 mul gas st msgs ⟨salt, s2⟩ h hh hsalt e hc]
      simp
    | ok c =>
      obtain ⟨herr, hok⟩ := @verifyWith_spec keccak256 mul gas st msgs ⟨salt, s2⟩ h hqs1 hh hsalt
        _ _ _ hc hp hrep
      by_cases hrange : OutOfRange s2
      . rw [herr hrange]
        simp [hrange]
      . rw [hok hrange]
        simp [hrange, hh, Short]
  . rw [verifyWith_bad_length (.inl hh)]
    simp [hh]

variable (hP : ∀ x y : Nat → ZMod q, (∀ k < 512, x k = y k) → ∀ k < 512, P x k = P y k)

include hP

theorem verifyWith_unique_iff
    : (∀ s2', s2' ≠ s2 → SamePolynomial s2 s2' →
        ¬(verifyWith keccak256 mul gas st msgs ⟨salt, s2⟩ h = .ok true
          ∧ verifyWith keccak256 mul gas st msgs ⟨salt, s2'⟩ h = .ok true))
        ↔
      (∀ i, ∀ hi : i < 512, s2[i] ≠ 0 ∧ s2[i] ≠ q) ∨ h.length ≠ 512 ∨ OutOfRange s2
        ∨ ∀ c, ZKNOX_HashToPoint.hashToPoint keccak256 gas salt msgs q n = .ok c →
            ¬Short c s2 (P (residues q s2.toList)) := by
  simp only [verifyWith_true_iff hqs1 hsalt hmul]
  constructor
  . intro hunique
    by_contra hcond
    simp only [not_or, not_forall, ne_eq, not_not] at hcond
    obtain ⟨⟨i, hi, hzero⟩, hh, hrange, c, hc, hshort⟩ := hcond
    have hzero := or_iff_not_and_not.mpr hzero
    have hsame := flipZero_samePolynomial hi hzero
    exact hunique _ (flipZero_ne hi).symm hsame
      ⟨⟨hh, hrange, c, hc, hshort⟩, hh, flipZero_inRange hi hrange, c, hc, hsame.short hP hshort⟩
  . rintro hcond s2' hne hsame ⟨⟨hh, hrange, c, hc, hshort⟩, _, hrange', _⟩
    rcases hcond with hnz | hh' | hout | hlong
    . exact hne (hsame.eq_of_inRange hrange hrange' hnz).symm
    . exact hh' hh
    . exact hrange hout
    . exact hlong c hc hshort

end Body

/-! ## `verify` and `verify_opt` -/

section

variable {S S' : Nat → ZMod q} {c : ZMod q}

theorem tableHalfMul_congr {K : Nat} (b a a' : Nat → ZMod q) (ha : ∀ k < 2 ^ K, a k = a' k)
    : ∀ k < 2 ^ K, tableHalfMul S S' c K a b k = tableHalfMul S S' c K a' b k := by
  intro k hk
  unfold tableHalfMul
  congr 1
  apply inv_congr _ K (Nat.le_refl K) k hk
  intro k hk
  rw [fw_congr ha K (Nat.le_refl K) k hk]

end

/-- The squared norms of `c - s2 * h` and `s2` are within the bound, for the product that the
contract's tables define. -/
def ShortFor (code : Address → Bytes) (ntt : ZKNOX_NTT.Storage) (c : List Nat)
    (s2 : Vector Nat 512) (ntth : Nat → ZMod q) : Prop :=
  Short c s2 (tableHalfMul (table q (code ntt.o_psirev)) (table q (code ntt.o_psi_inv_rev))
    ntt.storage_nm1modq 9 (residues q s2.toList) ntth)

theorem verify_unique_iff (keccak256 : Bytes → Word) (code : Address → Bytes)
    (ntt : ZKNOX_NTT.Storage) (hq : ntt.storage_q = 12289) (gas : Nat) (msgs salt : Bytes)
    (hsalt : salt.length = 40) (s2 : Vector Nat 512) (h : List Nat)
    : ((∀ s2', s2' ≠ s2 → SamePolynomial s2 s2' →
          ¬(verify keccak256 code gas (constructor ntt) msgs ⟨salt, s2⟩ h = .ok true
            ∧ verify keccak256 code gas (constructor ntt) msgs ⟨salt, s2'⟩ h = .ok true))
          ↔
        (∀ i, ∀ hi : i < 512, s2[i] ≠ 0 ∧ s2[i] ≠ 12289) ∨ h.length ≠ 512 ∨ OutOfRange s2
          ∨ ∀ c, ZKNOX_HashToPoint.hashToPoint keccak256 gas salt msgs q n = .ok c →
              ¬ShortFor code ntt c s2 (fw (table q (code ntt.o_psirev)) 9 9 (residues q h)))
        ∧
      ((∀ s2', s2' ≠ s2 → SamePolynomial s2 s2' →
          ¬(verify_opt keccak256 code gas (constructor ntt) msgs ⟨salt, s2⟩ h = .ok true
            ∧ verify_opt keccak256 code gas (constructor ntt) msgs ⟨salt, s2'⟩ h = .ok true))
          ↔
        (∀ i, ∀ hi : i < 512, s2[i] ≠ 0 ∧ s2[i] ≠ 12289) ∨ h.length ≠ 512 ∨ OutOfRange s2
          ∨ ∀ c, ZKNOX_HashToPoint.hashToPoint keccak256 gas salt msgs q n = .ok c →
              ¬ShortFor code ntt c s2 (residues q h)) := by
  constructor
  . apply verifyWith_unique_iff rfl hsalt _ (tableHalfMul_congr (K := 9) _)
    intro hh s2
    exact ZKNOX_NTT_MUL_spec hq falconQ_lt fits_falcon code (by simp) hh
  . apply verifyWith_unique_iff rfl hsalt _ (tableHalfMul_congr (K := 9) _)
    intro hh s2
    exact ZKNOX_NTT_HALFMUL_spec hq falconQ_lt fits_falcon code (by simp) hh

/-- No coefficient is zero, so there is no second representation whatever is signed. -/
theorem verify_unique_ones
    : ¬(verify keccak256 (fun _ => []) 600 (constructor (ZKNOX_NTT.constructor 1 2 12289 12265)) []
            ⟨zeroSalt, Vector.replicate 512 1⟩ (List.replicate 512 0) = .ok true
          ∧ verify keccak256 (fun _ => []) 600 (constructor (ZKNOX_NTT.constructor 1 2 12289 12265)) []
            ⟨zeroSalt, (Vector.replicate 512 1).set 0 12290⟩ (List.replicate 512 0) = .ok true) := by
  have hunique := (verify_unique_iff keccak256 (fun _ => []) (ZKNOX_NTT.constructor 1 2 12289 12265)
    rfl 600 [] zeroSalt List.length_replicate (Vector.replicate 512 1) (List.replicate 512 0)).1.mpr
  apply hunique
  . left
    intro i hi
    rw [Vector.getElem_replicate]
    exact ⟨by decide, by decide⟩
  . intro heq
    have hfirst := congrArg (fun v : Vector Nat 512 => v[0]) heq
    simp at hfirst
  . intro i hi
    rw [Vector.getElem_set, Vector.getElem_replicate]
    split
    . decide
    . rfl

/-! ## Two accepted representations of the polynomial `1` -/

theorem polynomialOne_eq : (Vector.replicate 512 0).set 0 1 = polynomialOne := by
  ext k hk
  rw [Vector.getElem_set, Vector.getElem_replicate, polynomialOne_getElem k hk]
  simp only [eq_comm]

theorem polynomialOne_inRange : ¬OutOfRange polynomialOne := by
  rintro ⟨i, hi, hlt⟩
  have hq : q = 12289 := rfl
  rw [polynomialOne_getElem i hi] at hlt
  split at hlt <;> omega

/-- Signing with `s2 = 1` under the public key `h = c`, whatever is hashed. -/
theorem short_polynomialOne {code : Address → Bytes} {ntt : ZKNOX_NTT.Storage}
    (hsetup : CorrectSetup code ntt) (c : List Nat)
    : Short c polynomialOne
        (tableMul (table q (code ntt.o_psirev)) (table q (code ntt.o_psi_inv_rev))
          ntt.storage_nm1modq 9 (residues q polynomialOne.toList) (residues q c)) := by
  have hmul : ∀ k < 512,
      tableMul (table q (code ntt.o_psirev)) (table q (code ntt.o_psi_inv_rev))
          ntt.storage_nm1modq 9 (residues q polynomialOne.toList) (residues q c) k
        = residues q c k := by
    intro k hk
    rw [tableMul_eq_negacyclicMul hsetup _ _ k hk,
      negacyclicMul_congr residues_polynomialOne (fun _ _ => rfl), negacyclicMul_one (by omega) _ hk]
  apply (short_congr hmul).mpr
  have hzero : sqNorm (fun k => residues q c k - residues q c k) = 0 := by
    simp [sqNorm]
  unfold Short
  rw [hzero, sqNorm_polynomialOne]
  decide

/-- Every representation of it within the range is accepted. -/
theorem verify_polynomialOne {keccak256 : Bytes → Word} {code : Address → Bytes}
    {ntt : ZKNOX_NTT.Storage} (hsetup : CorrectSetup code ntt) {gas : Nat} {msgs salt : Bytes}
    {c : List Nat} (hsalt : salt.length = 40)
    (hc : ZKNOX_HashToPoint.hashToPoint keccak256 gas salt msgs q n = .ok c)
    {s2 : Vector Nat 512} (hrange : ¬OutOfRange s2) (hsame : SamePolynomial polynomialOne s2)
    : verify keccak256 code gas (constructor ntt) msgs ⟨salt, s2⟩ c = .ok true := by
  have hlen := ZKNOX_HashToPoint.hashToPoint_length keccak256 hc
  apply (verifyWith_true_iff rfl hsalt _).mpr
  . exact ⟨hlen, hrange, c, hc,
      hsame.short (tableHalfMul_congr (K := 9) _) (short_polynomialOne hsetup c)⟩
  . intro hh s2
    exact ZKNOX_NTT_MUL_spec hsetup.storage_q falconQ_lt fits_falcon code (by simp) hh

/-- The coefficient of `X` written as `0` and as `q`. -/
theorem verify_accepts_zero_and_q
    : ∃ c, ZKNOX_HashToPoint.hashToPoint keccak256 600 zeroSalt [] q n = .ok c ∧
        let code := fun a => tableBytes (if a = 1 then psi_rev else psi_inv_rev)
        let st := constructor (ZKNOX_NTT.constructor 1 2 12289 12265)
        let s2 : Vector Nat 512 := (Vector.replicate 512 0).set 0 1
        let s2' : Vector Nat 512 := ((Vector.replicate 512 0).set 0 1).set 1 12289
        s2' ≠ s2 ∧ SamePolynomial s2 s2'
          ∧ verify keccak256 code 600 st [] ⟨zeroSalt, s2⟩ c = .ok true
          ∧ verify keccak256 code 600 st [] ⟨zeroSalt, s2'⟩ c = .ok true := by
  obtain ⟨c, hc⟩ := hashToPoint_zeroSalt
  refine ⟨c, hc, ?_⟩
  rw [polynomialOne_eq]
  have hsalt : zeroSalt.length = 40 := List.length_replicate
  have hzero : polynomialOne[1] = 0 := polynomialOne_getElem 1 (by omega)
  have hflip : polynomialOne.set 1 12289 = flipZero polynomialOne 1 (by omega) := by
    unfold flipZero
    rw [hzero, Nat.sub_zero]
  have hsame : SamePolynomial polynomialOne (flipZero polynomialOne 1 (by omega)) :=
    flipZero_samePolynomial (by omega) (.inl hzero)
  have hrange := flipZero_inRange (i := 1) (by omega) polynomialOne_inRange
  have hne : flipZero polynomialOne 1 (by omega) ≠ polynomialOne :=
    (flipZero_ne (by omega)).symm
  rw [← hflip] at hsame hrange hne
  exact ⟨hne, hsame,
    verify_polynomialOne correctSetup_tableBytes hsalt hc polynomialOne_inRange (fun _ _ => rfl),
    verify_polynomialOne correctSetup_tableBytes hsalt hc hrange hsame⟩

end ZKNOX_falcon
