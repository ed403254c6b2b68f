import FalconSmartAccount.Falcon.Verify

/-!
Public keys that are stored as their transform: `verify_opt` takes the transform, and `verify` what
`ZKNOX_NTTINV` makes of it.
-/

namespace ZKNOX_NTT

open Yul Ntt

variable {code : Address → Bytes} {s : Storage}

/-- The scale of the contract takes back the factor of the two transforms. -/
theorem fw_inv_scaled (h : CorrectSetup code s) (x : Nat → ZMod falconQ)
    : ∀ k < 2 ^ 9,
        fw (table falconQ (code s.o_psirev)) 9 9
            (fun k => inv (table falconQ (code s.o_psi_inv_rev)) 9 9 x k * s.storage_nm1modq) k
          =
        x k := by
  intro k hk
  have hroots : ∀ k, 0 < k → k < 2 ^ 9 →
      table falconQ (code s.o_psirev) k * table falconQ (code s.o_psi_inv_rev) k = 1 :=
    fun k hpos hlt => inverse_of_holds h.psi_rev h.psi_inv_rev k hpos (by omega)
  have hcomm : (fun k => inv (table falconQ (code s.o_psi_inv_rev)) 9 9 x k
        * (s.storage_nm1modq : ZMod falconQ))
      = fun k => (s.storage_nm1modq : ZMod falconQ)
        * inv (table falconQ (code s.o_psi_inv_rev)) 9 9 x k :=
    funext fun k => mul_comm _ _
  rw [hcomm]
  rw [fw_smul]
  dsimp only
  rw [fw_inv hroots x 9 (Nat.le_refl 9) k hk]
  rw [h.storage_nm1modq]
  calc _ = 2 ^ 9 * ((12265 : Nat) : ZMod falconQ) * x k := by
        rw [Nat.sub_self]
        unfold inv
        ring
    _ = x k := by rw [two_pow_mul_nm1modq, one_mul]

/-- A key that can be stored: the transform of a polynomial. -/
structure StoredKey (ntth : List Nat) : Prop where
  length : ntth.length = 512
  lt : ∀ x ∈ ntth, x < 12289

theorem StoredKey.represents {ntth : List Nat} (h : StoredKey ntth)
    : Represents 9 ntth (residues falconQ ntth) := by
  refine ⟨h.length, ?_, fun _ _ => rfl⟩
  intro k hk
  have hk' : k < ntth.length := by
    rw [h.length]
    exact hk
  rw [List.getD_eq_getElem _ _ hk']
  exact h.lt _ (List.getElem_mem hk')

/-- What the contract makes of a stored key. -/
theorem StoredKey.coefficients {ntth : List Nat} (h : StoredKey ntth) (hsetup : CorrectSetup code s)
    : Represents 9 (ZKNOX_NTTINV s ntth (code s.o_psi_inv_rev)) fun k =>
        inv (table falconQ (code s.o_psi_inv_rev)) 9 9 (residues falconQ ntth) k
          * (s.storage_nm1modq : ZMod falconQ) :=
  ZKNOX_NTTINV_represents hsetup.storage_q falconQ_lt fits_falcon h.represents _

/-- A product with a key that is stored as its transform. -/
theorem ZKNOX_NTT_MUL_NTTINV (hsetup : CorrectSetup code s) {a ntth : List Nat}
    (ha : a.length = 2 ^ 9) (h : StoredKey ntth)
    : ZKNOX_NTT_MUL code s a (ZKNOX_NTTINV s ntth (code s.o_psi_inv_rev))
        =
      ZKNOX_NTT_HALFMUL code s a ntth := by
  have hcoefficients := h.coefficients hsetup
  obtain ⟨p, hp, hrep⟩ := ZKNOX_NTT_MUL_spec (q := falconQ) hsetup.storage_q falconQ_lt fits_falcon
    code ha hcoefficients.length
  obtain ⟨p', hp', hrep'⟩ := ZKNOX_NTT_HALFMUL_spec (q := falconQ) hsetup.storage_q falconQ_lt
    fits_falcon code ha h.represents.length
  have hkey : ∀ k < 2 ^ 9,
      fw (table falconQ (code s.o_psirev)) 9 9
          (residues falconQ (ZKNOX_NTTINV s ntth (code s.o_psi_inv_rev))) k
        = residues falconQ ntth k := by
    intro k hk
    rw [fw_congr hcoefficients.cast 9 (Nat.le_refl 9) k hk]
    rw [fw_inv_scaled hsetup (residues falconQ ntth) k hk]
  rw [hp, hp']
  congr 1
  refine hrep.unique ⟨hrep'.length, hrep'.lt, ?_⟩
  intro k hk
  rw [hrep'.cast k hk]
  exact (tableHalfMul_congr hkey k hk).symm

end ZKNOX_NTT

namespace ZKNOX_falcon

open ZKNOX_NTT
open ZKNOX_HashToPoint (hashToPoint zeroSalt hashToPoint_zeroSalt)

theorem verifyWith_congr {keccak256 : Bytes → Word} {mul mul' : List Nat → Checked (List Nat)}
    {gas : Nat} {st : Storage} {msgs : Bytes} {signature : Signature} {h h' : List Nat}
    (hmul : mul signature.s2.toList = mul' signature.s2.toList) (hlength : h.length = h'.length)
    : verifyWith keccak256 mul gas st msgs signature h
        =
      verifyWith keccak256 mul' gas st msgs signature h' := by
  unfold verifyWith
  rw [hlength]
  simp only [hmul]

theorem verify_opt_agrees {keccak256 : Bytes → Word} {code : Address → Bytes}
    {ntt : ZKNOX_NTT.Storage} (hsetup : CorrectSetup code ntt) (gas : Nat) (msgs : Bytes)
    (signature : Signature) {ntth : List Nat} (hlength : ntth.length = 512)
    (hlt : ∀ x ∈ ntth, x < 12289)
    : verify_opt keccak256 code gas (constructor ntt) msgs signature ntth
        =
      verify keccak256 code gas (constructor ntt) msgs signature
        (ZKNOX_NTTINV ntt ntth (code ntt.o_psi_inv_rev)) := by
  have hkey : StoredKey ntth := ⟨hlength, hlt⟩
  unfold verify_opt verify
  apply verifyWith_congr
  . have hs2 : signature.s2.toList.length = 2 ^ 9 := by
      simp
    exact (ZKNOX_NTT_MUL_NTTINV hsetup hs2 hkey).symm
  . rw [hkey.represents.length]
    exact (hkey.coefficients hsetup).length.symm

theorem verify_opt_agrees_range
    : let code : Address → Bytes := fun a => tableBytes (if a = 1 then psi_rev else psi_inv_rev)
      let ntt := ZKNOX_NTT.constructor 1 2 12289 12265
      (∃ c, hashToPoint keccak256 600 zeroSalt [] q n = .ok c)
        ∧
      verify_opt keccak256 code 600 (constructor ntt) [] ⟨zeroSalt, polynomialOne⟩ (List.range 512)
        =
      verify keccak256 code 600 (constructor ntt) [] ⟨zeroSalt, polynomialOne⟩
        (ZKNOX_NTTINV ntt (List.range 512) (code ntt.o_psi_inv_rev)) := by
  refine ⟨hashToPoint_zeroSalt, ?_⟩
  apply verify_opt_agrees correctSetup_tableBytes
  . exact List.length_range
  . intro x hx
    have := List.mem_range.mp hx
    omega

end ZKNOX_falcon
