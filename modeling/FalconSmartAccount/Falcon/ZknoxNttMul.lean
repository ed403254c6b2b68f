import FalconSmartAccount.Falcon.ZknoxNttInverse

/-!
The products `ZKNOX_NTT_MUL` and `ZKNOX_NTT_HALFMUL` of the contract, first for whatever the tables
hold and then, with the tables of `ZKNOX_NTT.sol`, as products modulo `X ^ 512 + 1`.
-/

namespace ZKNOX_NTT

open Yul Ntt Abi

/-! ## Vector operations -/

theorem zip_getD {a b : List Nat} {k : Nat} (hk : k < a.length) (h : a.length = b.length)
    : (a.zip b).getD k (0, 0) = (a.getD k 0, b.getD k 0) := by
  have hb : k < b.length := by omega
  simp [hk, hb]

/-- The loop that the vector operations share: one entry of the result from one entry of each. -/
theorem zip_mapM_spec {a b : List Nat} (h : a.length = b.length) {f : Nat × Nat → Checked Nat}
    {g : Nat → Nat → Nat}
    (hf : ∀ k < a.length, f (a.getD k 0, b.getD k 0) = .ok (g (a.getD k 0) (b.getD k 0)))
    : ∃ p, (a.zip b).mapM f = .ok p ∧ p.length = a.length
        ∧ ∀ k < a.length, p.getD k 0 = g (a.getD k 0) (b.getD k 0) := by
  refine ⟨(a.zip b).map fun x => g x.1 x.2, ?_, by simp [h], ?_⟩
  . apply Checked.mapM_ok
    intro x hx
    obtain ⟨k, hk, hget⟩ := List.mem_iff_getElem.mp hx
    have hka : k < a.length := by
      simp only [List.length_zip] at hk
      omega
    have := zip_getD hka h
    rw [List.getD_eq_getElem _ _ hk, hget] at this
    rw [this]
    exact hf k hka
  . intro k hk
    have hb : k < b.length := by omega
    simp [hk, hb]

theorem ZKNOX_VECMULMOD_spec {q : Nat} (hq : 0 < q) {a b : List Nat} (h : a.length = b.length)
    : ∃ p, ZKNOX_VECMULMOD a b q = .ok p ∧ p.length = a.length
        ∧ ∀ k < a.length, p.getD k 0 = mulmod (a.getD k 0) (b.getD k 0) q := by
  unfold ZKNOX_VECMULMOD
  rw [Solidity.assert_ok (by simpa using h), Checked.ok_bind]
  apply zip_mapM_spec h (g := fun x y => mulmod x y q)
  intro k _
  exact Solidity.mulmod_ok hq

theorem ZKNOX_VECSUBMOD_spec {q : Nat} (hq : 0 < q) {a b : List Nat} (h : a.length = b.length)
    (hb : ∀ k < b.length, b.getD k 0 ≤ q)
    : ∃ p, ZKNOX_VECSUBMOD a b q = .ok p ∧ p.length = a.length
        ∧ ∀ k < a.length, p.getD k 0 = addmod (a.getD k 0) (q - b.getD k 0) q := by
  unfold ZKNOX_VECSUBMOD
  rw [Solidity.assert_ok (by simpa using h), Checked.ok_bind]
  apply zip_mapM_spec h (g := fun x y => addmod x (q - y) q)
  intro k hk
  dsimp only
  rw [Solidity.sub_ok (hb k (by omega)), Checked.ok_bind, Solidity.addmod_ok hq]

/-! ## The product that a pair of tables defines -/

section

variable {q : Nat}

/-- `ZKNOX_NTT_HALFMUL` modulo `q`, for forward roots `S`, backward roots `S'` and scale `c`. -/
def tableHalfMul (S S' : Nat → ZMod q) (c : ZMod q) (K : Nat) (a b : Nat → ZMod q)
    : Nat → ZMod q :=
  fun k => inv S' K K (fun k => fw S K K a k * b k) k * c

/-- `ZKNOX_NTT_MUL` modulo `q`. -/
def tableMul (S S' : Nat → ZMod q) (c : ZMod q) (K : Nat) (a b : Nat → ZMod q) : Nat → ZMod q :=
  tableHalfMul S S' c K a (fw S K K b)

/-- The second factor by its transform. -/
theorem tableHalfMul_congr {S S' : Nat → ZMod q} {c : ZMod q} {K : Nat} {a b b' : Nat → ZMod q}
    (h : ∀ k < 2 ^ K, b k = b' k)
    : ∀ k < 2 ^ K, tableHalfMul S S' c K a b k = tableHalfMul S S' c K a b' k := by
  intro k hk
  unfold tableHalfMul
  congr 1
  apply inv_congr _ K (Nat.le_refl K) k hk
  intro k hk
  rw [h k hk]

/-- What a product of the contract returns: `2 ^ K` reduced entries that represent `p`. -/
structure Represents (K : Nat) (xs : List Nat) (p : Nat → ZMod q) : Prop where
  length : xs.length = 2 ^ K
  lt : ∀ k < 2 ^ K, xs.getD k 0 < q
  cast : ∀ k < 2 ^ K, residues q xs k = p k

/-- Reduced entries are determined by what they represent. -/
theorem Represents.unique {K : Nat} {xs ys : List Nat} {p : Nat → ZMod q}
    (hx : Represents K xs p) (hy : Represents K ys p)
    : xs = ys := by
  apply List.ext_getElem
  . rw [hx.length, hy.length]
  . intro k h1 h2
    have hk : k < 2 ^ K := by rwa [← hx.length]
    have hcast : residues q xs k = residues q ys k := by rw [hx.cast k hk, hy.cast k hk]
    have := (ZMod.natCast_eq_natCast_iff' _ _ q).mp hcast
    rw [Nat.mod_eq_of_lt (hx.lt k hk), Nat.mod_eq_of_lt (hy.lt k hk)] at this
    simpa [List.getD_eq_getElem, h1, h2] using this

variable [NeZero q] {K : Nat} {s : Storage} (hs : s.storage_q = q) (hq : q < wordSize) (hK : FitsMemory K)
  (code : Address → Bytes)

include hs hq hK

theorem ZKNOX_NTTINV_represents {xs : List Nat} {p : Nat → ZMod q} (hxs : Represents K xs p)
    (psi_inv_rev : Bytes)
    : Represents K (ZKNOX_NTTINV s xs psi_inv_rev)
        (fun k => inv (table q psi_inv_rev) K K p k * (s.storage_nm1modq : ZMod q)) := by
  have hle : ∀ k < 2 ^ K, xs.getD k 0 ≤ q := fun k hk => Nat.le_of_lt (hxs.lt k hk)
  refine ⟨ZKNOX_NTTINV_length hs hq hK hxs.length hle psi_inv_rev,
    ZKNOX_NTTINV_lt hs hq hK hxs.length hle psi_inv_rev, ?_⟩
  intro k hk
  rw [ZKNOX_NTTINV_cast hs hq hK hxs.length hle psi_inv_rev k hk,
    inv_congr hxs.cast K (Nat.le_refl K) k hk]

theorem ZKNOX_NTT_HALFMUL_spec {a b : List Nat} (ha : a.length = 2 ^ K) (hb : b.length = 2 ^ K)
    : ∃ p, ZKNOX_NTT_HALFMUL code s a b = .ok p
        ∧ Represents K p
            (tableHalfMul (table q (code s.o_psirev)) (table q (code s.o_psi_inv_rev))
              s.storage_nm1modq K (residues q a) (residues q b)) := by
  have hfa := ZKNOX_NTTFW_length hs hq hK ha (code s.o_psirev)
  obtain ⟨m, hm, hlen, hget⟩ := ZKNOX_VECMULMOD_spec (NeZero.pos q)
    (a := ZKNOX_NTTFW s a (code s.o_psirev)) (b := b) (by rw [hfa, hb])
  rw [hfa] at hlen hget
  have hrep : Represents K m (fun k =>
      fw (table q (code s.o_psirev)) K K (residues q a) k * residues q b k) := by
    refine ⟨hlen, ?_, ?_⟩
    . intro k hk
      rw [hget k hk]
      exact mulmod_lt (NeZero.pos q)
    . intro k hk
      rw [← ZKNOX_NTTFW_cast hs hq hK ha (code s.o_psirev) k hk]
      unfold residues
      rw [hget k hk, cast_mulmod]
  refine ⟨ZKNOX_NTTINV s m (code s.o_psi_inv_rev), ?_,
    ZKNOX_NTTINV_represents hs hq hK hrep (code s.o_psi_inv_rev)⟩
  unfold ZKNOX_NTT_HALFMUL
  rw [hs, hm]
  rfl

theorem ZKNOX_NTT_MUL_spec {a b : List Nat} (ha : a.length = 2 ^ K) (hb : b.length = 2 ^ K)
    : ∃ p, ZKNOX_NTT_MUL code s a b = .ok p
        ∧ Represents K p
            (tableMul (table q (code s.o_psirev)) (table q (code s.o_psi_inv_rev))
              s.storage_nm1modq K (residues q a) (residues q b)) := by
  have hfb := ZKNOX_NTTFW_length hs hq hK hb (code s.o_psirev)
  obtain ⟨p, hp, hrep⟩ := ZKNOX_NTT_HALFMUL_spec hs hq hK code (a := a)
    (b := ZKNOX_NTTFW s b (code s.o_psirev)) ha hfb
  refine ⟨p, hp, hrep.length, hrep.lt, ?_⟩
  intro k hk
  rw [hrep.cast k hk]
  exact tableHalfMul_congr (ZKNOX_NTTFW_cast hs hq hK hb (code s.o_psirev)) k hk

end

/-! ## With the tables of `ZKNOX_NTT.sol` -/

instance : Fact (Nat.Prime falconQ) := ⟨by norm_num⟩

/-- The code lists the table as 32 byte big endian words. -/
def HoldsTable (code : Bytes) (tbl : List Nat) : Prop :=
  ∀ k < 1024, extcodeword code (k * 32) = tbl.getD k 0

def tableBytes (tbl : List Nat) : Bytes := tbl.flatMap wordBytes

theorem tableBytes_getD (tbl : List Nat) (k i : Nat) (hk : k < tbl.length) (hi : i < 32)
    : (tableBytes tbl).getD (k * 32 + i) 0 = (wordBytes (tbl.getD k 0)).getD i 0 := by
  induction tbl generalizing k with
  | nil => simp at hk
  | cons w tbl ih =>
    have hlen : (wordBytes w).length = 32 := wordBytes_length w
    have hcons : tableBytes (w :: tbl) = wordBytes w ++ tableBytes tbl := by simp [tableBytes]
    rw [hcons]
    cases k with
    | zero => rw [Nat.zero_mul, Nat.zero_add, List.getD_append _ _ _ _ (by omega), List.getD_cons_zero]
    | succ k =>
      have hidx : (k + 1) * 32 + i - (wordBytes w).length = k * 32 + i := by omega
      rw [List.getD_append_right _ _ _ _ (by omega), hidx, List.getD_cons_succ]
      exact ih k (by simpa using hk)

theorem extcodeword_tableBytes {tbl : List Nat} {k : Nat} (hk : k < tbl.length)
    (hlt : tbl.getD k 0 < wordSize)
    : extcodeword (tableBytes tbl) (k * 32) = tbl.getD k 0 := by
  apply wordAt_of_getD hlt
  intro i hi
  exact tableBytes_getD tbl k i hk hi

theorem holdsTable_tableBytes {tbl : List Nat} (hlen : tbl.length = 1024)
    (hlt : ∀ w ∈ tbl, w < wordSize)
    : HoldsTable (tableBytes tbl) tbl := by
  intro k hk
  have hk' : k < tbl.length := by omega
  apply extcodeword_tableBytes hk'
  rw [List.getD_eq_getElem _ _ hk']
  exact hlt _ (List.getElem_mem _)

/-- The contract is set up for Falcon-512. -/
structure CorrectSetup (code : Address → Bytes) (s : Storage) : Prop where
  storage_q : s.storage_q = 12289
  storage_nm1modq : s.storage_nm1modq = 12265
  psi_rev : HoldsTable (code s.o_psirev) psi_rev
  psi_inv_rev : HoldsTable (code s.o_psi_inv_rev) psi_inv_rev

theorem fits_falcon : FitsMemory 9 := by
  unfold FitsMemory freePointer wordSize
  norm_num

theorem falconQ_lt : falconQ < wordSize := by
  unfold wordSize
  norm_num

theorem psi_rev_le (k : Nat) : psi_rev.getD k 0 ≤ falconQ := by
  by_cases hk : k < psi_rev.length
  . have := List.all_eq_true.mp psi_rev_lt _ (List.getElem_mem hk)
    rw [List.getD_eq_getElem _ _ hk]
    exact Nat.le_of_lt (by simpa using this)
  . simp [Nat.not_lt.mp hk]

theorem rootTree_of_holds {code : Bytes} (h : HoldsTable code psi_rev) {K : Nat} (hK : K ≤ 10)
    : RootTree K (table falconQ code) := by
  have hpow : 2 ^ K ≤ 1024 := Nat.pow_le_pow_right (j := 10) (by omega) hK
  have hchildren : ∀ k, 0 < k → 2 * k < 2 ^ K →
      psi_rev.getD (2 * k) 0 * psi_rev.getD (2 * k) 0 % falconQ = psi_rev.getD k 0
        ∧
      psi_rev.getD (2 * k + 1) 0 * psi_rev.getD (2 * k + 1) 0 % falconQ
        = falconQ - psi_rev.getD k 0 := by
    intro k hk hlt
    have := children_getD psi_rev_children (k - 1) (by simp [psi_rev_length]; omega)
      (by simp [psi_rev_length]; omega)
    have h1 : 2 + 2 * (k - 1) = 2 * k := by omega
    have h2 : 2 + (2 * (k - 1) + 1) = 2 * k + 1 := by omega
    have h3 : k - 1 + 1 = k := by omega
    simpa [List.getD_eq_getElem?_getD, List.getElem?_drop, List.getElem?_tail, h1, h2, h3] using this
  have hcast : ∀ k, k < 1024 → table falconQ code k = (psi_rev.getD k 0 : ZMod falconQ) := by
    intro k hk
    unfold table
    rw [h k hk]
  refine ⟨?_, ?_, ?_⟩
  . intro _
    rw [hcast 1 (by omega), pow_two, ← Nat.cast_mul, ← ZMod.natCast_mod, psi_rev_root]
    rfl
  . intro k hk hlt
    rw [hcast _ (by omega), hcast _ (by omega), pow_two, ← Nat.cast_mul, ← ZMod.natCast_mod,
      (hchildren k hk hlt).1]
  . intro k hk hlt
    rw [hcast _ (by omega), hcast _ (by omega), pow_two, ← Nat.cast_mul, ← ZMod.natCast_mod,
      (hchildren k hk hlt).2, Nat.cast_sub (psi_rev_le k), ZMod.natCast_self, zero_sub]

theorem inverse_of_holds {code code' : Bytes} (h : HoldsTable code psi_rev)
    (h' : HoldsTable code' psi_inv_rev) (k : Nat) (hk : 0 < k) (hlt : k < 1024)
    : table falconQ code k * table falconQ code' k = 1 := by
  have := inverses_getD psi_rev_inverses (k - 1) (by simp [psi_rev_length]; omega)
    (by simp [psi_inv_rev_length]; omega)
  have h1 : k - 1 + 1 = k := by omega
  unfold table
  rw [h k hlt, h' k hlt, ← Nat.cast_mul, ← ZMod.natCast_mod]
  simp only [List.getD_eq_getElem?_getD, List.getElem?_tail, h1] at this ⊢
  rw [this]
  simp

/-- A setup as the contract's comments ask for: each table in a contract of its own. -/
theorem correctSetup_tableBytes
    : CorrectSetup (fun a => tableBytes (if a = 1 then psi_rev else psi_inv_rev))
        (constructor 1 2 12289 12265) := by
  have hlt : ∀ tbl : List Nat, tbl.all (· < falconQ) = true → ∀ w ∈ tbl, w < wordSize := by
    intro tbl htbl w hw
    have := List.all_eq_true.mp htbl w hw
    exact Nat.lt_trans (by simpa using this) falconQ_lt
  refine ⟨rfl, rfl, ?_, ?_⟩
  . exact holdsTable_tableBytes psi_rev_length (hlt _ psi_rev_lt)
  . exact holdsTable_tableBytes psi_inv_rev_length (hlt _ psi_inv_rev_lt)

/-- With the right tables and scale the product is the one modulo `X ^ (2 ^ K) + 1`. -/
theorem tableMul_of_holdsTable {code code' : Bytes} (hpsi : HoldsTable code psi_rev)
    (hpsi' : HoldsTable code' psi_inv_rev) {K : Nat} (hK : K ≤ 10) {c : ZMod falconQ}
    (hscale : 2 ^ K * c = 1) (a b : Nat → ZMod falconQ)
    : ∀ k < 2 ^ K,
        tableMul (table falconQ code) (table falconQ code') c K a b k
          =
        negacyclicMul (2 ^ K) a b k := by
  intro k hk
  have hpow : 2 ^ K ≤ 1024 := Nat.pow_le_pow_right (j := 10) (by omega) hK
  have hinv : ∀ k, 0 < k → k < 2 ^ K → table falconQ code k * table falconQ code' k = 1 :=
    fun k hk hlt => inverse_of_holds hpsi hpsi' k hk (by omega)
  unfold tableMul tableHalfMul
  rw [inv_mul_fw (rootTree_of_holds hpsi hK) hinv a b k hk]
  calc _ = 2 ^ K * c * negacyclicMul (2 ^ K) a b k := by ring
    _ = negacyclicMul (2 ^ K) a b k := by rw [hscale, one_mul]

theorem two_pow_mul_nm1modq : (2 ^ 9 : ZMod falconQ) * (12265 : Nat) = 1 := by
  decide +kernel

theorem tableMul_eq_negacyclicMul {code : Address → Bytes} {s : Storage}
    (h : CorrectSetup code s) (a b : Nat → ZMod falconQ)
    : ∀ k < 512,
        tableMul (table falconQ (code s.o_psirev)) (table falconQ (code s.o_psi_inv_rev))
          s.storage_nm1modq 9 a b k
          =
        negacyclicMul 512 a b k := by
  rw [h.storage_nm1modq]
  exact tableMul_of_holdsTable h.psi_rev h.psi_inv_rev (by omega) two_pow_mul_nm1modq a b

end ZKNOX_NTT
