import FalconSmartAccount.Falcon.ZknoxNttForward

/-!
The assembly of `ZKNOX_NTTINV` computes the inverse transform of the library. Unlike the forward
one it subtracts entries it did not reduce itself: `sub(q, V)` is `q - V` only if `V` is at most `q`.
-/

namespace ZKNOX_NTT

open Yul Ntt

/-- What the loops of `ZKNOX_NTTINV` keep: the shape of the array and the bound on its entries. -/
structure ReducedAt (q a n : Nat) (mem : Memory) : Prop extends ArrayAt a n mem where
  le_modulus : ∀ k < n, mem.mload (slot a k) ≤ q

theorem ReducedAt.mstore {q a n : Nat} {mem : Memory} (h : ReducedAt q a n mem) (j : Nat) {v : Nat}
    (hv : v ≤ q)
    : ReducedAt q a n (mem.mstore (slot a j) v) := by
  refine ⟨h.toArrayAt.mstore j v, ?_⟩
  intro k hk
  rw [mload_mstore_slot]
  split
  . exact hv
  . exact h.le_modulus k hk

variable {q : Nat} [NeZero q]

theorem nttinvButterfly_spec {a n t j : Nat} {mem : Memory} (hq : q < wordSize)
    (ha : ReducedAt q a n mem) (ht : 0 < t) (hj : j + t < n) (code : Bytes) (h i : Nat)
    : view q a (nttinvButterfly a t q (extcodeword code ((h + i) * 32)) j mem)
        =
      pairStep (invButterfly (table q code) h i) t j (view q a mem)
        ∧
      ReducedAt q a n (nttinvButterfly a t q (extcodeword code ((h + i) * 32)) j mem) := by
  have hpos : 0 < q := NeZero.pos q
  have hV := ha.le_modulus (j + t) hj
  unfold nttinvButterfly
  dsimp only
  rw [add_mul_slot ha.fits (by omega), slot_add ha.fits hj, slot_sub ha.fits hj]
  refine ⟨?_, (ha.mstore _ (Nat.le_of_lt (mulmod_lt hpos))).mstore _ (Nat.le_of_lt (addmod_lt hpos))⟩
  funext k
  unfold view pairStep invButterfly table
  rw [mload_mstore_slot, mload_mstore_slot]
  by_cases hk : k = j
  . simp [hk]
  . by_cases hkt : k = j + t
    . rw [if_neg hk, if_pos hkt, if_neg hk, if_pos hkt, cast_mulmod, cast_addmod,
        cast_sub_modulus hV hq]
      ring
    . simp [hk, hkt]

theorem nttinvBlock_spec {a n h t i : Nat} {s : Nat × Memory} (hq : q < wordSize)
    (hs : s.1 = 2 * (i * t)) (ha : ReducedAt q a n s.2) (ht : 0 < t) (hn : 2 * t * h = n)
    (hi : i < h) (code : Bytes)
    : view q a (nttinvBlock code a h t q i s).2
        =
      forLoop (2 * (i * t)) (2 * (i * t) + t)
        (fun j x => pairStep (invButterfly (table q code) h i) t j x) (view q a s.2)
        ∧
      (nttinvBlock code a h t q i s).1 = 2 * ((i + 1) * t)
        ∧
      ReducedAt q a n (nttinvBlock code a h t q i s).2 := by
  have hb := block_bounds hn hi
  have hfits := ha.fits
  have hm : i + h < n := by nlinarith
  have hnext : 2 * (i * t) + 2 * t = 2 * ((i + 1) * t) := by ring
  unfold nttinvBlock
  dsimp only
  rw [hs, block_end ht (by omega), index_offset (by omega) hm, shl_one_eq (by omega),
    add_eq (by omega), hnext]
  have hloop := forLoop_hom (Nat.le_add_right (2 * (i * t)) t) (view q a)
    (fun _ mem => ReducedAt q a n mem)
    (f := nttinvButterfly a t q (extcodeword code ((h + i) * 32)))
    (g := fun j x => pairStep (invButterfly (table q code) h i) t j x) ha
    (fun j mem' hlo hhi ha' => nttinvButterfly_spec hq ha' ht (by omega) code h i)
  exact ⟨hloop.1, rfl, hloop.2⟩

theorem nttinvRound_spec {a n h t : Nat} {mem : Memory} (hq : q < wordSize)
    (ha : ReducedAt q a n mem) (ht : 0 < t) (hn : 2 * t * h = n) (code : Bytes)
    : view q a (forLoop 0 h (nttinvBlock code a h t q) (0, mem)).2
        =
      layerLoop (invButterfly (table q code) h) h t (view q a mem)
        ∧
      ReducedAt q a n (forLoop 0 h (nttinvBlock code a h t q) (0, mem)).2 := by
  have hloop := forLoop_hom (Nat.zero_le h) (fun s : Nat × Memory => view q a s.2)
    (fun i s => s.1 = 2 * (i * t) ∧ ReducedAt q a n s.2)
    (f := nttinvBlock code a h t q)
    (g := fun i x => forLoop (2 * (i * t)) (2 * (i * t) + t)
      (fun j x => pairStep (invButterfly (table q code) h i) t j x) x)
    (s := (0, mem)) ⟨by simp, ha⟩
    (fun i s _ hi hs => nttinvBlock_spec hq hs.1 hs.2 ht hn hi code)
  exact ⟨hloop.1, hloop.2.2⟩

/-- The loop at the start of round `i`: `i` layers of the inverse transform of `x` are done. -/
theorem nttinvWhile_spec {a K : Nat} (hq : q < wordSize) (code : Bytes) (x : Nat → ZMod q)
    (fuel i : Nat) (hi : i ≤ K) (hfuel : K - i ≤ fuel) (mem : Memory)
    (ha : ReducedAt q a (2 ^ K) mem)
    (hx : ∀ k < 2 ^ K, view q a mem k = inv (table q code) K i x k)
    : (∀ k < 2 ^ K,
        view q a (nttinvWhile code a q fuel (2 ^ i) (2 ^ (K - i)) mem) k
          =
        inv (table q code) K K x k)
        ∧
      ReducedAt q a (2 ^ K) (nttinvWhile code a q fuel (2 ^ i) (2 ^ (K - i)) mem) := by
  induction fuel generalizing i mem with
  | zero =>
    have : i = K := by omega
    subst this
    exact ⟨hx, ha⟩
  | succ fuel ih =>
    unfold nttinvWhile
    split
    . next hgt =>
      have hiK : i < K := by
        by_contra hne
        have : K - i = 0 := by omega
        simp [this] at hgt
      have hhalf : 2 ^ (K - i) / 2 = 2 ^ (K - 1 - i) := by
        have : K - i = (K - 1 - i) + 1 := by omega
        rw [this, Nat.pow_succ, Nat.mul_div_cancel _ (by omega)]
      have hdouble : 2 * 2 ^ i = 2 ^ (i + 1) := Nat.pow_succ'.symm
      have hle : 2 ^ (i + 1) ≤ 2 ^ K := Nat.pow_le_pow_right (by omega) hiK
      have hfits := ha.fits
      have hround := nttinvRound_spec hq ha (Nat.two_pow_pos i) (two_pow_split' hiK) code
      have hsub : K - 1 - i = K - (i + 1) := by omega
      dsimp only
      rw [shr_one_eq, hhalf, shl_one_eq (by omega), hdouble, hsub]
      rw [hsub] at hround
      apply ih (i + 1) hiK (by omega) _ hround.2
      intro k hk
      have hsplit := two_pow_split' (K := K) (i := i) hiK
      rw [hround.1, layerLoop_apply, if_pos (by rwa [← hsub, hsplit]), inv, ← hsub]
      apply layer_congr (m := 2 ^ (K - 1 - i))
      . rwa [hsplit]
      . rwa [hsplit]
    . next hle =>
      have hiK : i = K := by
        by_contra hne
        have : 2 ^ 1 ≤ 2 ^ (K - i) := Nat.pow_le_pow_right (by omega) (by omega)
        omega
      subst hiK
      exact ⟨hx, ha⟩

/-- After `j` rounds of the last loop the entries below `j` are scaled and reduced. -/
def ScaledAt (a nm1modq n : Nat) (y : Nat → ZMod q) (j : Nat) (mem : Memory) : Prop :=
  ArrayAt a n mem
    ∧ (∀ k < n, view q a mem k = if k < j then y k * nm1modq else y k)
    ∧ (∀ k < j, mem.mload (slot a k) < q)

theorem nttinvScale_spec {a n nm1modq : Nat} {y : Nat → ZMod q} {mem : Memory}
    (ha : ArrayAt a n mem) (hy : ∀ k < n, view q a mem k = y k)
    : ScaledAt a nm1modq n y n (forLoop 0 n (nttinvScale a q nm1modq) mem) := by
  apply forLoop_induction (Nat.zero_le n) (ScaledAt a nm1modq n y)
  . exact ⟨ha, by simpa using hy, by simp⟩
  . rintro j mem' _ hj ⟨ha', hview, hlt⟩
    unfold nttinvScale
    rw [add_mul_slot ha'.fits hj]
    refine ⟨ha'.mstore _ _, ?_, ?_⟩
    . intro k hk
      have hk' := hview k hk
      unfold view at hk' ⊢
      rw [mload_mstore_slot]
      by_cases hkj : k = j
      . subst hkj
        rw [if_neg (Nat.lt_irrefl k)] at hk'
        simp [hk']
      . have : k < j + 1 ↔ k < j := by omega
        rw [if_neg hkj, hk']
        simp only [this]
    . intro k hk
      rw [mload_mstore_slot]
      split
      . exact mulmod_lt (NeZero.pos q)
      . exact hlt k (by omega)

/-! ## On arrays -/

theorem ZKNOX_NTTINV_memory {K : Nat} {s : Storage} (hs : s.storage_q = q) (hq : q < wordSize)
    (hK : FitsMemory K) {xs : List Nat} (hxs : xs.length = 2 ^ K)
    (hle : ∀ k < 2 ^ K, xs.getD k 0 ≤ q) (code : Bytes)
    : ∃ mem, ZKNOX_NTTINV s xs code = mem.toArray freePointer
        ∧ ScaledAt freePointer s.storage_nm1modq (2 ^ K)
            (inv (table q code) K K (residues q xs)) (2 ^ K) mem := by
  have ha : ReducedAt q freePointer (2 ^ K) (Memory.ofArray freePointer xs) := by
    refine ⟨?_, ?_⟩
    . rw [← hxs]
      exact arrayAt_ofArray (by rwa [hxs])
    . simpa using hle
  have hlt := lt_256_of_fits hK
  have hspec := nttinvWhile_spec hq code (residues q xs) 256 0 (Nat.zero_le K) (by omega) _ ha
    (by intro k _; simp [view, inv, residues])
  refine ⟨_, ?_, nttinvScale_spec hspec.2.toArrayAt hspec.1⟩
  unfold ZKNOX_NTTINV
  dsimp only
  rw [ha.length, hs]
  simp only [Nat.pow_zero, Nat.sub_zero] at hspec ⊢
  rw [hspec.2.length]

theorem ZKNOX_NTTINV_length {K : Nat} {s : Storage} (hs : s.storage_q = q) (hq : q < wordSize)
    (hK : FitsMemory K) {xs : List Nat} (hxs : xs.length = 2 ^ K)
    (hle : ∀ k < 2 ^ K, xs.getD k 0 ≤ q) (code : Bytes)
    : (ZKNOX_NTTINV s xs code).length = 2 ^ K := by
  obtain ⟨mem, heq, ha, _⟩ := ZKNOX_NTTINV_memory hs hq hK hxs hle code
  rw [heq, toArray_length ha]

theorem ZKNOX_NTTINV_lt {K : Nat} {s : Storage} (hs : s.storage_q = q) (hq : q < wordSize)
    (hK : FitsMemory K) {xs : List Nat} (hxs : xs.length = 2 ^ K)
    (hle : ∀ k < 2 ^ K, xs.getD k 0 ≤ q) (code : Bytes) (k : Nat) (hk : k < 2 ^ K)
    : (ZKNOX_NTTINV s xs code).getD k 0 < q := by
  obtain ⟨mem, heq, ha, _, hlt⟩ := ZKNOX_NTTINV_memory hs hq hK hxs hle code
  rw [heq, toArray_getD ha hk]
  exact hlt k hk

/-- The inverse transform of the contract, read modulo `q`. -/
theorem ZKNOX_NTTINV_cast {K : Nat} {s : Storage} (hs : s.storage_q = q) (hq : q < wordSize)
    (hK : FitsMemory K) {xs : List Nat} (hxs : xs.length = 2 ^ K)
    (hle : ∀ k < 2 ^ K, xs.getD k 0 ≤ q) (code : Bytes) (k : Nat) (hk : k < 2 ^ K)
    : residues q (ZKNOX_NTTINV s xs code) k
        =
      inv (table q code) K K (residues q xs) k * s.storage_nm1modq := by
  obtain ⟨mem, heq, ha, hview, _⟩ := ZKNOX_NTTINV_memory hs hq hK hxs hle code
  have := hview k hk
  rw [if_pos hk] at this
  rw [← this, residues, heq, toArray_getD ha hk]
  rfl

end ZKNOX_NTT
