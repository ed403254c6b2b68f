import FalconSmartAccount.Falcon.ZknoxNtt

/-!
The assembly of `ZKNOX_NTTFW` computes the forward transform of the library, for every table and
every modulus.
-/

namespace ZKNOX_NTT

open Yul Ntt

/-- The address of entry `k` of the array at `a`. -/
def slot (a k : Nat) : Nat := a + 32 * (k + 1)

theorem slot_inj {a j k : Nat} : slot a j = slot a k ↔ j = k := by
  unfold slot
  omega

theorem slot_ne (a k : Nat) : slot a k ≠ a := by
  unfold slot
  omega

/-- The memory array at `a` has `n` entries and does not wrap around the address space. -/
structure ArrayAt (a n : Nat) (mem : Memory) : Prop where
  length : mem.mload a = n
  fits : a + 32 * (n + 1) < wordSize

@[simp]
theorem mload_mstore_slot (mem : Memory) (a j k v : Nat)
    : (mem.mstore (slot a j) v).mload (slot a k) = if k = j then v else mem.mload (slot a k) := by
  simp [Memory.mstore, slot_inj]

theorem ArrayAt.mstore {a n : Nat} {mem : Memory} (h : ArrayAt a n mem) (j v : Nat)
    : ArrayAt a n (mem.mstore (slot a j) v) := by
  refine ⟨?_, h.fits⟩
  simp [Memory.mstore, (slot_ne a j).symm, h.length]

theorem add_mul_slot {a n j : Nat} (h : a + 32 * (n + 1) < wordSize) (hj : j < n)
    : add a (mul (add j 1) 32) = slot a j := by
  unfold slot
  rw [add_eq (a := j) (by omega), mul_eq (by omega), add_eq (by omega)]
  omega

theorem slot_add {a n j t : Nat} (h : a + 32 * (n + 1) < wordSize) (hj : j + t < n)
    : add (slot a j) (mul t 32) = slot a (j + t) := by
  unfold slot
  rw [mul_eq (by omega), add_eq (by omega)]
  omega

theorem slot_sub {a n j t : Nat} (h : a + 32 * (n + 1) < wordSize) (hj : j + t < n)
    : sub (slot a (j + t)) (mul t 32) = slot a j := by
  unfold slot
  rw [mul_eq (by omega), sub_eq (by omega) (by omega)]
  omega

/-- The entries of the array at `a`, read modulo `q`. -/
def view (q a : Nat) (mem : Memory) : Nat → ZMod q := fun k => mem.mload (slot a k)

/-- The roots that the transforms read from another contract's code. -/
def table (q : Nat) (code : Bytes) : Nat → ZMod q := fun k => extcodeword code (k * 32)

/-- The entries of an array modulo `q`. -/
def residues (q : Nat) (xs : List Nat) : Nat → ZMod q := fun k => xs.getD k 0

variable {q : Nat} [NeZero q]

theorem nttfwButterfly_spec {a n t j : Nat} {mem : Memory} (hq : q < wordSize)
    (ha : ArrayAt a n mem) (ht : 0 < t) (hj : j + t < n) (code : Bytes) (m i : Nat)
    : view q a (nttfwButterfly a t q (extcodeword code ((m + i) * 32)) j mem)
        =
      pairStep (fwButterfly (table q code) m i) t j (view q a mem)
        ∧
      ArrayAt a n (nttfwButterfly a t q (extcodeword code ((m + i) * 32)) j mem) := by
  unfold nttfwButterfly
  dsimp only
  rw [add_mul_slot ha.fits (by omega), slot_add ha.fits hj, slot_sub ha.fits hj]
  refine ⟨?_, (ha.mstore _ _).mstore _ _⟩
  funext k
  unfold view pairStep fwButterfly table
  rw [mload_mstore_slot, mload_mstore_slot]
  by_cases hk : k = j
  . simp [hk]
  . by_cases hkt : k = j + t
    . have hV : mulmod (mem.mload (slot a (j + t))) (extcodeword code ((m + i) * 32)) q ≤ q :=
        Nat.le_of_lt (mulmod_lt (NeZero.pos q))
      rw [if_neg hk, if_pos hkt, if_neg hk, if_pos hkt, cast_addmod, cast_sub_modulus hV hq]
      simp only [cast_mulmod]
      ring
    . simp [hk, hkt]

/-- The bounds that a block of an `n`-entry array meets. -/
theorem block_bounds {n m t i : Nat} (hn : 2 * t * m = n) (hi : i < m)
    : 2 * (i * t) + 2 * t ≤ n := by
  have : 2 * t * (i + 1) ≤ 2 * t * m := Nat.mul_le_mul_left _ hi
  have : 2 * t * (i + 1) = 2 * (i * t) + 2 * t := by ring
  omega

theorem block_start {n m t i : Nat} (hw : n < wordSize) (hn : 2 * t * m = n) (hi : i < m)
    : shl 1 (mul i t) = 2 * (i * t) := by
  have := block_bounds hn hi
  rw [mul_eq (by omega), shl_one_eq (by omega)]

/-- `j2 + 1`, computed with a `sub` that may not wrap. -/
theorem block_end {j1 t : Nat} (ht : 0 < t) (hw : j1 + t < wordSize)
    : add (sub (add j1 t) 1) 1 = j1 + t := by
  rw [add_eq hw, sub_eq (by omega) (by omega), add_eq (by omega)]
  omega

theorem index_offset {i m n : Nat} (hw : 32 * n < wordSize) (hi : i + m < n)
    : mul (add i m) 32 = (m + i) * 32 := by
  rw [add_eq (by omega), mul_eq (by omega), Nat.add_comm]

theorem nttfwBlock_spec {a n m t i : Nat} {mem : Memory} (hq : q < wordSize)
    (ha : ArrayAt a n mem) (ht : 0 < t) (hn : 2 * t * m = n) (hi : i < m) (code : Bytes)
    : view q a (nttfwBlock code a m t q i mem)
        =
      forLoop (2 * (i * t)) (2 * (i * t) + t)
        (fun j x => pairStep (fwButterfly (table q code) m i) t j x) (view q a mem)
        ∧
      ArrayAt a n (nttfwBlock code a m t q i mem) := by
  have hb := block_bounds hn hi
  have hfits := ha.fits
  have hm : i + m < n := by nlinarith
  unfold nttfwBlock
  dsimp only
  rw [block_start (by omega) hn hi, block_end ht (by omega), index_offset (by omega) hm]
  apply forLoop_hom (Nat.le_add_right _ t) (view q a) (fun _ mem => ArrayAt a n mem) ha
  intro j mem' hlo hhi ha'
  exact nttfwButterfly_spec hq ha' ht (by omega) code m i

theorem nttfwRound_spec {a n m t : Nat} {mem : Memory} (hq : q < wordSize)
    (ha : ArrayAt a n mem) (ht : 0 < t) (hn : 2 * t * m = n) (code : Bytes)
    : view q a (forLoop 0 m (nttfwBlock code a m t q) mem)
        =
      layerLoop (fwButterfly (table q code) m) m t (view q a mem)
        ∧
      ArrayAt a n (forLoop 0 m (nttfwBlock code a m t q) mem) := by
  apply forLoop_hom (Nat.zero_le m) (view q a) (fun _ mem => ArrayAt a n mem) ha
  intro i mem' _ hi ha'
  exact nttfwBlock_spec hq ha' ht hn hi code

/-- The loop at the start of round `i`: `i` layers of the transform of `x` are done. -/
theorem nttfwWhile_spec {a K : Nat} (hq : q < wordSize) (code : Bytes) (x : Nat → ZMod q)
    (fuel i : Nat) (hi : i ≤ K) (hfuel : K - i ≤ fuel) (mem : Memory) (ha : ArrayAt a (2 ^ K) mem)
    (hx : ∀ k < 2 ^ K, view q a mem k = fw (table q code) K i x k)
    : (∀ k < 2 ^ K,
        view q a (nttfwWhile code a (2 ^ K) q fuel (2 ^ (K - i)) (2 ^ i) mem) k
          =
        fw (table q code) K K x k)
        ∧
      ArrayAt a (2 ^ K) (nttfwWhile code a (2 ^ K) q fuel (2 ^ (K - i)) (2 ^ i) mem) := by
  induction fuel generalizing i mem with
  | zero =>
    have : i = K := by omega
    subst this
    exact ⟨hx, ha⟩
  | succ fuel ih =>
    unfold nttfwWhile
    split
    . next hlt =>
      have hiK : i < K := (Nat.pow_lt_pow_iff_right (by omega)).mp hlt
      have hhalf : 2 ^ (K - i) / 2 = 2 ^ (K - 1 - i) := by
        have : K - i = (K - 1 - i) + 1 := by omega
        rw [this, Nat.pow_succ, Nat.mul_div_cancel _ (by omega)]
      have hdouble : 2 * 2 ^ i = 2 ^ (i + 1) := Nat.pow_succ'.symm
      have hle : 2 ^ (i + 1) ≤ 2 ^ K := Nat.pow_le_pow_right (by omega) hiK
      have hfits := ha.fits
      have hround := nttfwRound_spec hq ha (Nat.two_pow_pos _) (two_pow_split hiK) code
      have hsub : K - 1 - i = K - (i + 1) := by omega
      dsimp only
      rw [shr_one_eq, hhalf, shl_one_eq (by omega), hdouble, hsub]
      rw [hsub] at hround
      apply ih (i + 1) hiK (by omega) _ hround.2
      intro k hk
      have hsplit := two_pow_split (K := K) (i := i) hiK
      rw [hround.1, layerLoop_apply, if_pos (by rwa [← hsub, hsplit]), fw, ← hsub]
      apply layer_congr (m := 2 ^ i)
      . rwa [hsplit]
      . rwa [hsplit]
    . next hge =>
      have hiK : i = K := by
        by_contra hne
        exact hge (Nat.pow_lt_pow_right (by omega) (by omega))
      subst hiK
      exact ⟨hx, ha⟩

/-! ## On arrays -/

theorem arrayAt_ofArray {a : Nat} {xs : List Nat} (h : a + 32 * (xs.length + 1) < wordSize)
    : ArrayAt a xs.length (Memory.ofArray a xs) :=
  ⟨by simp [Memory.ofArray], h⟩

@[simp]
theorem mload_ofArray (a : Nat) (xs : List Nat) (k : Nat)
    : (Memory.ofArray a xs).mload (slot a k) = xs.getD k 0 := by
  have : (slot a k - a) / 32 - 1 = k := by
    unfold slot
    omega
  simp [Memory.ofArray, slot_ne, this]

theorem toArray_length {a n : Nat} {mem : Memory} (h : ArrayAt a n mem)
    : (mem.toArray a).length = n := by
  simp [Memory.toArray, h.length]

theorem toArray_getD {a n : Nat} {mem : Memory} (h : ArrayAt a n mem) {k : Nat} (hk : k < n)
    : (mem.toArray a).getD k 0 = mem.mload (slot a k) := by
  simp [Memory.toArray, h.length, hk, slot]

/-- Arrays of `2 ^ K` words fit in memory. -/
abbrev FitsMemory (K : Nat) : Prop := freePointer + 32 * (2 ^ K + 1) < wordSize

theorem lt_256_of_fits {K : Nat} (h : FitsMemory K) : K < 256 := by
  by_contra hK
  have : 2 ^ 256 ≤ 2 ^ K := Nat.pow_le_pow_right (by omega) (by omega)
  unfold FitsMemory wordSize at h
  omega

theorem ZKNOX_NTTFW_memory {K : Nat} {s : Storage} (hs : s.storage_q = q) (hq : q < wordSize)
    (hK : FitsMemory K) {xs : List Nat} (hxs : xs.length = 2 ^ K) (code : Bytes)
    : ∃ mem, ZKNOX_NTTFW s xs code = mem.toArray freePointer
        ∧ ArrayAt freePointer (2 ^ K) mem
        ∧ ∀ k < 2 ^ K, view q freePointer mem k
            = fw (table q code) K K (residues q xs) k := by
  have ha : ArrayAt freePointer (2 ^ K) (Memory.ofArray freePointer xs) := by
    rw [← hxs]
    exact arrayAt_ofArray (by rwa [hxs])
  have hlt := lt_256_of_fits hK
  have hspec := nttfwWhile_spec hq code (residues q xs) 256 0 (Nat.zero_le K) (by omega) _ ha
    (by intro k _; simp [view, fw, residues])
  refine ⟨_, ?_, hspec.2, hspec.1⟩
  unfold ZKNOX_NTTFW
  dsimp only
  rw [ha.length, hs, Nat.sub_zero, Nat.pow_zero]

theorem ZKNOX_NTTFW_length {K : Nat} {s : Storage} (hs : s.storage_q = q) (hq : q < wordSize)
    (hK : FitsMemory K) {xs : List Nat} (hxs : xs.length = 2 ^ K) (code : Bytes)
    : (ZKNOX_NTTFW s xs code).length = 2 ^ K := by
  obtain ⟨mem, heq, ha, _⟩ := ZKNOX_NTTFW_memory hs hq hK hxs code
  rw [heq, toArray_length ha]

/-- The forward transform of the contract, read modulo `q`. -/
theorem ZKNOX_NTTFW_cast {K : Nat} {s : Storage} (hs : s.storage_q = q) (hq : q < wordSize)
    (hK : FitsMemory K) {xs : List Nat} (hxs : xs.length = 2 ^ K) (code : Bytes) (k : Nat)
    (hk : k < 2 ^ K)
    : residues q (ZKNOX_NTTFW s xs code) k = fw (table q code) K K (residues q xs) k := by
  obtain ⟨mem, heq, ha, hview⟩ := ZKNOX_NTTFW_memory hs hq hK hxs code
  unfold residues at hview ⊢
  rw [heq, toArray_getD ha hk, ← hview k hk]
  rfl

end ZKNOX_NTT
