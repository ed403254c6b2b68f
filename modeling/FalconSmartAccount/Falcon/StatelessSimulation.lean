import FalconSmartAccount.Falcon.ZknoxNttMul
import FalconSmartAccount.Falcon.ZknoxNttStateless

/-!
The assembly of `ZKNOX_NTT` simulates its plain Solidity twin: the array in memory and the checked
array hold the same entries after every butterfly, so both transforms return the same array and the
checked one never reverts.
-/

namespace ZKNOX_NTT

open Yul Ntt Abi

/-- A checked loop keeps up with one on words as long as the relation `R` is kept by each round. -/
theorem forLoop_simulation {lo hi : Nat} (hle : lo ≤ hi) (R : Nat → σ → τ → Prop)
    {f : Nat → σ → σ} {g : Nat → τ → Checked τ} {s : σ} {x : τ} (hinit : R lo s x)
    (hstep : ∀ i s x, lo ≤ i → i < hi → R i s x → ∃ y, g i x = .ok y ∧ R (i + 1) (f i s) y)
    : ∃ y, Stateless.forLoop lo hi g x = .ok y ∧ R hi (forLoop lo hi f s) y := by
  induction hi, hle using Nat.le_induction with
  | base =>
    refine ⟨x, ?_, ?_⟩
    . simp [Stateless.forLoop, pure, Except.pure]
    . rwa [forLoop_of_ge (Nat.le_refl lo)]
  | succ hi hle ih =>
    obtain ⟨y, hy, hR⟩ := ih (fun i s x h1 h2 => hstep i s x h1 (Nat.lt_succ_of_lt h2))
    obtain ⟨z, hz, hR'⟩ := hstep hi _ y hle (Nat.lt_succ_self hi) hR
    refine ⟨z, ?_, ?_⟩
    . have hrange : List.range' lo (hi + 1 - lo) = List.range' lo (hi - lo) ++ [hi] := by
        have hlen : hi + 1 - lo = (hi - lo) + 1 := by omega
        have hlast : lo + (hi - lo) = hi := by omega
        rw [hlen, List.range'_concat, Nat.one_mul, hlast]
      unfold Stateless.forLoop at hy ⊢
      rw [hrange, List.foldlM_append, hy, Checked.ok_bind, List.foldlM_cons, hz, Checked.ok_bind]
      rfl
    . rwa [forLoop_succ hle]

/-- The array at `a` in memory is `xs`. -/
structure Encodes (a n : Nat) (mem : Memory) (xs : List Nat) : Prop extends ArrayAt a n mem where
  size : xs.length = n
  entry : ∀ k < n, mem.mload (slot a k) = xs.getD k 0

namespace Encodes

variable {a n : Nat} {mem : Memory} {xs : List Nat}

theorem set (h : Encodes a n mem xs) (j v : Nat) : Encodes a n (mem.mstore (slot a j) v) (xs.set j v) := by
  refine ⟨h.toArrayAt.mstore j v, by rw [List.length_set, h.size], ?_⟩
  intro k hk
  have hk' : k < xs.length := by rwa [h.size]
  rw [mload_mstore_slot, h.entry k hk]
  by_cases hkj : k = j
  . subst hkj
    simp [hk']
  . have hjk : ¬j = k := fun h => hkj h.symm
    simp [hk', hkj, hjk]

theorem get (h : Encodes a n mem xs) {k : Nat} (hk : k < n)
    : Solidity.get xs k = .ok (mem.mload (slot a k)) := by
  rw [h.entry k hk, Solidity.get_ok (by rwa [h.size])]

theorem set_ok (h : Encodes a n mem xs) {k v : Nat} (hk : k < n)
    : Solidity.set xs k v = .ok (xs.set k v) :=
  Solidity.set_ok (by rwa [h.size])

theorem ofArray {a : Nat} {xs : List Nat} (h : a + 32 * (xs.length + 1) < wordSize)
    : Encodes a xs.length (Memory.ofArray a xs) xs :=
  ⟨arrayAt_ofArray h, rfl, fun k _ => mload_ofArray a xs k⟩

theorem toArray (h : Encodes a n mem xs) : mem.toArray a = xs := by
  apply List.ext_getElem
  . rw [toArray_length h.toArrayAt, h.size]
  . intro k h1 h2
    have hk : k < n := by rwa [← h.size]
    have := toArray_getD h.toArrayAt hk
    rwa [h.entry k hk, List.getD_eq_getElem _ _ h1, List.getD_eq_getElem _ _ h2] at this

/-- Stores to different entries commute. -/
theorem mstore_comm {i j u v : Nat} (hij : i ≠ j)
    : (mem.mstore (slot a i) u).mstore (slot a j) v = (mem.mstore (slot a j) v).mstore (slot a i) u := by
  unfold Memory.mstore
  congr 1
  funext p
  by_cases hi : p = slot a i
  . have hj : p ≠ slot a j := fun h => hij (slot_inj.mp (hi.symm.trans h))
    simp [hi]
    intro h
    exact absurd (slot_inj.mp h) hij
  . simp [hi]

end Encodes

variable {q : Nat} [NeZero q]

/-! ## Forward transform -/

theorem nttfwButterfly_simulation {a n t j S : Nat} {mem : Memory} {xs : List Nat}
    (hq : q < wordSize) (h : Encodes a n mem xs) (ht : 0 < t) (hj : j + t < n)
    : ∃ ys, Stateless.nttfwButterfly t q S j xs = .ok ys
        ∧ Encodes a n (nttfwButterfly a t q S j mem) ys := by
  have hpos : 0 < q := NeZero.pos q
  have hfits := h.fits
  have hV : mulmod (mem.mload (slot a (j + t))) S q ≤ q := Nat.le_of_lt (mulmod_lt hpos)
  unfold Stateless.nttfwButterfly nttfwButterfly
  dsimp only
  rw [add_mul_slot h.fits (by omega), slot_add h.fits hj, slot_sub h.fits hj,
    Encodes.mstore_comm (by omega), sub_eq hV hq, h.get (by omega), Checked.ok_bind,
    Solidity.add_ok (by omega), Checked.ok_bind, h.get hj, Checked.ok_bind,
    Solidity.mulmod_ok hpos, Checked.ok_bind, Solidity.addmod_ok hpos, Checked.ok_bind,
    h.set_ok (by omega), Checked.ok_bind, Checked.ok_bind, Solidity.sub_ok hV, Checked.ok_bind,
    Solidity.addmod_ok hpos, Checked.ok_bind, (h.set _ _).set_ok hj]
  exact ⟨_, rfl, (h.set _ _).set _ _⟩

/-- A block reads its root at `m + i`, in the other contract's code or in storage. -/
theorem nttfwBlock_simulation {a n m t i : Nat} {mem : Memory} {xs : List Nat} {code : Bytes}
    (hq : q < wordSize) (hcode : HoldsTable code psi_rev) (h : Encodes a n mem xs) (hn1024 : n ≤ 1024)
    (ht : 0 < t) (hn : 2 * t * m = n) (hi : i < m)
    : ∃ ys, Stateless.nttfwBlock m t q i xs = .ok ys
        ∧ Encodes a n (nttfwBlock code a m t q i mem) ys := by
  have hb := block_bounds hn hi
  have hfits := h.fits
  have hm : i + m < n := by nlinarith
  have hmul : i * t < wordSize := by omega
  have hstart : shl 1 (i * t) = 2 * (i * t) := shl_one_eq (by omega)
  have hlen : m + i < psi_rev.length := by
    rw [psi_rev_length]
    omega
  unfold Stateless.nttfwBlock nttfwBlock
  dsimp only
  rw [block_start (by omega) hn hi, block_end ht (by omega), index_offset (by omega) hm,
    hcode _ (by omega), Solidity.mul_ok hmul, Checked.ok_bind, hstart,
    Solidity.add_ok (by omega), Checked.ok_bind, Solidity.sub_ok (by omega), Checked.ok_bind,
    Solidity.add_ok (by omega), Checked.ok_bind, Solidity.get_ok hlen, Checked.ok_bind,
    Solidity.add_ok (by omega), Checked.ok_bind, Nat.sub_add_cancel (by omega)]
  apply forLoop_simulation (Nat.le_add_right _ t) (fun _ => Encodes a n) h
  intro j mem' xs' hlo hhi h'
  exact nttfwButterfly_simulation hq h' ht (by omega)

theorem nttfwWhile_simulation {a K : Nat} {code : Bytes} (hq : q < wordSize)
    (hcode : HoldsTable code psi_rev) (hK : K ≤ 10) (fuel i : Nat) (hi : i ≤ K)
    (hfuel : K - i < fuel) (mem : Memory) (xs : List Nat) (h : Encodes a (2 ^ K) mem xs)
    : ∃ ys, Stateless.nttfwWhile (2 ^ K) q fuel (2 ^ (K - i)) (2 ^ i) xs = .ok ys
        ∧ Encodes a (2 ^ K) (nttfwWhile code a (2 ^ K) q fuel (2 ^ (K - i)) (2 ^ i) mem) ys := by
  have hpow : 2 ^ K ≤ 1024 := Nat.pow_le_pow_right (j := 10) (by omega) hK
  have hfits := h.fits
  induction fuel generalizing i mem xs with
  | zero => omega
  | succ fuel ih =>
    unfold Stateless.nttfwWhile nttfwWhile
    by_cases hlt : 2 ^ i < 2 ^ K
    . have hiK : i < K := (Nat.pow_lt_pow_iff_right (by omega)).mp hlt
      have hhalf : 2 ^ (K - i) / 2 = 2 ^ (K - (i + 1)) := by
        have : K - i = (K - (i + 1)) + 1 := by omega
        rw [this, Nat.pow_succ, Nat.mul_div_cancel _ (by omega)]
      have hdouble : 2 * 2 ^ i = 2 ^ (i + 1) := Nat.pow_succ'.symm
      have hle : 2 ^ (i + 1) ≤ 2 ^ K := Nat.pow_le_pow_right (by omega) hiK
      have hsplit := two_pow_split hiK
      have hsub : K - 1 - i = K - (i + 1) := by omega
      rw [hsub] at hsplit
      obtain ⟨ys, hys, h'⟩ := forLoop_simulation (Nat.zero_le (2 ^ i)) (fun _ => Encodes a (2 ^ K))
        (f := nttfwBlock code a (2 ^ i) (2 ^ (K - (i + 1))) q) h
        (fun j mem' xs' _ hj h' => nttfwBlock_simulation hq hcode h' hpow (Nat.two_pow_pos _) hsplit hj)
      rw [if_pos hlt, if_pos hlt]
      dsimp only
      rw [shr_one_eq, hhalf, shl_one_eq (by omega), hdouble, hys, Checked.ok_bind]
      exact ih (i + 1) hiK (by omega) _ ys h'
    . rw [if_neg hlt, if_neg hlt]
      exact ⟨xs, rfl, h⟩

/-- The two forward transforms agree, whatever the entries are. -/
theorem ZKNOX_NTTFW_stateless {K : Nat} {s : Storage} {code : Bytes} (hs : s.storage_q = q)
    (hq : q < wordSize) (hcode : HoldsTable code psi_rev) (hK : K ≤ 10) {xs : List Nat}
    (hxs : xs.length = 2 ^ K)
    : Stateless.ZKNOX_NTTFW xs q = .ok (ZKNOX_NTTFW s xs code) := by
  have hpow : 2 ^ K ≤ 1024 := Nat.pow_le_pow_right (j := 10) (by omega) hK
  have h : Encodes freePointer (2 ^ K) (Memory.ofArray freePointer xs) xs := by
    rw [← hxs]
    apply Encodes.ofArray
    unfold freePointer wordSize
    omega
  obtain ⟨ys, hys, h'⟩ := nttfwWhile_simulation hq hcode hK 256 0 (Nat.zero_le K) (by omega) _ xs h
  unfold Stateless.ZKNOX_NTTFW ZKNOX_NTTFW
  dsimp only
  rw [Nat.sub_zero, Nat.pow_zero] at hys h'
  rw [hxs, hys, h.length, hs, h'.toArray]

/-! ## Inverse transform -/

theorem nttinvButterfly_simulation {a n t j S : Nat} {mem : Memory} {xs : List Nat}
    (hq : q < wordSize) (h : Encodes a n mem xs) (hle : mem.mload (slot a (j + t)) ≤ q) (ht : 0 < t)
    (hj : j + t < n)
    : ∃ ys, Stateless.nttinvButterfly t q S j xs = .ok ys
        ∧ Encodes a n (nttinvButterfly a t q S j mem) ys := by
  have hpos : 0 < q := NeZero.pos q
  have hfits := h.fits
  unfold Stateless.nttinvButterfly nttinvButterfly
  dsimp only
  rw [add_mul_slot h.fits (by omega), slot_add h.fits hj, slot_sub h.fits hj,
    Encodes.mstore_comm (by omega), sub_eq hle hq, h.get (by omega), Checked.ok_bind,
    Solidity.add_ok (by omega), Checked.ok_bind, h.get hj, Checked.ok_bind,
    Solidity.addmod_ok hpos, Checked.ok_bind, h.set_ok (by omega), Checked.ok_bind, Checked.ok_bind,
    Solidity.sub_ok hle, Checked.ok_bind, Solidity.addmod_ok hpos, Checked.ok_bind,
    Solidity.mulmod_ok hpos, Checked.ok_bind, (h.set _ _).set_ok hj]
  exact ⟨_, rfl, (h.set _ _).set _ _⟩

theorem nttinvBlock_simulation {a n h t i : Nat} {code : Bytes} {s : Nat × Memory}
    {x : Nat × List Nat} (hq : q < wordSize) (hcode : HoldsTable code psi_inv_rev)
    (hs : s.1 = 2 * (i * t)) (hx : x.1 = s.1) (ha : ReducedAt q a n s.2) (hmem : Encodes a n s.2 x.2)
    (hn1024 : n ≤ 1024) (ht : 0 < t) (hn : 2 * t * h = n) (hi : i < h)
    : ∃ y, Stateless.nttinvBlock h t q i x = .ok y ∧ y.1 = (nttinvBlock code a h t q i s).1
        ∧ Encodes a n (nttinvBlock code a h t q i s).2 y.2 := by
  have hb := block_bounds hn hi
  have hfits := ha.fits
  have hm : i + h < n := by nlinarith
  have hlen : h + i < psi_inv_rev.length := by
    rw [psi_inv_rev_length]
    omega
  have hdouble : shl 1 t = 2 * t := shl_one_eq (by omega)
  unfold Stateless.nttinvBlock nttinvBlock
  dsimp only
  rw [hx, hs, block_end ht (by omega), index_offset (by omega) hm, hdouble, add_eq (by omega),
    Solidity.add_ok (by omega), Checked.ok_bind, Solidity.sub_ok (by omega), Checked.ok_bind,
    Solidity.add_ok (by omega), Checked.ok_bind, Solidity.get_ok hlen, Checked.ok_bind,
    Solidity.add_ok (by omega), Checked.ok_bind, Nat.sub_add_cancel (by omega)]
  have hroot : extcodeword code ((h + i) * 32) = psi_inv_rev.getD (h + i) 0 := hcode _ (by omega)
  obtain ⟨ys, hys, hred, hmem'⟩ := forLoop_simulation (Nat.le_add_right (2 * (i * t)) t)
    (fun _ mem xs => ReducedAt q a n mem ∧ Encodes a n mem xs)
    (f := nttinvButterfly a t q (extcodeword code ((h + i) * 32)))
    (g := Stateless.nttinvButterfly t q (psi_inv_rev.getD (h + i) 0)) ⟨ha, hmem⟩ (by
      rintro j mem xs hlo hhi ⟨hred, hmem'⟩
      have hj : j + t < n := by omega
      obtain ⟨ys, hys, h'⟩ := nttinvButterfly_simulation (S := psi_inv_rev.getD (h + i) 0) hq hmem'
        (hred.le_modulus _ hj) ht hj
      have hred' := (nttinvButterfly_spec hq hred ht hj code h i).2
      rw [hroot] at hred' ⊢
      exact ⟨ys, hys, hred', h'⟩)
  rw [hys, Checked.ok_bind, Solidity.add_ok (by omega)]
  exact ⟨_, rfl, rfl, hmem'⟩

theorem nttinvWhile_simulation {a K : Nat} {code : Bytes} (hq : q < wordSize)
    (hcode : HoldsTable code psi_inv_rev) (hK : K ≤ 10) (fuel i : Nat) (hi : i ≤ K)
    (hfuel : K - i < fuel) (mem : Memory) (xs : List Nat) (ha : ReducedAt q a (2 ^ K) mem)
    (h : Encodes a (2 ^ K) mem xs)
    : ∃ ys, Stateless.nttinvWhile q fuel (2 ^ i) (2 ^ (K - i)) xs = .ok ys
        ∧ Encodes a (2 ^ K) (nttinvWhile code a q fuel (2 ^ i) (2 ^ (K - i)) mem) ys := by
  have hpow : 2 ^ K ≤ 1024 := Nat.pow_le_pow_right (j := 10) (by omega) hK
  have hfits := h.fits
  induction fuel generalizing i mem xs with
  | zero => omega
  | succ fuel ih =>
    unfold Stateless.nttinvWhile nttinvWhile
    by_cases hgt : 2 ^ (K - i) > 1
    . have hiK : i < K := by
        by_contra hne
        have : K - i = 0 := by omega
        simp [this] at hgt
      have hhalf : 2 ^ (K - i) / 2 = 2 ^ (K - (i + 1)) := by
        have : K - i = (K - (i + 1)) + 1 := by omega
        rw [this, Nat.pow_succ, Nat.mul_div_cancel _ (by omega)]
      have hdouble : 2 * 2 ^ i = 2 ^ (i + 1) := Nat.pow_succ'.symm
      have hle : 2 ^ (i + 1) ≤ 2 ^ K := Nat.pow_le_pow_right (by omega) hiK
      have hsplit := two_pow_split' hiK
      have hsub : K - 1 - i = K - (i + 1) := by omega
      rw [hsub] at hsplit
      obtain ⟨⟨j1, ys⟩, hys, hj1, hstart, hred, hmem⟩ := forLoop_simulation
        (Nat.zero_le (2 ^ (K - (i + 1))))
        (fun j (s : Nat × Memory) (x : Nat × List Nat) => x.1 = s.1 ∧ s.1 = 2 * (j * 2 ^ i)
          ∧ ReducedAt q a (2 ^ K) s.2 ∧ Encodes a (2 ^ K) s.2 x.2)
        (f := nttinvBlock code a (2 ^ (K - (i + 1))) (2 ^ i) q) (s := (0, mem)) (x := (0, xs))
        ⟨rfl, by simp, ha, h⟩ (by
          rintro j s x _ hj ⟨hx, hs, hred, hmem⟩
          obtain ⟨y, hy, hy1, hmem'⟩ := nttinvBlock_simulation hq hcode hs hx hred hmem hpow
            (Nat.two_pow_pos _) hsplit hj
          have hspec := nttinvBlock_spec hq hs hred (Nat.two_pow_pos _) hsplit hj code
          exact ⟨y, hy, hy1, hspec.2.1, hspec.2.2, hmem'⟩)
      rw [if_pos hgt, if_pos hgt]
      dsimp only
      rw [shr_one_eq, hhalf, shl_one_eq (by omega), hdouble, hys, Checked.ok_bind]
      exact ih (i + 1) hiK (by omega) _ ys hred hmem
    . rw [if_neg hgt, if_neg hgt]
      exact ⟨xs, rfl, h⟩

theorem nttinvScale_simulation {a n j nm1modq : Nat} {mem : Memory} {xs : List Nat}
    (h : Encodes a n mem xs) (hj : j < n)
    : ∃ ys, (do Solidity.set xs j (← Solidity.mulmod (← Solidity.get xs j) nm1modq q)) = .ok ys
        ∧ Encodes a n (nttinvScale a q nm1modq j mem) ys := by
  unfold nttinvScale
  dsimp only
  rw [add_mul_slot h.fits hj, h.get hj, Checked.ok_bind, Solidity.mulmod_ok (NeZero.pos q),
    Checked.ok_bind, h.set_ok hj]
  exact ⟨_, rfl, h.set _ _⟩

/-- The two inverse transforms agree on entries that `q` can be reduced by. -/
theorem ZKNOX_NTTINV_stateless {K : Nat} {s : Storage} {code : Bytes} (hs : s.storage_q = q)
    (hq : q < wordSize) (hcode : HoldsTable code psi_inv_rev) (hK : K ≤ 10) {xs : List Nat}
    (hxs : xs.length = 2 ^ K) (hle : ∀ k < 2 ^ K, xs.getD k 0 ≤ q)
    : Stateless.ZKNOX_NTTINV s xs q = .ok (ZKNOX_NTTINV s xs code) := by
  have hpow : 2 ^ K ≤ 1024 := Nat.pow_le_pow_right (j := 10) (by omega) hK
  have h : Encodes freePointer (2 ^ K) (Memory.ofArray freePointer xs) xs := by
    rw [← hxs]
    apply Encodes.ofArray
    unfold freePointer wordSize
    omega
  have ha : ReducedAt q freePointer (2 ^ K) (Memory.ofArray freePointer xs) :=
    ⟨h.toArrayAt, by simpa using hle⟩
  obtain ⟨ys, hys, h'⟩ :=
    nttinvWhile_simulation hq hcode hK 256 0 (Nat.zero_le K) (by omega) _ xs ha h
  rw [Nat.sub_zero, Nat.pow_zero] at hys h'
  obtain ⟨zs, hzs, h''⟩ := forLoop_simulation (Nat.zero_le (2 ^ K))
    (fun _ => Encodes freePointer (2 ^ K))
    (f := nttinvScale freePointer q s.storage_nm1modq) h'
    (fun j mem xs _ hj h => nttinvScale_simulation h hj)
  unfold Stateless.ZKNOX_NTTINV ZKNOX_NTTINV
  dsimp only
  rw [hxs, hys, Checked.ok_bind, h'.size, hzs, h.length, hs, h'.length, h''.toArray]

/-! ## Products -/

section Products

variable {K : Nat} {code : Address → Bytes} {s : Storage} (hs : s.storage_q = falconQ)
  (hpsi : HoldsTable (code s.o_psirev) psi_rev) (hinv : HoldsTable (code s.o_psi_inv_rev) psi_inv_rev)
  (hK : K ≤ 10)

include hs hpsi hinv hK

theorem ZKNOX_NTT_HALFMUL_stateless {a : List Nat} (ha : a.length = 2 ^ K) (b : List Nat)
    : ZKNOX_NTT_HALFMUL code s a b = Stateless.ZKNOX_NTT_HALFMUL s a b falconQ := by
  have hpow : 2 ^ K ≤ 1024 := Nat.pow_le_pow_right (j := 10) (by omega) hK
  have hfits : FitsMemory K := by
    unfold FitsMemory freePointer wordSize
    omega
  have hlen := ZKNOX_NTTFW_length hs falconQ_lt hfits ha (code s.o_psirev)
  unfold ZKNOX_NTT_HALFMUL Stateless.ZKNOX_NTT_HALFMUL
  rw [hs, ZKNOX_NTTFW_stateless hs falconQ_lt hpsi hK ha, Checked.ok_bind]
  by_cases hb : 2 ^ K = b.length
  . obtain ⟨p, hp, hplen, hget⟩ := ZKNOX_VECMULMOD_spec (q := falconQ) (by norm_num)
      (hlen.trans hb)
    rw [hlen] at hplen hget
    have hle : ∀ k < 2 ^ K, p.getD k 0 ≤ falconQ := by
      intro k hk
      rw [hget k hk]
      exact Nat.le_of_lt (mulmod_lt (by norm_num))
    rw [hp, Checked.ok_bind, Checked.ok_bind,
      ZKNOX_NTTINV_stateless hs falconQ_lt hinv hK hplen hle, Checked.pure_eq]
  . have hassert : Solidity.assert ((ZKNOX_NTTFW s a (code s.o_psirev)).length == b.length)
        = .error .assertion := by
      rw [hlen, beq_eq_false_iff_ne.mpr hb]
      rfl
    unfold ZKNOX_VECMULMOD
    rw [hassert]
    rfl

theorem ZKNOX_NTT_MUL_stateless {a b : List Nat} (ha : a.length = 2 ^ K) {L : Nat} (hL : L ≤ 10)
    (hb : b.length = 2 ^ L)
    : ZKNOX_NTT_MUL code s a b = Stateless.mul_NTTPoly s a b falconQ := by
  have hmul := ZKNOX_NTT_HALFMUL_stateless hs hpsi hinv hK ha (ZKNOX_NTTFW s b (code s.o_psirev))
  unfold Stateless.mul_NTTPoly
  rw [ZKNOX_NTTFW_stateless hs falconQ_lt hpsi hL hb]
  exact hmul

end Products

theorem stateful_eq_stateless (code : Address → Bytes) {s : Storage} (hs : s.storage_q = 12289)
    : (∀ apsirev, HoldsTable (code apsirev) psi_rev →
        ∀ K ≤ 10, ∀ a : List Nat, a.length = 2 ^ K →
          Stateless.ZKNOX_NTTFW a 12289 = .ok (ZKNOX_NTTFW s a (code apsirev)))
        ∧
      (∀ apsiinvrev, HoldsTable (code apsiinvrev) psi_inv_rev →
        ∀ K ≤ 10, ∀ a : List Nat, a.length = 2 ^ K → (∀ x ∈ a, x ≤ 12289) →
          Stateless.ZKNOX_NTTINV s a 12289 = .ok (ZKNOX_NTTINV s a (code apsiinvrev)))
        ∧
      (HoldsTable (code s.o_psirev) psi_rev → HoldsTable (code s.o_psi_inv_rev) psi_inv_rev →
        ∀ K ≤ 10, ∀ a : List Nat, a.length = 2 ^ K →
          (∀ L ≤ 10, ∀ b : List Nat, b.length = 2 ^ L →
            ZKNOX_NTT_MUL code s a b = Stateless.mul_NTTPoly s a b 12289)
            ∧
          (∀ b, ZKNOX_NTT_HALFMUL code s a b = Stateless.ZKNOX_NTT_HALFMUL s a b 12289)) := by
  refine ⟨?_, ?_, ?_⟩
  . intro apsirev hcode K hK a ha
    exact ZKNOX_NTTFW_stateless hs falconQ_lt hcode hK ha
  . intro apsiinvrev hcode K hK a ha hle
    apply ZKNOX_NTTINV_stateless hs falconQ_lt hcode hK ha
    intro k hk
    rw [List.getD_eq_getElem _ _ (by rwa [ha])]
    exact hle _ (List.getElem_mem _)
  . intro hpsi hinv K hK a ha
    exact ⟨fun L hL b hb => ZKNOX_NTT_MUL_stateless hs hpsi hinv hK ha hL hb,
      ZKNOX_NTT_HALFMUL_stateless hs hpsi hinv hK ha⟩

theorem stateful_eq_stateless_tableBytes
    : let code := fun a : Address => tableBytes (if a = 1 then psi_rev else psi_inv_rev)
      let s := constructor 1 2 12289 12265
      Stateless.ZKNOX_NTTFW [5, 2 ^ 255] 12289 = .ok (ZKNOX_NTTFW s [5, 2 ^ 255] (code s.o_psirev)) := by
  intro code s
  have hsetup : CorrectSetup code s := correctSetup_tableBytes
  exact (stateful_eq_stateless code hsetup.storage_q).1 s.o_psirev hsetup.psi_rev 1 (by decide) _ rfl

/-- The stateless product, with the stateful one on the same tables as its twin. -/
theorem mul_NTTPoly_represents {K : Nat} {code : Address → Bytes} {s : Storage}
    (hs : s.storage_q = falconQ) (hpsi : HoldsTable (code s.o_psirev) psi_rev)
    (hinv : HoldsTable (code s.o_psi_inv_rev) psi_inv_rev) (hK : K ≤ 10)
    (hscale : (2 ^ K : ZMod falconQ) * s.storage_nm1modq = 1) {a b : List Nat}
    (ha : a.length = 2 ^ K) (hb : b.length = 2 ^ K)
    : ∃ p, Stateless.mul_NTTPoly s a b falconQ = .ok p
        ∧ Represents K p (negacyclicMul (2 ^ K) (residues falconQ a) (residues falconQ b)) := by
  have hpow : 2 ^ K ≤ 1024 := Nat.pow_le_pow_right (j := 10) (by omega) hK
  have hfits : FitsMemory K := by
    unfold FitsMemory freePointer wordSize
    omega
  obtain ⟨p, hp, hrep⟩ := ZKNOX_NTT_MUL_spec hs falconQ_lt hfits code ha hb
  rw [ZKNOX_NTT_MUL_stateless hs hpsi hinv hK ha hK hb] at hp
  refine ⟨p, hp, hrep.length, hrep.lt, ?_⟩
  intro k hk
  rw [hrep.cast k hk, tableMul_of_holdsTable hpsi hinv hK hscale _ _ k hk]

/-- The stateless product needs no other contract: its tables are the ones in storage. -/
theorem mul_NTTPoly_negacyclic {K n : Nat} (hK : K ≤ 10) (hn : n = 2 ^ K) {s : Storage}
    (hscale : n * s.storage_nm1modq % 12289 = 1) {a b : List Nat} (ha : a.length = n)
    (hb : b.length = n)
    : ∃ p, Stateless.mul_NTTPoly s a b 12289 = .ok p ∧ p.length = n
        ∧ ∀ k < n, p.getD k 0 < 12289
            ∧ (p.getD k 0 : ZMod 12289)
                = negacyclicMul n (residues 12289 a) (residues 12289 b) k := by
  subst hn
  obtain ⟨code, s', hsetup⟩ : ∃ code s', CorrectSetup code s' := ⟨_, _, correctSetup_tableBytes⟩
  have hcast : (2 ^ K : ZMod falconQ) * (s.storage_nm1modq : ZMod falconQ) = 1 := by
    have : ((2 ^ K * s.storage_nm1modq : Nat) : ZMod falconQ) = (1 : Nat) := by
      rw [← ZMod.natCast_mod, hscale]
    simpa using this
  have hsame : Stateless.mul_NTTPoly s a b falconQ
      = Stateless.mul_NTTPoly { s' with storage_nm1modq := s.storage_nm1modq } a b falconQ := rfl
  obtain ⟨p, hp, hrep⟩ := mul_NTTPoly_represents
    (s := { s' with storage_nm1modq := s.storage_nm1modq }) hsetup.storage_q
    hsetup.psi_rev hsetup.psi_inv_rev hK hcast ha hb
  exact ⟨p, hsame.trans hp, hrep.length, fun k hk => ⟨hrep.lt k hk, hrep.cast k hk⟩⟩

theorem mul_NTTPoly_negacyclic_falcon
    : ∃ p, Stateless.mul_NTTPoly (constructor 0 0 12289 12265) (List.replicate 512 (2 ^ 256 - 1))
        (List.replicate 512 1) 12289 = .ok p ∧ p.length = 512 := by
  have hscale : 512 * (constructor 0 0 12289 12265).storage_nm1modq % 12289 = 1 := by decide
  have hn : 512 = 2 ^ 9 := by decide
  obtain ⟨p, hp, hlen, _⟩ := mul_NTTPoly_negacyclic (by decide) hn hscale
    (List.length_replicate (n := 512) (a := 2 ^ 256 - 1)) (List.length_replicate (n := 512) (a := 1))
  exact ⟨p, hp, hlen⟩

end ZKNOX_NTT
