import FalconSmartAccount.Falcon.RejectionSampling
import FalconSmartAccount.Falcon.ZknoxFalcon
import FalconSmartAccount.Falcon.ZknoxNttMul
import FalconSmartAccount.Ntt.TwoTerm

/-!
What `ZKNOX_falcon.verify` and `verify_opt` decide: whether the recovered `s1` and the given `s2` are
short, and which `s2` they revert on.
-/

namespace ZKNOX_falcon

open Yul Ntt ZKNOX_NTT
open ZKNOX_HashToPoint (zeroSalt hashToPoint_zeroSalt)

/-- The squared norm of 512 coefficients, each taken as its representative closest to zero. -/
def sqNorm (x : Nat → ZMod q) : Nat :=
  ∑ k ∈ Finset.range 512, (x k).valMinAbs.natAbs ^ 2

/-! ## Normalisation -/

theorem normalize_entry {x : Nat} (hx : x ≤ q)
    : (if x > 6144 then Solidity.sub q x else .ok x : Checked Nat)
        = .ok (x : ZMod q).valMinAbs.natAbs := by
  have hq : q = 12289 := rfl
  rw [ZMod.valMinAbs_natAbs_eq_min, ZMod.val_natCast]
  rcases Nat.lt_or_eq_of_le hx with hlt | heq
  . rw [Nat.mod_eq_of_lt hlt]
    split
    . rw [Solidity.sub_ok hx, Nat.min_eq_right (by omega)]
    . rw [Nat.min_eq_left (by omega)]
  . -- the residue is zero here, and so is `q - q`
    rw [heq, Nat.mod_self, if_pos (by omega), Solidity.sub_ok (Nat.le_refl q), Nat.sub_self]
    rfl

theorem normalize_entry_error {x : Nat} (hx : q < x)
    : (if x > 6144 then Solidity.sub q x else .ok x : Checked Nat) = .error .arithmetic := by
  have hq : q = 12289 := rfl
  rw [if_pos (by omega)]
  exact if_neg (by omega)

section Normalize

variable {st : Storage} (hqs1 : st.qs1 = 6144) {xs : List Nat}

include hqs1

theorem normalize_spec (hxs : ∀ k < xs.length, xs.getD k 0 ≤ q)
    : ∃ ys, normalize st xs = .ok ys ∧ ys.length = xs.length
        ∧ ∀ k < xs.length, ys.getD k 0 = (residues q xs k).valMinAbs.natAbs := by
  refine ⟨xs.map fun x : Nat => (x : ZMod q).valMinAbs.natAbs, ?_, by simp, ?_⟩
  . unfold normalize
    apply Checked.mapM_ok
    intro x hx
    obtain ⟨k, hk, rfl⟩ := List.mem_iff_getElem.mp hx
    rw [hqs1]
    apply normalize_entry
    have := hxs k hk
    rwa [List.getD_eq_getElem _ _ hk] at this
  . intro k hk
    simp [residues, hk]

theorem normalize_error {k : Nat} (hk : k < xs.length) (hlt : q < xs.getD k 0)
    : normalize st xs = .error .arithmetic := by
  rw [List.getD_eq_getElem _ _ hk] at hlt
  unfold normalize
  apply Checked.mapM_error (List.getElem_mem hk)
  . rw [hqs1]
    exact normalize_entry_error hlt
  . intro y _ e he
    rw [hqs1] at he
    by_cases hy : y ≤ q
    . rw [normalize_entry hy] at he
      cases he
    . rw [normalize_entry_error (Nat.not_le.mp hy)] at he
      cases he
      rfl

end Normalize

/-! ## Norm -/

theorem centred_le (x : ZMod q) : x.valMinAbs.natAbs ≤ 6144 :=
  ZMod.natAbs_valMinAbs_le x

theorem norm_foldlM (l : List (Nat × Nat)) (acc : Nat)
    (hl : ∀ p ∈ l, p.1 ≤ 6144 ∧ p.2 ≤ 6144)
    (hacc : acc + l.length * (2 * 6144 ^ 2) < wordSize)
    : l.foldlM
        (fun norm (p : Nat × Nat) => do
          let norm ← Solidity.add norm (← Solidity.mul p.1 p.1)
          Solidity.add norm (← Solidity.mul p.2 p.2))
        acc
        = (.ok (acc + (l.map fun p => p.1 ^ 2 + p.2 ^ 2).sum) : Checked Nat) := by
  induction l generalizing acc with
  | nil => simp
  | cons p l ih =>
    obtain ⟨h1, h2⟩ := hl p List.mem_cons_self
    have hs1 : p.1 * p.1 ≤ 6144 ^ 2 := by nlinarith
    have hs2 : p.2 * p.2 ≤ 6144 ^ 2 := by nlinarith
    rw [List.length_cons, Nat.add_mul] at hacc
    rw [List.foldlM_cons, Solidity.mul_ok (by omega), Checked.ok_bind,
      Solidity.add_ok (by omega), Checked.ok_bind, Solidity.mul_ok (by omega), Checked.ok_bind,
      Solidity.add_ok (by omega), Checked.ok_bind,
      ih _ (fun p hp => hl p (List.mem_cons_of_mem _ hp)) (by omega)]
    simp only [List.map_cons, List.sum_cons, Nat.pow_two]
    congr 1
    omega

theorem sum_zip_eq {a b : List Nat} (n : Nat) (ha : a.length = n) (hb : b.length = n)
    : ((a.zip b).map fun p => p.1 ^ 2 + p.2 ^ 2).sum
        = ∑ k ∈ Finset.range n, (a.getD k 0 ^ 2 + b.getD k 0 ^ 2) := by
  induction n generalizing a b with
  | zero => simp [List.length_eq_zero_iff.mp ha]
  | succ n ih =>
    rcases a with _ | ⟨x, a⟩
    . simp at ha
    . rcases b with _ | ⟨y, b⟩
      . simp at hb
      . rw [Finset.sum_range_succ', List.zip_cons_cons, List.map_cons, List.sum_cons,
          ih (by simpa using ha) (by simpa using hb)]
        simp [Nat.add_comm]

theorem norm_spec {x1 x2 : Nat → ZMod q} {s1 s2 : List Nat} (h1 : s1.length = 512)
    (h2 : s2.length = 512) (hx1 : ∀ k < 512, s1.getD k 0 = (x1 k).valMinAbs.natAbs)
    (hx2 : ∀ k < 512, s2.getD k 0 = (x2 k).valMinAbs.natAbs)
    : norm s1 s2 = .ok (sqNorm x1 + sqNorm x2) := by
  have hle : ∀ p ∈ s1.zip s2, p.1 ≤ 6144 ∧ p.2 ≤ 6144 := by
    intro p hp
    obtain ⟨k, hk, rfl⟩ := List.mem_iff_getElem.mp hp
    have hk' : k < 512 := by
      simp only [List.length_zip] at hk
      omega
    have e1 := hx1 k hk'
    have e2 := hx2 k hk'
    rw [List.getD_eq_getElem _ _ (by omega)] at e1 e2
    simp only [List.getElem_zip]
    rw [e1, e2]
    exact ⟨centred_le _, centred_le _⟩
  have hfold := norm_foldlM (s1.zip s2) 0 hle
    (by rw [List.length_zip, h1, h2]; unfold wordSize; norm_num)
  have hsum1 : ∑ k ∈ Finset.range 512, s1.getD k 0 ^ 2 = sqNorm x1 := by
    apply Finset.sum_congr rfl
    intro k hk
    rw [hx1 k (Finset.mem_range.mp hk)]
  have hsum2 : ∑ k ∈ Finset.range 512, s2.getD k 0 ^ 2 = sqNorm x2 := by
    apply Finset.sum_congr rfl
    intro k hk
    rw [hx2 k (Finset.mem_range.mp hk)]
  unfold norm
  rw [hfold, Nat.zero_add, sum_zip_eq 512 h1 h2, Finset.sum_add_distrib, hsum1, hsum2]

/-! ## The shared body -/

/-- Some coefficient of `s2` lies outside of what `q - s2[i]` can be computed for. -/
def OutOfRange (s2 : Vector Nat 512) : Prop := ∃ i, ∃ h : i < 512, q < s2[i]

/-- The norm test on `c`, `s2` and the product `p` of `s2` and the public key. -/
def Short (c : List Nat) (s2 : Vector Nat 512) (p : Nat → ZMod q) : Prop :=
  sqNorm (fun k => residues q c k - p k) + sqNorm (residues q s2.toList) ≤ sigBound

theorem toList_getD (s2 : Vector Nat 512) {k : Nat} (hk : k < 512)
    : s2.toList.getD k 0 = s2[k] := by
  simp [hk]

section Body

variable {keccak256 : Bytes → Word} {mul : List Nat → Checked (List Nat)} {gas : Nat}
  {st : Storage} {msgs : Bytes} {signature : Signature} {h : List Nat}

theorem verifyWith_bad_length (hlen : h.length ≠ 512 ∨ signature.salt.length ≠ 40)
    : verifyWith keccak256 mul gas st msgs signature h = .ok false := by
  unfold verifyWith
  rcases hlen with hh | hs
  . simp [hh]
  . by_cases hh : h.length = 512
    . simp [hh, hs]
    . simp [hh]

/-- If the hash does not return then neither does the verification. -/
theorem verifyWith_hash_error (hh : h.length = 512) (hsalt : signature.salt.length = 40) {e : Revert}
    (hc : ZKNOX_HashToPoint.hashToPoint keccak256 gas signature.salt msgs q n = .error e)
    : verifyWith keccak256 mul gas st msgs signature h = .error e := by
  unfold verifyWith
  simp [hh, hsalt, hc]

variable (hqs1 : st.qs1 = 6144) (hh : h.length = 512) (hsalt : signature.salt.length = 40)

include hqs1

/-- What is computed before `s2` is normalised, and the normal form of `s1`. -/
theorem recovered {c p : List Nat} {P : Nat → ZMod q}
    (hc : ZKNOX_HashToPoint.hashToPoint keccak256 gas signature.salt msgs q n = .ok c)
    (hrep : Represents 9 p P)
    : ∃ s1 y1, ZKNOX_VECSUBMOD c p q = .ok s1 ∧ normalize st s1 = .ok y1 ∧ y1.length = 512
        ∧ ∀ k < 512, y1.getD k 0 = (residues q c k - P k).valMinAbs.natAbs := by
  have hclen : c.length = 512 := ZKNOX_HashToPoint.hashToPoint_length keccak256 hc
  obtain ⟨s1, hs1, hs1len, hs1get⟩ := ZKNOX_VECSUBMOD_spec (q := q) (by norm_num)
    (a := c) (b := p) (by rw [hclen, hrep.length]; rfl)
    (fun k hk => Nat.le_of_lt (hrep.lt k (by rwa [← hrep.length])))
  rw [hclen] at hs1len hs1get
  have hs1cast : ∀ k < 512, residues q s1 k = residues q c k - P k := by
    intro k hk
    have hlt := hrep.lt k hk
    have hcast := hrep.cast k hk
    unfold residues at hcast ⊢
    rw [hs1get k hk, cast_addmod, Nat.cast_sub (Nat.le_of_lt hlt), hcast, ZMod.natCast_self]
    ring
  have hs1le : ∀ k < s1.length, s1.getD k 0 ≤ q := by
    intro k hk
    rw [hs1get k (by omega)]
    exact Nat.le_of_lt (addmod_lt (by norm_num))
  obtain ⟨y1, hy1, hy1len, hy1get⟩ := normalize_spec hqs1 hs1le
  refine ⟨s1, y1, hs1, hy1, by omega, ?_⟩
  intro k hk
  rw [hy1get k (by omega), hs1cast k hk]

theorem normalize_s2_error (hrange : OutOfRange signature.s2)
    : normalize st signature.s2.toList = .error .arithmetic := by
  obtain ⟨i, hi, hlt⟩ := hrange
  apply normalize_error hqs1 (show i < signature.s2.toList.length by simpa using hi)
  rwa [toList_getD _ hi]

theorem normalize_s2 (hrange : ¬OutOfRange signature.s2)
    : ∃ y2, normalize st signature.s2.toList = .ok y2 ∧ y2.length = 512
        ∧ ∀ k < 512, y2.getD k 0 = (residues q signature.s2.toList k).valMinAbs.natAbs := by
  have hlen : signature.s2.toList.length = 512 := by
    simp
  have hle : ∀ k < signature.s2.toList.length, signature.s2.toList.getD k 0 ≤ q := by
    intro k hk
    rw [hlen] at hk
    rw [toList_getD _ hk]
    by_contra hne
    exact hrange ⟨k, hk, Nat.not_le.mp hne⟩
  obtain ⟨y2, hy2, hy2len, hy2get⟩ := normalize_spec hqs1 hle
  rw [hlen] at hy2len hy2get
  exact ⟨y2, hy2, hy2len, hy2get⟩

include hh hsalt

/-- All that can go wrong after hashing is the subtraction `q - s2[i]`. -/
theorem verifyWith_spec {c p : List Nat} {P : Nat → ZMod q}
    (hc : ZKNOX_HashToPoint.hashToPoint keccak256 gas signature.salt msgs q n = .ok c)
    (hp : mul signature.s2.toList = .ok p) (hrep : Represents 9 p P)
    : (OutOfRange signature.s2 →
        verifyWith keccak256 mul gas st msgs signature h = .error .arithmetic)
        ∧
      (¬OutOfRange signature.s2 →
        verifyWith keccak256 mul gas st msgs signature h
          = .ok (decide (sqNorm (fun k => residues q c k - P k)
              + sqNorm (residues q signature.s2.toList) ≤ sigBound))) := by
  obtain ⟨s1, y1, hs1, hy1, hy1len, hy1get⟩ := recovered hqs1 hc hrep
  constructor
  . intro hrange
    have herr := normalize_s2_error hqs1 hrange
    unfold verifyWith
    simp [hh, hsalt, hc, hp, hs1, hy1, herr]
  . intro hrange
    obtain ⟨y2, hy2, hy2len, hy2get⟩ := normalize_s2 hqs1 hrange
    have hnorm : norm y1 y2 = .ok (sqNorm (fun k => residues q c k - P k)
        + sqNorm (residues q signature.s2.toList)) :=
      norm_spec hy1len hy2len hy1get hy2get
    unfold verifyWith
    simp only [hh, hsalt, hc, hp, hs1, hy1, hy2, hnorm, Checked.ok_bind, Checked.pure_eq, ne_eq,
      not_true_eq_false, if_false]
    by_cases hle : sqNorm (fun k => residues q c k - P k)
        + sqNorm (residues q signature.s2.toList) ≤ sigBound
    . simp [hle]
    . simp [hle, Nat.not_le.mp hle]

end Body

/-! ## With the tables of `ZKNOX_NTT.sol` -/

theorem short_congr {c : List Nat} {s2 : Vector Nat 512} {p p' : Nat → ZMod q}
    (h : ∀ k < 512, p k = p' k)
    : Short c s2 p ↔ Short c s2 p' := by
  have : sqNorm (fun k => residues q c k - p k) = sqNorm (fun k => residues q c k - p' k) := by
    apply Finset.sum_congr rfl
    intro k hk
    dsimp only
    rw [h k (Finset.mem_range.mp hk)]
  unfold Short
  rw [this]

theorem verify_exact {keccak256 : Bytes → Word} {code : Address → Bytes} {ntt : ZKNOX_NTT.Storage}
    (hsetup : CorrectSetup code ntt) {gas : Nat} {msgs : Bytes} {signature : Signature}
    {h c : List Nat}
    (hc : ZKNOX_HashToPoint.hashToPoint keccak256 gas signature.salt msgs q n = .ok c)
    : let outcome := verify keccak256 code gas (constructor ntt) msgs signature h
      (h.length ≠ 512 ∨ signature.salt.length ≠ 40 → outcome = .ok false)
        ∧
      (h.length = 512 → signature.salt.length = 40 →
        -- nothing on the way to the normal form of `s2` reverts, and nothing after it
        (∃ p s1 y1, ZKNOX_NTT_MUL code ntt signature.s2.toList h = .ok p
            ∧ ZKNOX_VECSUBMOD c p q = .ok s1
            ∧ normalize (constructor ntt) s1 = .ok y1)
          ∧
        (∀ e, outcome = .error e ↔
          normalize (constructor ntt) signature.s2.toList = .error e)
          ∧
        (outcome = .error .arithmetic ↔ ∃ i, ∃ hi : i < 512, 12289 < signature.s2[i])
          ∧
        ((∃ e, outcome = .error e) ↔ ∃ i, ∃ hi : i < 512, 12289 < signature.s2[i])
          ∧
        ((∀ e, outcome ≠ .error e) →
          (outcome = .ok true ↔
            sqNorm (fun k => residues q c k
              - negacyclicMul 512 (residues q signature.s2.toList) (residues q h) k)
              + sqNorm (residues q signature.s2.toList) ≤ 34034726))) := by
  intro outcome
  refine ⟨verifyWith_bad_length, ?_⟩
  intro hh hsalt
  obtain ⟨p, hp, hrep⟩ := ZKNOX_NTT_MUL_spec (q := q) hsetup.storage_q falconQ_lt fits_falcon code
    (a := signature.s2.toList) (b := h) (by simp) hh
  obtain ⟨herr, hok⟩ := @verifyWith_spec keccak256 (fun s2 => ZKNOX_NTT_MUL code ntt s2 h) gas
    (constructor ntt) msgs signature h rfl hh hsalt _ _ _ hc hp hrep
  have hqs1 : (constructor ntt).qs1 = 6144 := rfl
  obtain ⟨s1, y1, hs1, hy1, _⟩ := recovered hqs1 hc hrep
  have hmul : Short c signature.s2 _ ↔ Short c signature.s2 _ := short_congr
    (tableMul_eq_negacyclicMul hsetup (residues q signature.s2.toList) (residues q h))
  refine ⟨⟨p, s1, y1, hp, hs1, hy1⟩, ?_⟩
  by_cases hrange : OutOfRange signature.s2
  . have hout : outcome = .error .arithmetic := herr hrange
    have hs2 := normalize_s2_error hqs1 hrange
    refine ⟨?_, ⟨fun _ => hrange, fun _ => hout⟩, ⟨fun _ => hrange, fun _ => ⟨_, hout⟩⟩, ?_⟩
    . intro e
      rw [hout, hs2, Except.error.injEq, Except.error.injEq]
    . intro hne
      exact absurd hout (hne _)
  . have hout : outcome = .ok (decide _) := hok hrange
    obtain ⟨y2, hy2, _⟩ := normalize_s2 hqs1 hrange
    refine ⟨?_, ⟨?_, fun h => absurd h hrange⟩, ⟨?_, fun h => absurd h hrange⟩, ?_⟩
    . intro e
      rw [hout, hy2]
      exact ⟨nofun, nofun⟩
    . rw [hout]
      exact nofun
    . rintro ⟨e, he⟩
      rw [hout] at he
      cases he
    . intro _
      rw [hout, Except.ok.injEq, decide_eq_true_eq]
      exact hmul

def polynomialOne : Vector Nat 512 := Vector.ofFn fun i => if i.val = 0 then 1 else 0

theorem polynomialOne_getElem (k : Nat) (hk : k < 512)
    : polynomialOne[k] = if k = 0 then 1 else 0 := by
  unfold polynomialOne
  rw [Vector.getElem_ofFn]

theorem residues_polynomialOne
    : ∀ k < 512, residues q polynomialOne.toList k = if k = 0 then 1 else 0 := by
  intro k hk
  unfold residues
  rw [toList_getD _ hk, polynomialOne_getElem k hk]
  split <;> simp

theorem sqNorm_polynomialOne : sqNorm (residues q polynomialOne.toList) = 1 := by
  unfold sqNorm
  rw [Finset.sum_eq_single_of_mem 0 (Finset.mem_range.mpr (by omega))]
  . rw [residues_polynomialOne 0 (by omega)]
    decide
  . intro k hk hne
    rw [residues_polynomialOne k (Finset.mem_range.mp hk), if_neg hne]
    rfl

/-- Under the public key `c` the polynomial `1` is accepted. -/
theorem verify_exact_polynomialOne
    : ∃ c, ZKNOX_HashToPoint.hashToPoint keccak256 600 zeroSalt [] q n = .ok c ∧
        let outcome := fun (s2 : Vector Nat 512) (h : List Nat) =>
          verify keccak256 (fun a => tableBytes (if a = 1 then psi_rev else psi_inv_rev)) 600
            (constructor (ZKNOX_NTT.constructor 1 2 12289 12265)) [] ⟨zeroSalt, s2⟩ h
        outcome polynomialOne c = .ok true
          ∧ outcome (Vector.ofFn fun i => if i.val = 1 then 12290 else 0) c = .error .arithmetic
          ∧ outcome polynomialOne (0 :: c) = .ok false := by
  obtain ⟨c, hc⟩ := hashToPoint_zeroSalt
  have hlen : c.length = 512 := ZKNOX_HashToPoint.hashToPoint_length keccak256 hc
  have hsalt : zeroSalt.length = 40 := List.length_replicate
  have hexact := fun (s2 : Vector Nat 512) (h : List Nat) => @verify_exact keccak256 _ _
    correctSetup_tableBytes 600 [] ⟨zeroSalt, s2⟩ h c hc
  refine ⟨c, hc, ?_, ?_, ?_⟩
  . obtain ⟨-, -, -, hrevert, haccept⟩ := (hexact polynomialOne c).2 hlen hsalt
    apply (haccept _).mpr
    . have hmul : ∀ k < 512, residues q c k
          - negacyclicMul 512 (residues q polynomialOne.toList) (residues q c) k = 0 := by
        intro k hk
        rw [negacyclicMul_congr residues_polynomialOne (fun _ _ => rfl),
          negacyclicMul_one (by omega) _ hk, sub_self]
      have hzero : sqNorm (fun k => residues q c k
          - negacyclicMul 512 (residues q polynomialOne.toList) (residues q c) k) = 0 := by
        apply Finset.sum_eq_zero
        intro k hk
        dsimp only
        rw [hmul k (Finset.mem_range.mp hk)]
        rfl
      rw [hzero, sqNorm_polynomialOne]
      norm_num
    . intro e he
      obtain ⟨i, hi, hlt⟩ := hrevert.mp ⟨e, he⟩
      rw [polynomialOne_getElem i hi] at hlt
      split at hlt <;> omega
  . obtain ⟨-, -, hpanic, -⟩ :=
      (hexact (Vector.ofFn fun i => if i.val = 1 then 12290 else 0) c).2 hlen hsalt
    apply hpanic.mpr
    exact ⟨1, by omega, by simp⟩
  . apply (hexact polynomialOne (0 :: c)).1
    left
    simp [hlen]

/-- With coefficients in range, a verification fails only where hashing fails, whatever the tables
are. -/
theorem verify_error {keccak256 : Bytes → Word} {code : Address → Bytes} {ntt : ZKNOX_NTT.Storage}
    (hq : ntt.storage_q = 12289) {gas : Nat} {msgs : Bytes} {signature : Signature} {h : List Nat}
    (hrange : ∀ i, ∀ hi : i < 512, signature.s2[i] ≤ 12289) {e : Revert}
    (herror : verify keccak256 code gas (constructor ntt) msgs signature h = .error e)
    : ZKNOX_HashToPoint.hashToPoint keccak256 gas signature.salt msgs q n = .error e := by
  unfold verify at herror
  by_cases hlen : h.length ≠ 512 ∨ signature.salt.length ≠ 40
  . rw [verifyWith_bad_length hlen] at herror
    cases herror
  . rw [not_or, not_ne_iff, not_ne_iff] at hlen
    obtain ⟨hh, hsalt⟩ := hlen
    cases hc : ZKNOX_HashToPoint.hashToPoint keccak256 gas signature.salt msgs q n with
    | error e' =>
      rw [verifyWith_hash_error hh hsalt hc] at herror
      cases herror
      rfl
    | ok c =>
      obtain ⟨p, hp, hrep⟩ := ZKNOX_NTT_MUL_spec (q := q) hq falconQ_lt fits_falcon code
        (a := signature.s2.toList) (b := h) (by simp) hh
      have hin : ¬OutOfRange signature.s2 := by
        rintro ⟨i, hi, hlt⟩
        exact Nat.not_le.mpr hlt (hrange i hi)
      rw [(verifyWith_spec rfl hh hsalt hc hp hrep).2 hin] at herror
      cases herror

end ZKNOX_falcon
