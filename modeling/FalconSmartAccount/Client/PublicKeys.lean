import FalconSmartAccount.Client.FalconDecoding

/-!
What the two decoders of public keys read. Both keep all bits that they still need; only one of them
looks at the range of what it has read.
-/

namespace DecodeFinal

open JavaScript Bits AnvilFalconTx

/-- The readers that both decoders pass. They load a byte as long as less than 14 bits are unread, and
then take 14 bits. -/
inductive Passes (inData : Bytes) : Reader → Prop where
  | start : Passes inData ⟨0, 0, 1⟩
  | load {r} : Passes inData r → r.accLen < 14 → Passes inData (r.load inData)
  | take {r} : Passes inData r → 14 ≤ r.accLen → Passes inData { r with accLen := r.accLen - 14 }

/-- `k` numbers of 14 bits each, the first one of which starts at bit `p`. -/
def fields (inData : Bytes) : Nat → Nat → List Nat
  | _, 0 => []
  | p, k + 1 => field inData p 14 :: fields inData (p + 14) k

variable {inData : Bytes} {r : Reader} {p : Nat}

theorem fields_succ (p k : Nat)
    : fields inData p (k + 1) = field inData p 14 :: fields inData (p + 14) k :=
  rfl

theorem length_fields (p k : Nat) : (fields inData p k).length = k := by
  induction k generalizing p with
  | zero => rfl
  | succ k ih => simp [fields, ih]

theorem getElem?_fields {p k u : Nat} (hu : u < k)
    : (fields inData p k)[u]? = some (field inData (p + 14 * u) 14) := by
  induction k generalizing p u with
  | zero => omega
  | succ k ih =>
    unfold fields
    cases u with
    | zero => rfl
    | succ u =>
      have hp : p + 14 * (u + 1) = p + 14 + 14 * u := by omega
      rw [List.getElem?_cons_succ]
      rw [ih (Nat.lt_of_succ_lt_succ hu)]
      rw [hp]

theorem mem_fields {p k w : Nat}
    : w ∈ fields inData p k ↔ ∃ u < k, field inData (p + 14 * u) 14 = w := by
  rw [List.mem_iff_getElem?]
  constructor
  . rintro ⟨u, hu⟩
    have hlt : u < k := by
      have := (List.getElem?_eq_some_iff.mp hu).1
      rwa [length_fields] at this
    rw [getElem?_fields hlt] at hu
    exact ⟨u, hlt, Option.some.inj hu⟩
  . rintro ⟨u, hu, rfl⟩
    exact ⟨u, getElem?_fields hu⟩

theorem at_start : Reader.At inData ⟨0, 0, 1⟩ 8 :=
  ⟨rfl, rfl⟩

theorem Passes.spec (h : Passes inData r) : r.accLen < 22 ∧ ∃ p, r.At inData p := by
  induction h with
  | start => exact ⟨by decide, 8, at_start⟩
  | load _ hlt ih =>
    obtain ⟨_, p, hat⟩ := ih
    refine ⟨?_, p, hat.load (by omega)⟩
    simp only [Reader.load]
    omega
  | take _ hle ih =>
    obtain ⟨hlt, p, hat⟩ := ih
    refine ⟨?_, p + 14, (hat.take hle (by omega) (by omega)).2⟩
    dsimp only
    omega

/-- One coefficient, with either kind of shift. -/
theorem Passes.take_fourteen (h : Passes inData r) (hat : r.At inData p) (hle : 14 ≤ r.accLen)
    : (shr r.acc (r.accLen - 14) &&& 0x3FFF).toNat = field inData p 14
        ∧ (sar r.acc (r.accLen - 14) &&& 0x3FFF).toNat = field inData p 14
        ∧ { r with accLen := r.accLen - 14 }.At inData (p + 14) := by
  have hlt := h.spec.1
  have hsar := sar_and_mask r.acc (k := 14) (r := r.accLen - 14) (by omega) (by omega)
  obtain ⟨hfield, hat'⟩ := hat.take hle (by omega) (by omega)
  exact ⟨hfield, (congrArg BitVec.toNat hsar).trans hfield, hat'⟩

/-! ## `decodePk` -/

theorem refill_passes (h : Passes inData r) (hat : r.At inData p)
    : Passes inData (refill inData 14 r) ∧ (refill inData 14 r).At inData p
        ∧ 14 ≤ (refill inData 14 r).accLen := by
  fun_induction refill inData 14 r with
  | case1 r hlt ih => exact ih (h.load hlt) (hat.load (by omega))
  | case2 r hle => exact ⟨h, hat, Nat.le_of_not_lt hle⟩

theorem coefficients_eq (k : Nat) (h : Passes inData r) (hat : r.At inData p)
    : decodePk.coefficients inData k r = fields inData p k := by
  induction k generalizing r p with
  | zero => rfl
  | succ k ih =>
    obtain ⟨hpasses, hat', hle⟩ := refill_passes h hat
    obtain ⟨_, hfield, hnext⟩ := hpasses.take_fourteen hat' hle
    unfold decodePk.coefficients fields
    dsimp only
    rw [hfield]
    rw [ih (hpasses.take hle) hnext]

theorem decodePk_eq (inData : Bytes) : decodePk inData = fields inData 8 512 :=
  coefficients_eq 512 .start at_start

/-! ## `decodeFalconPk` -/

theorem loop_eq_ok {n u : Nat} {coeffs cs : List Nat} (h : Passes inData r) (hat : r.At inData p)
    (hlt : r.accLen < 14) (hu : u ≤ n)
    : decodeFalconPk.loop inData n u r coeffs = .ok cs
        ↔ (∀ w ∈ fields inData p (n - u), w < 12289) ∧ cs = coeffs ++ fields inData p (n - u) := by
  fun_induction decodeFalconPk.loop inData n u r coeffs generalizing p
  -- out of range: it throws, and the first of the fields is to blame
  case case1 u r coeffs hun loaded hle taken w hw =>
    have hk : n - u = n - (u + 1) + 1 := by omega
    obtain ⟨hfield, _⟩ := (h.load hlt).take_fourteen (hat.load (by omega)) hle
    have hlarge : 12289 ≤ field inData p 14 := by
      rw [← hfield]
      exact hw
    rw [hk]
    simp [fields_succ, Nat.not_lt.mpr hlarge]
  case case2 u r coeffs hun loaded hle taken w hw ih =>
    have hk : n - u = n - (u + 1) + 1 := by omega
    have hpasses := h.load hlt
    obtain ⟨hfield, _, hnext⟩ := hpasses.take_fourteen (hat.load (by omega)) hle
    have hw' : field inData p 14 = w := hfield.symm
    have hshort : taken.accLen < 14 := by
      change r.accLen + 8 - 14 < 14
      omega
    rw [ih (hpasses.take hle) hnext hshort hun]
    rw [hk]
    rw [fields_succ]
    rw [hw']
    simp [Nat.lt_of_not_le hw]
  -- not enough bits yet: the next round loads another byte for the same coefficient
  case case3 u r coeffs hun loaded hle ih =>
    exact ih (h.load hlt) (hat.load (by omega)) (Nat.lt_of_not_le hle) hu
  case case4 u r coeffs hun =>
    have hk : n - u = 0 := by omega
    rw [hk]
    simp [fields, eq_comm]

theorem decodeFalconPk_eq_ok {coeffs : List Nat}
    : decodeFalconPk inData 512 = .ok coeffs
        ↔ (∀ u < 512, field (inData.drop 1) (14 * u) 14 < 12289) ∧ coeffs = decodePk inData := by
  unfold decodeFalconPk
  rw [loop_eq_ok .start at_start (by decide) (by decide)]
  rw [decodePk_eq]
  rw [Nat.sub_zero]
  rw [List.nil_append]
  apply and_congr_left
  intro _
  simp only [mem_fields, field_drop]
  constructor
  . intro h u hu
    exact h _ ⟨u, hu, rfl⟩
  . rintro h w ⟨u, hu, rfl⟩
    exact h u hu

/-! ## Both -/

/-- The two decoders agree on `inData`. `decodePk` never throws. -/
structure UnpackAlike (inData : Bytes) : Prop where
  accepts : ∃ coeffs, decodeFalconPk inData 512 = .ok coeffs
  coefficients : ∀ coeffs, decodeFalconPk inData 512 = .ok coeffs →
    decodePk inData = coeffs ∧ coeffs.length = 512
      ∧ ∀ u < 512, coeffs[u]? = some (field (inData.drop 1) (14 * u) 14)
        ∧ field (inData.drop 1) (14 * u) 14 < 12289
  unread : ∀ r, Passes inData r →
    r.acc.toNat % 2 ^ r.accLen = field inData (8 * r.bufIdx - r.accLen) r.accLen

/-- They agree if and only if all coefficients are in range, which `decodePk` does not check. -/
theorem unpackAlike_iff (inData : Bytes)
    : UnpackAlike inData ↔ ∀ u < 512, field (inData.drop 1) (14 * u) 14 < 12289 := by
  constructor
  . intro h
    obtain ⟨coeffs, hcoeffs⟩ := h.accepts
    exact (decodeFalconPk_eq_ok.mp hcoeffs).1
  . intro hrange
    refine ⟨⟨decodePk inData, decodeFalconPk_eq_ok.mpr ⟨hrange, rfl⟩⟩, ?_, ?_⟩
    . intro coeffs hcoeffs
      obtain ⟨_, rfl⟩ := decodeFalconPk_eq_ok.mp hcoeffs
      rw [decodePk_eq]
      refine ⟨rfl, length_fields 8 512, ?_⟩
      intro u hu
      rw [getElem?_fields hu]
      rw [field_drop]
      exact ⟨rfl, by rw [← field_drop]; exact hrange u hu⟩
    . intro r hr
      obtain ⟨_, p, hat⟩ := hr.spec
      have hp : 8 * r.bufIdx - r.accLen = p := by
        have := hat.position
        omega
      rw [hp]
      exact hat.unread

/-- All bits of the coefficients are set. -/
def onesKey : Bytes := 0x09 :: List.replicate 896 0xff

theorem onesKey_not_unpackAlike : onesKey.length = 897 ∧ ¬UnpackAlike onesKey := by
  refine ⟨by decide +kernel, fun h => ?_⟩
  obtain ⟨coeffs, hcoeffs⟩ := h.accepts
  have hfirst := (decodeFalconPk_eq_ok.mp hcoeffs).1 0 (by decide)
  revert hfirst
  decide +kernel

end DecodeFinal
