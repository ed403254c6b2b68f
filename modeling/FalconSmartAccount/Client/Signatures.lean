import FalconSmartAccount.Client.FalconDecoding
import FalconSmartAccount.Falcon.RejectionSampling
import FalconSmartAccount.Falcon.Verify

/-!
The two decoders of signatures. They read the same bits, but only the strict one notices the end of
the data.
-/

namespace AnvilFalconTx

open JavaScript Bits

/-! ## Codewords -/

/-- What comes behind the first one. -/
def afterOne : List Bool → Option (List Bool)
  | [] => none
  | false :: bits => afterOne bits
  | true :: bits => some bits

/-- What comes behind `n` codewords, each of which has eight bits, any number of zeros, and a one. -/
def afterCodewords : Nat → List Bool → Option (List Bool)
  | 0, bits => some bits
  | n + 1, bits => (afterOne (bits.drop 8)).bind (afterCodewords n)

section

variable {signMsg : Bytes} {r r' : Reader} {p fuel m m' : Nat}

theorem afterOne_zero (h : bitAt signMsg p = false)
    : afterOne ((bits signMsg).drop p) = afterOne ((bits signMsg).drop (p + 1)) := by
  by_cases hp : p < 8 * signMsg.length
  . rw [drop_bits hp]
    rw [h]
    rfl
  . rw [drop_bits_past (by omega)]
    rw [drop_bits_past (by omega)]

theorem afterOne_one (h : bitAt signMsg p = true)
    : afterOne ((bits signMsg).drop p) = some ((bits signMsg).drop (p + 1)) := by
  have hp : p < 8 * signMsg.length := by
    by_contra hp
    rw [bitAt_past (by omega)] at h
    cases h
  rw [drop_bits hp]
  rw [h]
  rfl

/-! ## What `decompressS2` reads -/

theorem refill_eight (hlen : r.accLen < 8) : refill signMsg 8 r = r.load signMsg := by
  unfold refill
  rw [if_pos hlen]
  unfold refill
  rw [if_neg]
  simp [Reader.load]

theorem readBits_at (hat : r.At signMsg p) (hlen : r.accLen < 8)
    : (readBits signMsg 8 r).1.At signMsg (p + 8) ∧ (readBits signMsg 8 r).1.accLen < 8 := by
  have hloaded : (r.load signMsg).accLen = r.accLen + 8 := rfl
  unfold readBits
  rw [refill_eight hlen]
  refine ⟨((hat.load (by omega)).take (by omega) (by omega) (by omega)).2, ?_⟩
  dsimp only
  omega

theorem readBit_at (hat : r.At signMsg p) (hlen : r.accLen < 8)
    : (readBit signMsg r).1.At signMsg (p + 1) ∧ (readBit signMsg r).1.accLen < 8
        ∧ ((readBit signMsg r).2 = 0 ↔ bitAt signMsg p = false) := by
  have htake (r : Reader) (hat : r.At signMsg p) (hpos : 0 < r.accLen) (hle : r.accLen ≤ 8)
      : { r with accLen := r.accLen - 1 }.At signMsg (p + 1) ∧ r.accLen - 1 < 8
          ∧ (sar r.acc (r.accLen - 1) &&& 1 = 0 ↔ bitAt signMsg p = false) := by
    obtain ⟨hfield, hnext⟩ := hat.take hpos (by omega) (by omega)
    have hsar := sar_and_mask r.acc (k := 1) (r := r.accLen - 1) (by omega) (by omega)
    rw [← hsar] at hfield
    rw [field_one] at hfield
    refine ⟨hnext, by omega, ?_⟩
    rw [← BitVec.toNat_inj]
    rw [show (1 : BitVec 32) = BitVec.ofNat 32 (2 ^ 1 - 1) from rfl]
    rw [hfield]
    cases bitAt signMsg p <;> simp
  unfold readBit
  split
  . next hzero =>
    have hload : r.load signMsg = ⟨shl r.acc 8 ||| byteAt signMsg r.bufIdx, 8, r.bufIdx + 1⟩ := by
      unfold Reader.load
      rw [hzero]
    have hat' := hat.load (by omega)
    rw [hload] at hat'
    exact htake _ hat' (Nat.succ_pos 7) (Nat.le_refl 8)
  . next hne => exact htake r hat (Nat.pos_of_ne_zero hne) (Nat.le_of_lt hlen)

theorem unary_at (hat : r.At signMsg p) (hlen : r.accLen < 8)
    (h : unary signMsg fuel r m = some (r', m'))
    : ∃ p', r'.At signMsg p' ∧ r'.accLen < 8
        ∧ afterOne ((bits signMsg).drop p) = some ((bits signMsg).drop p') := by
  induction fuel generalizing r p m with
  | zero => cases h
  | succ fuel ih =>
    obtain ⟨hnext, hlen', hbit⟩ := readBit_at hat hlen
    unfold unary at h
    dsimp only at h
    split at h
    . next hzero =>
      rw [afterOne_zero (hbit.mp hzero)]
      exact ih hnext hlen' h
    . next hone =>
      cases h
      rw [afterOne_one (by simpa using mt hbit.mpr hone)]
      exact ⟨p + 1, hnext, hlen', rfl⟩

/-- The loop ends if there is a one to come. -/
theorem exists_unary (hat : r.At signMsg p) (hlen : r.accLen < 8)
    (h : (afterOne ((bits signMsg).drop p)).isSome)
    : ∃ fuel r' m', ∀ fuel' ≥ fuel, unary signMsg fuel' r m = some (r', m') := by
  -- the induction is on the bits to come, as the fuel is what has to be found
  generalize hl : (bits signMsg).drop p = l at h
  induction l generalizing r p m with
  | nil => cases h
  | cons b l ih =>
    obtain ⟨hnext, hlen', hbit⟩ := readBit_at hat hlen
    have hp : p < 8 * signMsg.length := by
      by_contra hp
      rw [drop_bits_past (by omega)] at hl
      cases hl
    rw [drop_bits hp] at hl
    injection hl with hb hl
    have hunary (fuel : Nat) : unary signMsg (fuel + 1) r m
        = if (readBit signMsg r).2 = 0 then unary signMsg fuel (readBit signMsg r).1 (m + 128)
          else some ((readBit signMsg r).1, m) := rfl
    cases b with
    | false =>
      obtain ⟨fuel, r', m', hfuel⟩ := ih (m := m + 128) hnext hlen' hl h
      refine ⟨fuel + 1, r', m', fun fuel' hle => ?_⟩
      obtain ⟨k, rfl⟩ : ∃ k, fuel' = k + 1 := ⟨fuel' - 1, by omega⟩
      rw [hunary]
      rw [if_pos (hbit.mpr hb)]
      exact hfuel k (by omega)
    | true =>
      refine ⟨1, (readBit signMsg r).1, m, fun fuel' hle => ?_⟩
      obtain ⟨k, rfl⟩ : ∃ k, fuel' = k + 1 := ⟨fuel' - 1, by omega⟩
      have hone : (readBit signMsg r).2 ≠ 0 := by
        intro hzero
        rw [hbit.mp hzero] at hb
        cases hb
      rw [hunary]
      rw [if_neg hone]

variable {x : Int} {k : Nat} {s2 : List Int}

theorem coefficient_at (hat : r.At signMsg p) (hlen : r.accLen < 8)
    (h : coefficient signMsg fuel r = some (r', x))
    : ∃ p', r'.At signMsg p' ∧ r'.accLen < 8
        ∧ afterOne (((bits signMsg).drop p).drop 8) = some ((bits signMsg).drop p') := by
  obtain ⟨hnext, hlen'⟩ := readBits_at hat hlen
  obtain ⟨⟨r1, m⟩, hunary, h⟩ := Option.bind_eq_some_iff.mp h
  cases h
  rw [List.drop_drop]
  exact unary_at hnext hlen' hunary

theorem exists_coefficient (hat : r.At signMsg p) (hlen : r.accLen < 8)
    (h : (afterOne (((bits signMsg).drop p).drop 8)).isSome)
    : ∃ fuel r' x, ∀ fuel' ≥ fuel, coefficient signMsg fuel' r = some (r', x) := by
  obtain ⟨hnext, hlen'⟩ := readBits_at hat hlen
  rw [List.drop_drop] at h
  obtain ⟨fuel, r', m', hfuel⟩ := exists_unary
    (m := ((readBits signMsg 8 r).2 &&& 127).toNat) hnext hlen' h
  have hvalue : ∃ x, ∀ fuel', unary signMsg fuel' (readBits signMsg 8 r).1
      ((readBits signMsg 8 r).2 &&& 127).toNat = some (r', m') →
        coefficient signMsg fuel' r = some (r', x) :=
    ⟨_, fun fuel' hunary => Option.bind_eq_some_iff.mpr ⟨(r', m'), hunary, rfl⟩⟩
  obtain ⟨x, hx⟩ := hvalue
  exact ⟨fuel, r', x, fun fuel' hle => hx fuel' (hfuel fuel' hle)⟩

theorem coefficients_at (hat : r.At signMsg p) (hlen : r.accLen < 8)
    (h : coefficients signMsg fuel k r = some s2)
    : s2.length = k ∧ (afterCodewords k ((bits signMsg).drop p)).isSome := by
  induction k generalizing r p s2 with
  | zero =>
    cases h
    exact ⟨rfl, rfl⟩
  | succ k ih =>
    obtain ⟨⟨r1, x⟩, hfirst, h⟩ := Option.bind_eq_some_iff.mp h
    obtain ⟨xs, hrest, h⟩ := Option.bind_eq_some_iff.mp h
    cases h
    obtain ⟨p', hat', hlen', hone⟩ := coefficient_at hat hlen hfirst
    obtain ⟨hlength, hsome⟩ := ih hat' hlen' hrest
    refine ⟨congrArg Nat.succ hlength, ?_⟩
    unfold afterCodewords
    rw [hone]
    exact hsome

theorem exists_coefficients (hat : r.At signMsg p) (hlen : r.accLen < 8)
    (h : (afterCodewords k ((bits signMsg).drop p)).isSome)
    : ∃ fuel s2, ∀ fuel' ≥ fuel, coefficients signMsg fuel' k r = some s2 := by
  induction k generalizing r p with
  | zero => exact ⟨0, [], fun _ _ => rfl⟩
  | succ k ih =>
    unfold afterCodewords at h
    cases hone : afterOne (((bits signMsg).drop p).drop 8) with
    | none =>
      rw [hone] at h
      cases h
    | some rest =>
      obtain ⟨fuel, r', x, hfirst⟩ := exists_coefficient hat hlen (by rw [hone]; rfl)
      obtain ⟨p', hat', hlen', hone'⟩ := coefficient_at hat hlen (hfirst fuel (Nat.le_refl fuel))
      rw [hone'] at h
      obtain ⟨fuel', s2, hrest⟩ := ih hat' hlen' h
      refine ⟨max fuel fuel', x :: s2, fun fuel'' hle => ?_⟩
      refine Option.bind_eq_some_iff.mpr ⟨(r', x), hfirst fuel'' (by omega), ?_⟩
      exact Option.bind_eq_some_iff.mpr ⟨s2, hrest fuel'' (by omega), rfl⟩

end

theorem at_start (signMsg : Bytes) : Reader.At signMsg ⟨0, 0, 43⟩ 344 :=
  ⟨rfl, rfl⟩

/-- `decompressS2` stops after finitely many rounds of its loops. It never throws. -/
def Stops (signMsg : Bytes) : Prop :=
  ∃ fuel r, decompressS2 fuel signMsg = some r ∧ r.s2.length = 512

theorem stops_of_coefficients {signMsg : Bytes} {fuel : Nat} {s2 : List Int}
    (h : coefficients signMsg fuel 512 ⟨0, 0, 43⟩ = some s2)
    : decompressS2 fuel signMsg = some ⟨s2, subarray signMsg 2 42⟩ :=
  Option.bind_eq_some_iff.mpr ⟨s2, h, rfl⟩

/-- The data has to have all 512 codewords. Past its end there are only zeros, and the loop waits for
a one. -/
theorem stops_iff_codewords (signMsg : Bytes)
    : Stops signMsg ↔ (afterCodewords 512 (bits (signMsg.drop 43))).isSome := by
  rw [bits_drop]
  constructor
  . rintro ⟨fuel, r, h, _⟩
    obtain ⟨s2, hs2, _⟩ := Option.bind_eq_some_iff.mp h
    exact (coefficients_at (at_start signMsg) (by decide) hs2).2
  . intro h
    obtain ⟨fuel, s2, hs2⟩ := exists_coefficients (at_start signMsg) (by decide) h
    have hs2 := hs2 fuel (Nat.le_refl fuel)
    exact ⟨fuel, _, stops_of_coefficients hs2,
      (coefficients_at (at_start signMsg) (by decide) hs2).1⟩

theorem empty_not_stops : ¬Stops [] := by
  rintro ⟨fuel, r, h, _⟩
  obtain ⟨s2, hs2, _⟩ := Option.bind_eq_some_iff.mp h
  obtain ⟨_, hsome⟩ := coefficients_at (at_start []) (by decide) hs2
  cases hsome

end AnvilFalconTx

namespace DecodeFinal

open JavaScript

/-! ## Both decoders -/

/-- The reader of all of `signMsg` that does what `r` does for the bytes from `start` on. -/
def within (start : Nat) (r : Reader) : Reader := { r with bufIdx := start + r.bufIdx }

section

variable {signMsg : Bytes} {start u m m' : Nat} {r r' : Reader}

/-- A sequence returns only if no part throws. -/
theorem bind_eq_ok {α β : Type} {x : Except String α} {f : α → Except String β} {b : β}
    : x >>= f = .ok b ↔ ∃ a, x = .ok a ∧ f a = .ok b := by
  cases x with
  | error e => simp [bind, Except.bind]
  | ok a => simp [bind, Except.bind]

theorem byteAt_drop (start i : Nat) : byteAt (signMsg.drop start) i = byteAt signMsg (start + i) := by
  simp [byteAt, List.getD_eq_getElem?_getD]

theorem next_eq_ok (h : next (signMsg.drop start) r = .ok r')
    : start + r.bufIdx < signMsg.length
        ∧ r' = ⟨shl r.acc 8 ||| byteAt signMsg (start + r.bufIdx), r.accLen, r.bufIdx + 1⟩ := by
  unfold next at h
  split at h
  . cases h
  . next hlt =>
    cases h
    rw [List.length_drop] at hlt
    rw [shr_zero]
    rw [byteAt_drop]
    exact ⟨by omega, rfl⟩

/-- The byte that a bit is taken from. -/
theorem readBit_within (hlen : r.accLen < 8) (h : nextIfEmpty (signMsg.drop start) r = .ok r')
    : 0 < r'.accLen ∧ r'.accLen ≤ 8
        ∧ AnvilFalconTx.readBit signMsg (within start r)
          = (within start { r' with accLen := r'.accLen - 1 }, shr r'.acc (r'.accLen - 1) &&& 1) := by
  have hbit : ∀ r : Reader, 0 < r.accLen → r.accLen ≤ 8 →
      sar r.acc (r.accLen - 1) &&& 1 = shr r.acc (r.accLen - 1) &&& 1 := by
    intro r hpos hle
    exact sar_and_mask r.acc (k := 1) (by omega) (by omega)
  unfold AnvilFalconTx.readBit
  unfold nextIfEmpty at h
  split at h
  . next hzero =>
    cases hnext : next (signMsg.drop start) r with
    | error e =>
      rw [hnext] at h
      cases h
    | ok r1 =>
      rw [hnext] at h
      obtain ⟨_, rfl⟩ := next_eq_ok hnext
      cases h
      rw [if_pos (show (within start r).accLen = 0 from hzero)]
      refine ⟨Nat.succ_pos 7, Nat.le_refl 8, Prod.ext rfl ?_⟩
      exact hbit ⟨_, 8, 0⟩ (Nat.succ_pos 7) (Nat.le_refl 8)
  . next hne =>
    cases h
    rw [if_neg (show (within start r).accLen ≠ 0 from hne)]
    exact ⟨Nat.pos_of_ne_zero hne, Nat.le_of_lt hlen, Prod.ext rfl
      (hbit r (Nat.pos_of_ne_zero hne) (Nat.le_of_lt hlen))⟩

/-- Where the strict loop ends, the other one does so after the same rounds. -/
theorem unary_within {fuel : Nat} (hfuel : 2048 ≤ m + 128 * fuel) (hm : m ≤ 2047) (hlen : r.accLen < 8)
    (h : unary (signMsg.drop start) u r m = .ok (r', m'))
    : r'.accLen < 8 ∧ m' ≤ 2047
        ∧ AnvilFalconTx.unary signMsg fuel (within start r) m = some (within start r', m') := by
  induction fuel generalizing r m with
  -- the strict loop gives up above 2047, which it cannot have done before it returned
  | zero => omega
  | succ fuel ih =>
    unfold unary at h
    obtain ⟨r1, hbyte, h⟩ := bind_eq_ok.mp h
    obtain ⟨hpos, hle, hread⟩ := readBit_within hlen hbyte
    unfold AnvilFalconTx.unary
    rw [hread]
    dsimp only at h ⊢
    split at h
    . next hone =>
      cases h
      rw [if_neg hone]
      exact ⟨by dsimp only; omega, hm, rfl⟩
    . next hzero =>
      rw [if_pos (not_not.mp hzero)]
      split at h
      . cases h
      . next hsmall => exact ih (by omega) (by omega) (by dsimp only; omega) h

variable {x : Int} {k : Nat} {xs : List Int} {fuel : Nat}

theorem coefficient_within (hfuel : 16 ≤ fuel) (hlen : r.accLen < 8)
    (h : coefficient (signMsg.drop start) u r = .ok (r', x))
    : r'.accLen < 8 ∧ -2047 ≤ x ∧ x ≤ 2047
        ∧ AnvilFalconTx.coefficient signMsg fuel (within start r)
          = some (within start r', if x < 0 then 12289 + x else x) := by
  obtain ⟨r1, hnext, h⟩ := bind_eq_ok.mp h
  obtain ⟨⟨r2, m⟩, hunary, h⟩ := bind_eq_ok.mp h
  obtain ⟨_, rfl⟩ := next_eq_ok hnext
  dsimp only at h hunary
  generalize hb : shr (shl r.acc 8 ||| byteAt signMsg (start + r.bufIdx)) r.accLen &&& 0xFF = b
    at h hunary
  -- the byte that both have loaded still has all of its bits
  have hread : AnvilFalconTx.readBits signMsg 8 (within start r)
      = (within start ⟨shl r.acc 8 ||| byteAt signMsg (start + r.bufIdx), r.accLen, r.bufIdx + 1⟩, b) := by
    have hrefill : AnvilFalconTx.refill signMsg 8 (within start r) = (within start r).load signMsg :=
      AnvilFalconTx.refill_eight hlen
    unfold AnvilFalconTx.readBits
    rw [hrefill]
    rw [← hb]
    refine Prod.ext rfl ?_
    exact sar_and_mask _ (k := 8) (r := r.accLen) (by omega) (by omega)
  have hm : (b &&& 127).toNat ≤ 127 := by
    rw [BitVec.toNat_and]
    exact Nat.and_le_right
  -- every round adds 128 to the seven low bits
  have hrounds : 2048 ≤ (b &&& 127).toNat + 128 * fuel := by omega
  obtain ⟨hlen', hm', hunary'⟩ := unary_within hrounds (by omega) (by exact hlen) hunary
  split at h
  . cases h
  . cases h
    refine ⟨hlen', by split <;> omega, by split <;> omega, ?_⟩
    unfold AnvilFalconTx.coefficient
    rw [hread]
    dsimp only
    rw [hunary']
    simp only [Option.bind_eq_bind, Option.bind_some, Option.pure_def, Int.add_comm 12289]

theorem coefficients_within (hfuel : 16 ≤ fuel) (hlen : r.accLen < 8)
    (h : coefficients (signMsg.drop start) k u r = .ok xs)
    : xs.length = k ∧ (∀ x ∈ xs, -2047 ≤ x ∧ x ≤ 2047)
        ∧ AnvilFalconTx.coefficients signMsg fuel k (within start r) = some (toModQ xs 12289) := by
  induction k generalizing r u xs with
  | zero =>
    cases h
    exact ⟨rfl, fun x hx => absurd hx List.not_mem_nil, rfl⟩
  | succ k ih =>
    obtain ⟨⟨r1, x⟩, hfirst, h⟩ := bind_eq_ok.mp h
    obtain ⟨ys, hrest, h⟩ := bind_eq_ok.mp h
    cases h
    obtain ⟨hlen', hmin, hmax, hfirst'⟩ := coefficient_within hfuel hlen hfirst
    obtain ⟨hlength, hrange, hrest'⟩ := ih hlen' hrest
    refine ⟨congrArg Nat.succ hlength, ?_, ?_⟩
    . intro y hy
      rcases List.mem_cons.mp hy with rfl | hy
      . exact ⟨hmin, hmax⟩
      . exact hrange y hy
    . unfold AnvilFalconTx.coefficients
      rw [hfirst']
      dsimp only [Option.bind_eq_bind, Option.bind_some]
      rw [hrest']
      rfl

/-- What the strict decoder accepts has a first coefficient behind the salt. -/
theorem length_of_decodeFalconSig {n : Nat} (h : decodeFalconSig (signMsg.drop start) (n + 1) = .ok xs)
    : start < signMsg.length := by
  obtain ⟨⟨r1, x⟩, hfirst, _⟩ := bind_eq_ok.mp h
  obtain ⟨r2, hnext, _⟩ := bind_eq_ok.mp hfirst
  exact (next_eq_ok hnext).1

end

section

variable {buf rest : Bytes} {u v j k : Nat} {a : BitVec 32} {b : UInt8}

theorem shr_and_eq_zero (hk : k ≤ 32) (hj : j < 32)
    : shr a j &&& BitVec.ofNat 32 (2 ^ k - 1) = 0 ↔ a.toNat / 2 ^ j % 2 ^ k = 0 := by
  rw [← BitVec.toNat_inj]
  rw [and_mask _ hk]
  unfold shr
  rw [Nat.mod_eq_of_lt hj]
  rw [BitVec.toNat_ushiftRight]
  rw [Nat.shiftRight_eq_div_pow]
  rfl

theorem next_cons (h : buf.drop v = b :: rest)
    : ∃ a' : BitVec 32, a'.toNat = (a.toNat * 256 + b.toNat) % 2 ^ 32
        ∧ next buf ⟨a, j, v⟩ = .ok ⟨a', j, v + 1⟩ ∧ buf.drop (v + 1) = rest := by
  have hlt : v < buf.length := by
    have := congrArg List.length h
    rw [List.length_drop] at this
    rw [List.length_cons] at this
    omega
  rw [List.drop_eq_getElem_cons hlt] at h
  obtain ⟨hb, hrest⟩ := List.cons.inj h
  refine ⟨shl a 8 ||| byteAt buf v, ?_, ?_, hrest⟩
  . rw [Reader.shl_or_byteAt]
    rw [List.getD_eq_getElem _ _ hlt]
    rw [hb]
  . unfold next
    rw [if_neg (Nat.not_le.mpr hlt)]
    rw [shr_zero]

theorem coefficients_zero_cons {r r1 r2 : Reader} (hnext : next buf r = .ok r1)
    (hvalue : shr r1.acc r1.accLen &&& 0xFF = 0) (hempty : nextIfEmpty buf r1 = .ok r2)
    (hone : shr r2.acc (r2.accLen - 1) &&& 1 ≠ 0)
    (hrest : ∃ xs, coefficients buf k (u + 1) { r2 with accLen := r2.accLen - 1 } = .ok xs)
    : ∃ xs, coefficients buf (k + 1) u r = .ok xs := by
  have hunary : unary buf u r1 0 = .ok ({ r2 with accLen := r2.accLen - 1 }, 0) := by
    unfold unary
    refine bind_eq_ok.mpr ⟨r2, hempty, ?_⟩
    exact if_pos hone
  have hfirst : coefficient buf u r = .ok ({ r2 with accLen := r2.accLen - 1 }, 0) := by
    refine bind_eq_ok.mpr ⟨r1, hnext, ?_⟩
    dsimp only
    rw [hvalue]
    exact bind_eq_ok.mpr ⟨_, hunary, rfl⟩
  obtain ⟨xs, hxs⟩ := hrest
  refine ⟨0 :: xs, bind_eq_ok.mpr ⟨_, hfirst, ?_⟩⟩
  exact bind_eq_ok.mpr ⟨xs, hxs, rfl⟩

/-- The bytes in which `j` codewords end, each with its one. -/
def descending : Nat → Bytes
  | 0 => []
  | j + 1 => UInt8.ofNat (2 ^ j) :: descending j

theorem coefficients_descending (hj : j ≤ 7) (ha : a.toNat % 2 ^ j = 0)
    (h : buf.drop v = descending j ++ rest)
    (hrest : ∀ a', ∃ xs, coefficients buf k (u + j) ⟨a', 0, v + j⟩ = .ok xs)
    : ∃ xs, coefficients buf (k + j) u ⟨a, j, v⟩ = .ok xs := by
  induction j generalizing a u v with
  | zero => exact hrest a
  | succ j ih =>
    obtain ⟨a', ha', hnext, h⟩ := next_cons (a := a) (j := j + 1) h
    have hbyte : (UInt8.ofNat (2 ^ j)).toNat = 2 ^ j := by
      apply UInt8.toNat_ofNat_of_lt
      exact Nat.pow_lt_pow_right (n := 8) (Nat.lt_add_one 1) (by omega)
    rw [hbyte] at ha'
    -- the zeros are what is left of the last byte and the top of the new one, which has the one too
    have hbits : a'.toNat / 2 ^ (j + 1) % 2 ^ 8 = 0 ∧ a'.toNat / 2 ^ j % 2 ^ 1 ≠ 0
        ∧ a'.toNat % 2 ^ j = 0 := by
      have hj : j ≤ 6 := by omega
      interval_cases j <;> omega
    obtain ⟨hvalue, hone, hlow⟩ := hbits
    rw [← shr_and_eq_zero (by decide) (by omega)] at hvalue
    rw [Ne, ← shr_and_eq_zero (by decide) (by omega)] at hone
    have hempty : nextIfEmpty buf ⟨a', j + 1, v + 1⟩ = .ok ⟨a', j + 1, v + 1⟩ :=
      if_neg (Nat.succ_ne_zero j)
    apply coefficients_zero_cons hnext hvalue hempty hone
    apply ih (by omega) hlow h
    intro a'
    rw [Nat.add_right_comm u]
    rw [Nat.add_right_comm v]
    exact hrest a'

theorem coefficients_eight (h : buf.drop v = 0 :: descending 8 ++ rest)
    (hrest : ∀ a', ∃ xs, coefficients buf k (u + 8) ⟨a', 0, v + 9⟩ = .ok xs)
    : ∃ xs, coefficients buf (k + 8) u ⟨a, 0, v⟩ = .ok xs := by
  obtain ⟨a1, ha1, hnext, h⟩ := next_cons (a := a) (j := 0) h
  obtain ⟨a2, ha2, hnext', h⟩ := next_cons (a := a1) (j := 0) h
  rw [show UInt8.toNat 0 = 0 from rfl] at ha1
  rw [show (UInt8.ofNat (2 ^ 7)).toNat = 128 from rfl] at ha2
  have hvalue : a1.toNat / 2 ^ 0 % 2 ^ 8 = 0 := by omega
  have hone : a2.toNat / 2 ^ 7 % 2 ^ 1 ≠ 0 := by omega
  have hlow : a2.toNat % 2 ^ 7 = 0 := by omega
  rw [← shr_and_eq_zero (by decide) (by decide)] at hvalue
  rw [Ne, ← shr_and_eq_zero (by decide) (by decide)] at hone
  -- the first codeword fills a byte, so its one is loaded separately
  have hempty : nextIfEmpty buf ⟨a1, 0, v + 1⟩ = .ok ⟨a2, 8, v + 2⟩ := by
    unfold nextIfEmpty
    rw [if_pos rfl]
    rw [hnext']
    rfl
  apply coefficients_zero_cons hnext hvalue hempty hone
  apply coefficients_descending (Nat.le_refl 7) hlow h hrest

theorem exists_coefficients_zero {m : Nat}
    (h : buf.drop v = (List.replicate m (0 :: descending 8)).flatten)
    : ∃ xs, coefficients buf (8 * m) u ⟨a, 0, v⟩ = .ok xs := by
  induction m generalizing a u v with
  | zero => exact ⟨[], rfl⟩
  | succ m ih =>
    rw [List.replicate_succ] at h
    rw [List.flatten_cons] at h
    refine coefficients_eight h fun a' => ih ?_
    have hdrop := congrArg (List.drop 9) h
    rw [List.drop_drop] at hdrop
    exact hdrop

end

theorem toModQ_range {c : Int} {xs : List Int} (hrange : ∀ x ∈ xs, -2047 ≤ x ∧ x ≤ 2047)
    (hc : c ∈ toModQ xs 12289)
    : 0 ≤ c ∧ c < 12289 := by
  obtain ⟨x, hx, rfl⟩ := List.mem_map.mp hc
  obtain ⟨hmin, hmax⟩ := hrange x hx
  split <;> omega

/-- The coefficients as they come to the contract. -/
theorem exists_vector {n : Nat} {cs : List Int} (hlength : cs.length = n)
    (hrange : ∀ c ∈ cs, 0 ≤ c ∧ c < 12289)
    : ∃ s2 : Vector Nat n, s2.toList.map Int.ofNat = cs ∧ ∀ i, ∀ hi : i < n, s2[i] < 12289 := by
  refine ⟨⟨(cs.map Int.toNat).toArray, by simpa using hlength⟩, ?_, ?_⟩
  . have hback : ∀ c ∈ cs, (Int.ofNat ∘ Int.toNat) c = c := by
      intro c hc
      exact Int.toNat_of_nonneg (hrange c hc).1
    change (cs.map Int.toNat).map Int.ofNat = cs
    rw [List.map_map]
    rw [List.map_congr_left hback]
    exact List.map_id'' (fun _ => rfl) cs
  . intro i hi
    have hmem : cs[i] ∈ cs := List.getElem_mem (by omega)
    have hget : (⟨(cs.map Int.toNat).toArray, by simpa using hlength⟩ : Vector Nat n)[i]
        = cs[i].toNat := by
      simp
    rw [hget]
    obtain ⟨hpos, hlt⟩ := hrange _ hmem
    omega

/-- What the strict decoder accepts is a list of coefficients that are small enough for `toModQ`, and
`decompressS2` returns them after at most 16 rounds of each loop. -/
theorem decodeFalconSig_spec {signMsg : Bytes} {xs : List Int} {fuel : Nat} (hfuel : 16 ≤ fuel)
    (h : decodeFalconSig (signMsg.drop 43) 512 = .ok xs)
    : xs.length = 512 ∧ (∀ x ∈ xs, -2047 ≤ x ∧ x ≤ 2047)
        ∧ AnvilFalconTx.decompressS2 fuel signMsg = some ⟨toModQ xs 12289, extractNonce signMsg⟩ := by
  obtain ⟨hlength, hrange, hcoefficients⟩ := coefficients_within hfuel (by decide) h
  exact ⟨hlength, hrange, AnvilFalconTx.stops_of_coefficients hcoefficients⟩

/-- On what the strict decoder accepts, `decompressS2` returns the same coefficients modulo `q` and the
salt, and a verification of the two fails only where hashing runs out of gas. -/
theorem decompressS2_agrees {signMsg : Bytes} {xs : List Int}
    (h : decodeFalconSig (signMsg.drop 43) 512 = .ok xs)
    : (∀ fuel ≥ 16, AnvilFalconTx.decompressS2 fuel signMsg
          = some ⟨toModQ xs 12289, subarray signMsg 2 42⟩)
        ∧ (subarray signMsg 2 42).length = 40
        ∧ ∃ s2 : Vector Nat 512, s2.toList.map Int.ofNat = toModQ xs 12289
          ∧ (∀ i, ∀ hi : i < 512, s2[i] < 12289)
          ∧ ∀ keccak256 code ntt gas msgs h, ntt.storage_q = 12289 → ∀ e,
              ZKNOX_falcon.verify keccak256 code gas (ZKNOX_falcon.constructor ntt) msgs
                  ⟨subarray signMsg 2 42, s2⟩ h = .error e →
                ZKNOX_HashToPoint.hashToPoint keccak256 gas (subarray signMsg 2 42) msgs 12289 512
                    = .error e
                  ∧ (gas < 2 ^ 64 → e = .outOfGas) := by
  have hlong : 43 < signMsg.length := length_of_decodeFalconSig h
  obtain ⟨hlength, hrange, _⟩ := decodeFalconSig_spec (Nat.le_refl 16) h
  have hlength' : (toModQ xs 12289).length = 512 := by
    rw [toModQ]
    rw [List.length_map]
    exact hlength
  refine ⟨fun fuel hfuel => (decodeFalconSig_spec hfuel h).2.2, ?_, ?_⟩
  . rw [subarray, List.length_drop, List.length_take]
    omega
  . obtain ⟨s2, hs2, hsmall⟩ := exists_vector hlength' fun c hc => toModQ_range hrange hc
    refine ⟨s2, hs2, hsmall, ?_⟩
    intro keccak256 code ntt gas msgs h hq e herror
    have hhash := ZKNOX_falcon.verify_error hq (fun i hi => Nat.le_of_lt (hsmall i hi)) herror
    exact ⟨hhash, fun hgas => ZKNOX_HashToPoint.hashToPoint_error (by decide) (by decide) hgas hhash⟩

/-- 512 codewords of nine bits for zero. -/
def zerosSignMsg : Bytes :=
  List.replicate 43 0 ++ (List.replicate 64 [0, 128, 64, 32, 16, 8, 4, 2, 1]).flatten

theorem decompressS2_agrees_zeros
    : ∃ xs, decodeFalconSig (zerosSignMsg.drop 43) 512 = .ok xs
        ∧ AnvilFalconTx.decompressS2 16 zerosSignMsg
          = some ⟨toModQ xs 12289, subarray zerosSignMsg 2 42⟩
        ∧ ∃ s2 : Vector Nat 512, s2.toList.map Int.ofNat = toModQ xs 12289
          ∧ ∀ code h e, ZKNOX_falcon.verify keccak256 code 600
              (ZKNOX_falcon.constructor (ZKNOX_NTT.constructor 1 2 12289 12265)) []
              ⟨subarray zerosSignMsg 2 42, s2⟩ h ≠ .error e := by
  obtain ⟨xs, h⟩ : ∃ xs, decodeFalconSig (zerosSignMsg.drop 43) 512 = .ok xs :=
    exists_coefficients_zero (m := 64) rfl
  obtain ⟨hdecompress, _, s2, hs2, _, hverify⟩ := decompressS2_agrees h
  refine ⟨xs, h, hdecompress 16 (Nat.le_refl 16), s2, hs2, ?_⟩
  intro code pk e herror
  have hsalt : subarray zerosSignMsg 2 42 = ZKNOX_HashToPoint.zeroSalt := rfl
  obtain ⟨c, hc⟩ := ZKNOX_HashToPoint.hashToPoint_zeroSalt
  obtain ⟨hhash, _⟩ := hverify keccak256 code _ 600 [] pk rfl e herror
  rw [hsalt] at hhash
  exact nomatch hc.symm.trans hhash

end DecodeFinal
