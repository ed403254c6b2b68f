import Mathlib

/-!
Reading the bits of a byte string through an accumulator of 32 bits, the way JavaScript programs do it:
new bytes are shifted in from below, and bits that have been read stay above the unread ones until they
are shifted out.
-/

/-! ## Bits of byte strings -/

namespace Bits

/-- Bit `p`, the most significant bit of each byte coming first. Past the end there are zeros. -/
def bitAt (bytes : List UInt8) (p : Nat) : Bool := (bytes.getD (p / 8) 0).toNat.testBit (7 - p % 8)

/-- The `len` bits from `p` on, as a big endian number. -/
def field (bytes : List UInt8) (p : Nat) : Nat → Nat
  | 0 => 0
  | len + 1 => 2 * field bytes p len + (bitAt bytes (p + len)).toNat

/-- All bits. -/
def bits (bytes : List UInt8) : List Bool := (List.range (8 * bytes.length)).map (bitAt bytes)

variable {bytes : List UInt8}

theorem bitAt_drop (i p : Nat) : bitAt (bytes.drop i) p = bitAt bytes (8 * i + p) := by
  have hdiv : (8 * i + p) / 8 = i + p / 8 := by omega
  have hmod : (8 * i + p) % 8 = p % 8 := by omega
  unfold bitAt
  rw [hdiv]
  rw [hmod]
  simp [List.getD_eq_getElem?_getD]

theorem bitAt_past {p : Nat} (h : 8 * bytes.length ≤ p) : bitAt bytes p = false := by
  unfold bitAt
  rw [List.getD_eq_default _ _ (by omega)]
  exact Nat.zero_testBit _

theorem bits_drop (i : Nat) : bits (bytes.drop i) = (bits bytes).drop (8 * i) := by
  apply List.ext_getElem
  . simp [bits]
    omega
  . intro p hp _
    simp [bits, bitAt_drop]

theorem drop_bits {p : Nat} (h : p < 8 * bytes.length)
    : (bits bytes).drop p = bitAt bytes p :: (bits bytes).drop (p + 1) := by
  have hlt : p < (bits bytes).length := by
    simpa [bits] using h
  rw [List.drop_eq_getElem_cons hlt]
  simp [bits]

theorem drop_bits_past {p : Nat} (h : 8 * bytes.length ≤ p) : (bits bytes).drop p = [] := by
  apply List.drop_eq_nil_of_le
  simpa [bits] using h

theorem field_drop (i p len : Nat) : field (bytes.drop i) p len = field bytes (8 * i + p) len := by
  induction len with
  | zero => rfl
  | succ len ih =>
    unfold field
    rw [ih]
    rw [bitAt_drop]
    rw [Nat.add_assoc]

theorem field_add (p a b : Nat)
    : field bytes p (a + b) = field bytes p a * 2 ^ b + field bytes (p + a) b := by
  induction b with
  | zero => simp [field]
  | succ b ih =>
    have hleft : field bytes p (a + (b + 1))
        = 2 * field bytes p (a + b) + (bitAt bytes (p + (a + b))).toNat := rfl
    have hright : field bytes (p + a) (b + 1)
        = 2 * field bytes (p + a) b + (bitAt bytes (p + a + b)).toNat := rfl
    rw [hleft]
    rw [hright]
    rw [ih]
    rw [Nat.add_assoc p a b]
    ring

theorem field_lt (p len : Nat) : field bytes p len < 2 ^ len := by
  induction len with
  | zero => exact Nat.one_pos
  | succ len ih =>
    have := Bool.toNat_le (bitAt bytes (p + len))
    unfold field
    rw [Nat.pow_succ]
    omega

theorem field_one (p : Nat) : field bytes p 1 = (bitAt bytes p).toNat := by
  simp [field]

theorem field_byte (i : Nat) : field bytes (8 * i) 8 = (bytes.getD i 0).toNat := by
  have hbit : ∀ j < 8, (bitAt bytes (8 * i + j)).toNat = (bytes.getD i 0).toNat / 2 ^ (7 - j) % 2 := by
    intro j hj
    have hdiv : (8 * i + j) / 8 = i := by omega
    have hmod : (8 * i + j) % 8 = j := by omega
    unfold bitAt
    rw [hdiv]
    rw [hmod]
    rw [Nat.toNat_testBit]
  have hhead : ∀ len ≤ 8, field bytes (8 * i) len = (bytes.getD i 0).toNat / 2 ^ (8 - len) := by
    intro len hlen
    induction len with
    | zero =>
      symm
      apply Nat.div_eq_of_lt
      apply (bytes.getD i 0).toNat_lt
    | succ len ih =>
      have hpow : 8 - len = 7 - len + 1 := by omega
      have hlast : 8 - (len + 1) = 7 - len := by omega
      unfold field
      rw [ih (by omega)]
      rw [hbit len (by omega)]
      rw [hlast]
      rw [hpow]
      rw [Nat.pow_succ]
      rw [← Nat.div_div_eq_div_mul]
      apply Nat.div_add_mod
  rw [hhead 8 (Nat.le_refl 8)]
  apply Nat.div_one

end Bits

namespace JavaScript

open Bits

/-! ## Bitwise operators -/

/-- `a << n`. The operands of bitwise operators are taken modulo `2 ^ 32`, shift distances modulo `32`. -/
def shl (a : BitVec 32) (n : Nat) : BitVec 32 := a <<< (n % 32)

/-- `a >> n`. -/
def sar (a : BitVec 32) (n : Nat) : BitVec 32 := a.sshiftRight (n % 32)

/-- `a >>> n`. -/
def shr (a : BitVec 32) (n : Nat) : BitVec 32 := a >>> (n % 32)

/-- `bytes[i]` as such an operand. Past the end it is `undefined`, which counts as zero. -/
def byteAt (bytes : List UInt8) (i : Nat) : BitVec 32 := BitVec.ofNat 32 (bytes.getD i 0).toNat

@[simp]
theorem shr_zero (a : BitVec 32) : shr a 0 = a := by
  simp [shr]

theorem and_mask (a : BitVec 32) {k : Nat} (hk : k ≤ 32)
    : (a &&& BitVec.ofNat 32 (2 ^ k - 1)).toNat = a.toNat % 2 ^ k := by
  have hlt : 2 ^ k - 1 < 2 ^ 32 := by
    have := Nat.pow_le_pow_right (Nat.two_pos) hk
    have := Nat.two_pow_pos k
    omega
  rw [BitVec.toNat_and]
  rw [BitVec.toNat_ofNat]
  rw [Nat.mod_eq_of_lt hlt]
  exact Nat.and_two_pow_sub_one_eq_mod _ _

/-- The sign that `>>` drags in does not matter for the bits that are really there. -/
theorem sar_and_mask (a : BitVec 32) {k r : Nat} (h : k + r ≤ 32) (hr : r < 32)
    : sar a r &&& BitVec.ofNat 32 (2 ^ k - 1) = shr a r &&& BitVec.ofNat 32 (2 ^ k - 1) := by
  unfold sar shr
  rw [Nat.mod_eq_of_lt hr]
  apply BitVec.eq_of_getLsbD_eq
  intro i hi
  simp only [BitVec.getLsbD_and, BitVec.getLsbD_sshiftRight, BitVec.getLsbD_ushiftRight,
    BitVec.getLsbD_ofNat, Nat.testBit_two_pow_sub_one]
  by_cases hik : i < k
  . have hlt : r + i < 32 := by omega
    simp [Nat.not_le.mpr hi, hlt]
  . simp [hik]

/-! ## Readers -/

/-- The low `accLen` bits of `acc` have not been read yet, and the next byte is at `bufIdx`. -/
structure Reader where
  acc : BitVec 32
  accLen : Nat
  bufIdx : Nat

namespace Reader

/-- `acc = (acc << 8) | bytes[bufIdx++]; accLen += 8`. -/
def load (bytes : List UInt8) (r : Reader) : Reader where
  acc := shl r.acc 8 ||| byteAt bytes r.bufIdx
  accLen := r.accLen + 8
  bufIdx := r.bufIdx + 1

/-- The reader has come to bit `p`, and none of the bits from there to the next byte is lost. -/
structure At (bytes : List UInt8) (r : Reader) (p : Nat) : Prop where
  position : p + r.accLen = 8 * r.bufIdx
  unread : r.acc.toNat % 2 ^ r.accLen = field bytes p r.accLen

variable {bytes : List UInt8} {r : Reader} {p : Nat}

theorem shl_or_byteAt (acc : BitVec 32) (i : Nat)
    : (shl acc 8 ||| byteAt bytes i).toNat = (acc.toNat * 256 + (bytes.getD i 0).toNat) % 2 ^ 32 := by
  have hbyte := (bytes.getD i 0).toNat_lt
  -- the shift has left eight zeros at the bottom, so nothing overlaps
  have hor : (shl acc 8 ||| byteAt bytes i) = shl acc 8 + byteAt bytes i := by
    symm
    apply BitVec.add_eq_or_of_and_eq_zero
    apply BitVec.eq_of_getLsbD_eq
    intro j hj
    unfold shl byteAt
    simp only [BitVec.getLsbD_and, BitVec.getLsbD_shiftLeft, BitVec.getLsbD_ofNat]
    by_cases hj8 : j < 8
    . simp [hj8]
    . have hzero : (bytes.getD i 0).toNat.testBit j = false := by
        apply Nat.testBit_lt_two_pow
        apply Nat.lt_of_lt_of_le hbyte
        exact Nat.pow_le_pow_right Nat.two_pos (Nat.le_of_not_lt hj8)
      rw [hzero]
      simp
  rw [hor]
  unfold shl byteAt
  simp only [BitVec.toNat_add, BitVec.toNat_shiftLeft, BitVec.toNat_ofNat, Nat.shiftLeft_eq,
    Nat.reduceMod, Nat.reducePow]
  omega

theorem At.load (h : r.At bytes p) (hlen : r.accLen ≤ 24) : (r.load bytes).At bytes p := by
  have hposition := h.position
  refine ⟨by simp only [Reader.load]; omega, ?_⟩
  have hdvd : 2 ^ (r.accLen + 8) ∣ 2 ^ 32 := Nat.pow_dvd_pow 2 (by omega)
  -- bits that have been read move up with the others, out of reach of the longer remainder
  have hmod : (r.acc.toNat * 256 + (bytes.getD r.bufIdx 0).toNat) % 2 ^ (r.accLen + 8)
      = r.acc.toNat % 2 ^ r.accLen * 256 + (bytes.getD r.bufIdx 0).toNat := by
    have hbyte := (bytes.getD r.bufIdx 0).toNat_lt
    have hlt := Nat.mod_lt r.acc.toNat (Nat.two_pow_pos r.accLen)
    have hdecomp := Nat.div_add_mod r.acc.toNat (2 ^ r.accLen)
    have hsplit : r.acc.toNat * 256 + (bytes.getD r.bufIdx 0).toNat
        = (r.acc.toNat % 2 ^ r.accLen * 256 + (bytes.getD r.bufIdx 0).toNat)
          + 2 ^ (r.accLen + 8) * (r.acc.toNat / 2 ^ r.accLen) := by
      rw [Nat.pow_add]
      conv_lhs => rw [← hdecomp]
      ring
    rw [hsplit]
    rw [Nat.add_mul_mod_self_left]
    apply Nat.mod_eq_of_lt
    rw [Nat.pow_add]
    omega
  change (shl r.acc 8 ||| byteAt bytes r.bufIdx).toNat % 2 ^ (r.accLen + 8)
    = field bytes p (r.accLen + 8)
  rw [shl_or_byteAt]
  rw [Nat.mod_mod_of_dvd _ hdvd]
  rw [hmod]
  rw [h.unread]
  rw [field_add]
  rw [hposition]
  rw [field_byte]
  rfl

/-- Taking the first `k` of the unread bits. -/
theorem At.take (h : r.At bytes p) {k : Nat} (hk : k ≤ r.accLen) (hlen : r.accLen ≤ 32)
    (hlt : r.accLen - k < 32)
    : (shr r.acc (r.accLen - k) &&& BitVec.ofNat 32 (2 ^ k - 1)).toNat = field bytes p k
        ∧ { r with accLen := r.accLen - k }.At bytes (p + k) := by
  have hsum : r.accLen = k + (r.accLen - k) := by omega
  have hunread := h.unread
  rw [hsum] at hunread
  rw [field_add] at hunread
  generalize r.accLen - k = n at hunread hlt hsum
  have hn : field bytes (p + k) n < 2 ^ n := field_lt _ _
  have hmod : r.acc.toNat % 2 ^ n = field bytes (p + k) n := by
    have := congrArg (· % 2 ^ n) hunread
    rw [Nat.mod_mod_of_dvd _ (Nat.pow_dvd_pow 2 (Nat.le_add_left n k))] at this
    rw [Nat.mul_comm] at this
    rw [Nat.mul_add_mod] at this
    rwa [Nat.mod_eq_of_lt hn] at this
  refine ⟨?_, ?_, hmod⟩
  . rw [and_mask _ (by omega)]
    unfold shr
    rw [Nat.mod_eq_of_lt hlt]
    rw [BitVec.toNat_ushiftRight]
    rw [Nat.shiftRight_eq_div_pow]
    have hdiv : r.acc.toNat / 2 ^ n % 2 ^ k = r.acc.toNat % 2 ^ (k + n) / 2 ^ n := by
      rw [Nat.add_comm]
      rw [Nat.pow_add]
      rw [Nat.mod_mul_right_div_self]
    rw [hdiv]
    rw [hunread]
    rw [Nat.mul_comm]
    rw [Nat.mul_add_div (Nat.two_pow_pos n)]
    rw [Nat.div_eq_of_lt hn]
    rw [Nat.add_zero]
  . have hposition := h.position
    rw [hsum] at hposition
    rw [← hposition]
    exact Nat.add_assoc p k n

end Reader

end JavaScript
