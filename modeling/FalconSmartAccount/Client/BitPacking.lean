import FalconSmartAccount.Client.BitReader

/-!
Numbers as lists of bits, and lists of bits packed into bytes.
-/

namespace Bits

/-- The number that bits stand for, the most significant one first. -/
def value (l : List Bool) : Nat := l.foldl (fun v b => 2 * v + b.toNat) 0

/-- The `len` low bits of a number. -/
def word : Nat → Nat → List Bool
  | 0, _ => []
  | len + 1, v => word len (v / 2) ++ [decide (v % 2 = 1)]

/-- Bytes that start with these bits. The last one is filled up with zeros. -/
def pack (l : List Bool) : List UInt8 :=
  (List.range ((l.length + 7) / 8)).map fun i =>
    UInt8.ofNat (value ((List.range 8).map fun j => l.getD (8 * i + j) false))

/-! ## Numbers -/

theorem value_concat (l : List Bool) (b : Bool) : value (l ++ [b]) = 2 * value l + b.toNat := by
  simp [value]

theorem value_lt (l : List Bool) : value l < 2 ^ l.length := by
  induction l using List.reverseRecOn with
  | nil => simp [value]
  | append_singleton l b ih =>
    have hb := Bool.toNat_le b
    rw [value_concat]
    rw [List.length_append]
    rw [List.length_singleton]
    rw [Nat.pow_succ]
    omega

@[simp]
theorem length_word (len v : Nat) : (word len v).length = len := by
  induction len generalizing v with
  | zero => rfl
  | succ len ih => simp [word, ih]

theorem value_word {len v : Nat} (h : v < 2 ^ len) : value (word len v) = v := by
  induction len generalizing v with
  | zero =>
    rw [Nat.lt_one_iff.mp h]
    rfl
  | succ len ih =>
    rw [Nat.pow_succ] at h
    unfold word
    rw [value_concat]
    rw [ih (by omega)]
    cases Nat.mod_two_eq_zero_or_one v with
    | inl hzero =>
      simp [hzero]
      omega
    | inr hone =>
      simp [hone]
      omega

theorem word_value (l : List Bool) : word l.length (value l) = l := by
  induction l using List.reverseRecOn with
  | nil => rfl
  | append_singleton l b ih =>
    rw [List.length_append]
    rw [List.length_singleton]
    rw [value_concat]
    unfold word
    have hdiv : (2 * value l + b.toNat) / 2 = value l := by
      have := Bool.toNat_le b
      omega
    rw [hdiv]
    rw [ih]
    congr 2
    cases b with
    | false => simp
    | true => simp [Nat.add_mod]

theorem testBit_value (l : List Bool) (i : Nat) : (value l).testBit i = l.reverse.getD i false := by
  induction l using List.reverseRecOn generalizing i with
  | nil => simp [value]
  | append_singleton l b ih =>
    rw [value_concat]
    rw [List.reverse_append]
    rw [List.reverse_singleton]
    rw [List.singleton_append]
    cases i with
    | zero =>
      cases b with
      | false => simp [Nat.testBit_zero]
      | true => simp [Nat.testBit_zero, Nat.add_mod]
    | succ i =>
      have hdiv : (2 * value l + b.toNat) / 2 = value l := by
        have := Bool.toNat_le b
        omega
      rw [Nat.testBit_succ]
      rw [hdiv]
      rw [ih]
      rfl

/-! ## Bytes -/

variable {bytes : List UInt8}

@[simp]
theorem length_bits (bytes : List UInt8) : (bits bytes).length = 8 * bytes.length := by
  simp [bits]

theorem bits_append (a b : List UInt8) : bits (a ++ b) = bits a ++ bits b := by
  have htake : (bits (a ++ b)).take (8 * a.length) = bits a := by
    apply List.ext_getElem
    . simp
    . intro p hp hp'
      rw [length_bits] at hp'
      simp only [bits, List.getElem_take, List.getElem_map, List.getElem_range]
      unfold bitAt
      rw [List.getD_append _ _ _ _ (by omega)]
  have hdrop : (bits (a ++ b)).drop (8 * a.length) = bits b := by
    rw [← bits_drop]
    rw [List.drop_left]
  rw [← htake]
  rw [← hdrop]
  rw [List.take_append_drop]

theorem field_eq_value {p len : Nat} (h : p + len ≤ 8 * bytes.length)
    : field bytes p len = value (((bits bytes).drop p).take len) := by
  induction len with
  | zero => rfl
  | succ len ih =>
    have hlt : p + len < (bits bytes).length := by
      rw [length_bits]
      omega
    have htake : ((bits bytes).drop p).take (len + 1)
        = ((bits bytes).drop p).take len ++ [bitAt bytes (p + len)] := by
      rw [List.take_add_one]
      rw [List.getElem?_drop]
      rw [List.getElem?_eq_getElem hlt]
      simp [bits]
    rw [htake]
    rw [value_concat]
    rw [← ih (by omega)]
    rfl

theorem length_pack (l : List Bool) : (pack l).length = (l.length + 7) / 8 := by
  simp [pack]

theorem bitAt_pack (l : List Bool) (p : Nat) : bitAt (pack l) p = l.getD p false := by
  by_cases hp : p / 8 < (l.length + 7) / 8
  . have hbyte : (pack l).getD (p / 8) 0
        = UInt8.ofNat (value ((List.range 8).map fun j => l.getD (8 * (p / 8) + j) false)) := by
      simp [pack, hp]
    have hlt := value_lt ((List.range 8).map fun j => l.getD (8 * (p / 8) + j) false)
    rw [List.length_map] at hlt
    rw [List.length_range] at hlt
    have hindex : 8 * (p / 8) + (7 - (7 - p % 8)) = p := by omega
    unfold bitAt
    rw [hbyte]
    rw [UInt8.toNat_ofNat']
    rw [Nat.mod_eq_of_lt hlt]
    rw [testBit_value]
    rw [List.getD_eq_getElem?_getD]
    rw [List.getElem?_reverse (by simp; omega)]
    simp only [List.length_map, List.length_range]
    rw [List.getElem?_map]
    rw [List.getElem?_range (by omega)]
    simp only [Option.map_some, Option.getD_some]
    rw [hindex]
  . -- past the last byte
    rw [bitAt_past]
    . rw [List.getD_eq_default]
      omega
    . rw [length_pack]
      omega

theorem bits_pack (l : List Bool)
    : bits (pack l) = l ++ List.replicate (8 * ((l.length + 7) / 8) - l.length) false := by
  apply List.ext_getElem?
  intro p
  by_cases hp : p < 8 * ((l.length + 7) / 8)
  . have hleft : (bits (pack l))[p]? = some (bitAt (pack l) p) := by
      rw [List.getElem?_eq_getElem (by rw [length_bits]; rw [length_pack]; exact hp)]
      simp [bits]
    rw [hleft]
    rw [bitAt_pack]
    rw [List.getElem?_append]
    split
    . next hlt => simp [hlt]
    . next hge =>
      rw [List.getElem?_replicate]
      rw [if_pos (by omega)]
      rw [List.getD_eq_default _ _ (by omega)]
  . rw [List.getElem?_eq_none (by rw [length_bits]; rw [length_pack]; omega)]
    rw [List.getElem?_eq_none]
    simp
    omega

end Bits
