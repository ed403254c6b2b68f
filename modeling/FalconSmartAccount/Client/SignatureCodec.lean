import FalconSmartAccount.Client.BitPacking
import FalconSmartAccount.Client.Decoder
import FalconSmartAccount.Client.Signatures

/-!
The format of compressed signatures, and what the strict decoder accepts of it.
-/

namespace FalconCode

/-! ## The format -/

/-- The coefficients that can be compressed. -/
def Compressible (x : Int) : Prop := -2047 ≤ x ∧ x ≤ 2047

/-- A sign and the seven low bits of an absolute value. -/
def leading (negative : Bool) (low : Nat) : List Bool := negative :: Bits.word 7 low

/-- The rest of the absolute value in unary. -/
def trailing (high : Nat) : List Bool := List.replicate high false ++ [true]

def codeword (x : Int) : List Bool :=
  leading (decide (x < 0)) (x.natAbs % 128) ++ trailing (x.natAbs / 128)

/-- What must not come next, and how the decoder complains about it. -/
inductive Fault (u : Nat) (l : List Bool) : String → Prop
  | negativeZero : leading true 0 ++ trailing 0 <+: l → Fault u l s!"Forbidden -0 at index {u}"
  | tooLarge (first : List Bool) : first.length = 8 → first ++ List.replicate 16 false <+: l →
    Fault u l s!"Coefficient too large at index {u}"
  | endOfLeading : l.length < 8 → Fault u l "Unexpected end of signature data"
  | endOfTrailing (first : List Bool) (high : Nat) : first.length = 8 → high < 16 →
    l = first ++ List.replicate high false → Fault u l "Unexpected end of signature data"

/-! ## Reading it bit by bit -/

def readTrailing (u : Nat) : List Bool → Nat → Except String (List Bool × Nat)
  | [], _ => .error "Unexpected end of signature data"
  | true :: l, m => .ok (l, m)
  | false :: l, m =>
    if 2047 < m + 128 then .error s!"Coefficient too large at index {u}"
    else readTrailing u l (m + 128)

/-- The value of the first eight bits, as `decodeFalconSig` has it in `b`. -/
def readLeading (l : List Bool) : Except String (List Bool × Nat) :=
  if l.length < 8 then .error "Unexpected end of signature data"
  else .ok (l.drop 8, Bits.value (l.take 8))

def signed (u : Nat) (negative : Bool) (m : Nat) : Except String Int :=
  if negative ∧ m = 0 then .error s!"Forbidden -0 at index {u}"
  else .ok (if negative then -m else m)

def readCodeword (u : Nat) (l : List Bool) : Except String (List Bool × Int) := do
  let (l, b) ← readLeading l
  let (l, m) ← readTrailing u l (b % 128)
  let x ← signed u (decide (128 ≤ b)) m
  return (l, x)

/-! ## What it accepts -/

section

variable {u m m' high : Nat} {l rest : List Bool} {x : Int} {e : String}

theorem readTrailing_trailing (h : m + 128 * high ≤ 2047)
    : readTrailing u (trailing high ++ rest) m = .ok (rest, m + 128 * high) := by
  induction high generalizing m with
  | zero => rfl
  | succ high ih =>
    change readTrailing u (false :: (trailing high ++ rest)) m = _
    unfold readTrailing
    rw [if_neg (by omega)]
    rw [ih (by omega)]
    congr 2
    omega

theorem readTrailing_ok (hm : m ≤ 2047) (h : readTrailing u l m = .ok (rest, m'))
    : ∃ high, m' = m + 128 * high ∧ m' ≤ 2047 ∧ l = trailing high ++ rest := by
  induction l generalizing m with
  | nil => cases h
  | cons b l ih =>
    cases b with
    | true =>
      cases h
      exact ⟨0, by omega, by omega, rfl⟩
    | false =>
      unfold readTrailing at h
      split at h
      . cases h
      . next hsmall =>
        obtain ⟨high, hm', hle, rfl⟩ := ih (by omega) h
        exact ⟨high + 1, by omega, hle, rfl⟩

theorem readTrailing_error (hm : m ≤ 2047)
    : readTrailing u l m = .error e
        ↔ (∃ high, m + 128 * high ≤ 2047 ∧ l = List.replicate high false
            ∧ e = "Unexpected end of signature data")
          ∨ ∃ high, m + 128 * high ≤ 2047 ∧ 2047 < m + 128 * (high + 1)
            ∧ List.replicate (high + 1) false <+: l ∧ e = s!"Coefficient too large at index {u}" := by
  induction l generalizing m with
  | nil =>
    constructor
    . intro h
      cases h
      left
      exact ⟨0, by omega, rfl, rfl⟩
    . rintro (⟨high, -, hl, rfl⟩ | ⟨high, -, -, hl, -⟩)
      . rfl
      . simp at hl
  | cons b l ih =>
    cases b with
    | true =>
      constructor
      . intro h
        cases h
      . rintro (⟨high, -, hl, -⟩ | ⟨high, -, -, hl, -⟩)
        . cases high with
          | zero => cases hl
          | succ high => simp [List.replicate_succ] at hl
        . simp [List.replicate_succ] at hl
    | false =>
      unfold readTrailing
      split
      . next hlarge =>
        constructor
        . intro h
          cases h
          -- this zero bit takes the magnitude past 2047
          right
          exact ⟨0, by omega, by omega, by simp, rfl⟩
        . rintro (⟨high, hle, hl, -⟩ | ⟨high, -, -, -, rfl⟩)
          . cases high with
            | zero => cases hl
            | succ high => omega
          . rfl
      . next hsmall =>
        rw [ih (by omega)]
        constructor
        . rintro (⟨high, hle, rfl, rfl⟩ | ⟨high, hle, hlt, hl, rfl⟩)
          . left
            exact ⟨high + 1, by omega, rfl, rfl⟩
          . right
            refine ⟨high + 1, by omega, by omega, ?_, rfl⟩
            rw [List.replicate_succ]
            rw [List.cons_prefix_cons]
            exact ⟨rfl, hl⟩
        . rintro (⟨high, hle, hl, rfl⟩ | ⟨high, hle, hlt, hl, rfl⟩)
          . left
            cases high with
            | zero => cases hl
            | succ high =>
              rw [List.replicate_succ] at hl
              injection hl with _ hl
              exact ⟨high, by omega, hl, rfl⟩
          . right
            rw [List.replicate_succ] at hl
            rw [List.cons_prefix_cons] at hl
            cases high with
            | zero => omega
            | succ high => exact ⟨high, by omega, by omega, hl.2, rfl⟩

theorem length_leading (negative : Bool) (low : Nat) : (leading negative low).length = 8 := by
  simp [leading]

theorem value_leading (negative : Bool) {low : Nat} (h : low < 128)
    : Bits.value (leading negative low) = 128 * negative.toNat + low := by
  -- a leading bit counts by the number of bits behind it
  have hcons : ∀ l : List Bool, Bits.value (negative :: l) = 2 ^ l.length * negative.toNat + Bits.value l := by
    intro l
    induction l using List.reverseRecOn with
    | nil => simp [Bits.value]
    | append_singleton l b ih =>
      rw [← List.cons_append]
      rw [Bits.value_concat]
      rw [ih]
      rw [Bits.value_concat]
      rw [List.length_append]
      rw [List.length_singleton]
      ring
  unfold leading
  rw [hcons]
  rw [Bits.length_word]
  rw [Bits.value_word h]
  rfl

/-- Eight bits are a sign and seven others. -/
theorem exists_leading {first : List Bool} (h : first.length = 8)
    : ∃ negative low, low < 128 ∧ first = leading negative low := by
  cases first with
  | nil => cases h
  | cons negative first =>
    rw [List.length_cons] at h
    have hlength : first.length = 7 := Nat.succ.inj h
    have hlt := Bits.value_lt first
    have hword := Bits.word_value first
    rw [hlength] at hlt hword
    refine ⟨negative, Bits.value first, hlt, ?_⟩
    unfold leading
    rw [hword]

theorem exists_leading_append (h : 8 ≤ l.length)
    : ∃ negative low rest, low < 128 ∧ l = leading negative low ++ rest := by
  have htake : (l.take 8).length = 8 := by
    rw [List.length_take]
    omega
  obtain ⟨negative, low, hlow, hfirst⟩ := exists_leading htake
  refine ⟨negative, low, l.drop 8, hlow, ?_⟩
  rw [← hfirst]
  rw [List.take_append_drop]

theorem signed_ok_iff {negative : Bool}
    : signed u negative m = .ok x ↔ negative = decide (x < 0) ∧ m = x.natAbs := by
  unfold signed
  cases negative with
  | false =>
    simp
    omega
  | true =>
    simp only [true_and, if_true]
    split
    . simp
      omega
    . simp
      omega

theorem signed_error_iff {negative : Bool}
    : signed u negative m = .error e
        ↔ negative = true ∧ m = 0 ∧ e = s!"Forbidden -0 at index {u}" := by
  unfold signed
  split
  . next hzero =>
    simp [hzero]
    constructor
    . intro h
      exact h.symm
    . intro h
      exact h.symm
  . next hne =>
    simp
    intro hnegative hm
    exact absurd ⟨hnegative, hm⟩ hne

theorem readCodeword_leading (negative : Bool) {low : Nat} (hlow : low < 128)
    : readCodeword u (leading negative low ++ rest)
        = readTrailing u rest low >>= fun (l, m) => (signed u negative m).map fun x => (l, x) := by
  have hread : readLeading (leading negative low ++ rest) = .ok (rest, 128 * negative.toNat + low) := by
    unfold readLeading
    rw [if_neg (by simp [length_leading])]
    rw [List.drop_left' (length_leading negative low)]
    rw [List.take_left' (length_leading negative low)]
    rw [value_leading negative hlow]
  have hmod : (128 * negative.toNat + low) % 128 = low := by omega
  have hsign : decide (128 ≤ 128 * negative.toNat + low) = negative := by
    cases negative with
    | false =>
      simp
      omega
    | true => simp
  unfold readCodeword
  rw [hread]
  simp only [bind, Except.bind]
  rw [hmod]
  rw [hsign]
  cases readTrailing u rest low with
  | error e => rfl
  | ok r =>
    cases hsigned : signed u negative r.2 with
    | error e =>
      simp only [hsigned]
      rfl
    | ok x =>
      simp only [hsigned]
      rfl

theorem readCodeword_short (h : l.length < 8)
    : readCodeword u l = .error "Unexpected end of signature data" := by
  unfold readCodeword
  unfold readLeading
  rw [if_pos h]
  rfl

theorem decodes : Decoder.Decodes codeword Compressible readCodeword where
  ok_iff u l rest x := by
    constructor
    . intro h
      by_cases hlength : l.length < 8
      . rw [readCodeword_short hlength] at h
        cases h
      . obtain ⟨negative, low, l', hlow, rfl⟩ := exists_leading_append (Nat.le_of_not_lt hlength)
        rw [readCodeword_leading negative hlow] at h
        obtain ⟨⟨l2, m⟩, htrailing, hsign⟩ := DecodeFinal.bind_eq_ok.mp h
        obtain ⟨high, rfl, hle, rfl⟩ := readTrailing_ok (by omega) htrailing
        cases hsigned : signed u negative (low + 128 * high) with
        | error e =>
          simp only [hsigned] at hsign
          cases hsign
        | ok y =>
          simp only [hsigned] at hsign
          cases hsign
          obtain ⟨rfl, habs⟩ := signed_ok_iff.mp hsigned
          have hmod : x.natAbs % 128 = low := by omega
          have hdiv : x.natAbs / 128 = high := by omega
          constructor
          . unfold Compressible
            omega
          . unfold codeword
            rw [hmod]
            rw [hdiv]
            rw [List.append_assoc]
    . rintro ⟨⟨hmin, hmax⟩, rfl⟩
      unfold codeword
      rw [List.append_assoc]
      rw [readCodeword_leading _ (Nat.mod_lt _ (by decide))]
      rw [readTrailing_trailing (by omega)]
      simp only [bind, Except.bind]
      rw [Nat.mod_add_div]
      rw [signed_ok_iff.mpr ⟨rfl, rfl⟩]
      rfl

theorem readCodeword_error : readCodeword u l = .error e ↔ Fault u l e := by
  constructor
  . intro h
    by_cases hlength : l.length < 8
    . rw [readCodeword_short hlength] at h
      cases h
      apply Fault.endOfLeading
      apply hlength
    . obtain ⟨negative, low, l', hlow, rfl⟩ := exists_leading_append (Nat.le_of_not_lt hlength)
      rw [readCodeword_leading negative hlow] at h
      cases htrailing : readTrailing u l' low with
      | error e' =>
        rw [htrailing] at h
        cases h
        cases (readTrailing_error (by omega)).mp htrailing with
        | inl hend =>
          obtain ⟨high, hle, rfl, rfl⟩ := hend
          apply Fault.endOfTrailing (leading negative low) high
          . exact length_leading negative low
          . omega
          . rfl
        | inr hlarge =>
          obtain ⟨high, hle, hlt, hprefix, rfl⟩ := hlarge
          -- the seven low bits are below 128, so it takes 16 zero bits to exceed 2047
          have hhigh : high + 1 = 16 := by omega
          rw [hhigh] at hprefix
          apply Fault.tooLarge (leading negative low)
          . exact length_leading negative low
          . rw [List.prefix_append_right_inj]
            apply hprefix
      | ok r =>
        obtain ⟨l2, m⟩ := r
        rw [htrailing] at h
        simp only [bind, Except.bind] at h
        cases hsigned : signed u negative m with
        | ok y =>
          rw [hsigned] at h
          cases h
        | error e' =>
          rw [hsigned] at h
          cases h
          obtain ⟨rfl, rfl, rfl⟩ := signed_error_iff.mp hsigned
          obtain ⟨high, hm, _, rfl⟩ := readTrailing_ok (by omega) htrailing
          have hlow0 : low = 0 := by omega
          have hhigh0 : high = 0 := by omega
          subst hlow0 hhigh0
          apply Fault.negativeZero
          rw [← List.append_assoc]
          apply List.prefix_append
  . intro h
    cases h with
    | negativeZero hprefix =>
      obtain ⟨rest, rfl⟩ := hprefix
      rw [List.append_assoc]
      rw [readCodeword_leading true (by decide)]
      rw [readTrailing_trailing (by omega)]
      rfl
    | tooLarge first hfirst hprefix =>
      obtain ⟨rest, rfl⟩ := hprefix
      obtain ⟨negative, low, hlow, rfl⟩ := exists_leading hfirst
      rw [List.append_assoc]
      rw [readCodeword_leading negative hlow]
      rw [(readTrailing_error (by omega)).mpr]
      . rfl
      . right
        refine ⟨15, by omega, by omega, ?_, rfl⟩
        apply List.prefix_append
    | endOfLeading hlength =>
      apply readCodeword_short
      apply hlength
    | endOfTrailing first high hfirst hhigh hl =>
      obtain ⟨negative, low, hlow, rfl⟩ := exists_leading hfirst
      rw [hl]
      rw [readCodeword_leading negative hlow]
      rw [(readTrailing_error (by omega)).mpr]
      . rfl
      . left
        exact ⟨high, by omega, rfl, rfl⟩

end

end FalconCode

namespace DecodeFinal

open JavaScript FalconCode

/-! ## The decoder does it in bytes -/

/-- The reader has the bits `l` in front of it. -/
def Before (buf : Bytes) (r : Reader) (l : List Bool) : Prop :=
  ∃ p, r.At buf p ∧ r.accLen < 8 ∧ r.bufIdx ≤ buf.length ∧ l = (Bits.bits buf).drop p

section

variable {buf : Bytes} {r : Reader} {l : List Bool} {u m : Nat}

theorem next_past (h : buf.length ≤ r.bufIdx)
    : next buf r = .error "Unexpected end of signature data" := by
  unfold next
  rw [if_pos h]

theorem next_load (h : r.bufIdx < buf.length)
    : next buf r = .ok { r.load buf with accLen := r.accLen } := by
  unfold next
  rw [if_neg (by omega)]
  rw [shr_zero]
  rfl

/-- What is taken off a byte that has all its bits. -/
theorem taken_bit {p : Nat} (hat : r.At buf p) (hpos : 0 < r.accLen) (hle : r.accLen ≤ 8)
    (hbuf : r.bufIdx ≤ buf.length)
    : ∃ b rest, (Bits.bits buf).drop p = b :: rest
        ∧ (shr r.acc (r.accLen - 1) &&& 1 ≠ 0 ↔ b = true)
        ∧ Before buf { r with accLen := r.accLen - 1 } rest := by
  have hposition := hat.position
  obtain ⟨hfield, hnext⟩ := hat.take hpos (by omega) (by omega)
  rw [Bits.field_one] at hfield
  refine ⟨Bits.bitAt buf p, (Bits.bits buf).drop (p + 1), ?_, ?_, ?_⟩
  . apply Bits.drop_bits
    omega
  . rw [Ne]
    rw [← BitVec.toNat_inj]
    rw [show (1 : BitVec 32) = BitVec.ofNat 32 (2 ^ 1 - 1) from rfl]
    rw [hfield]
    cases Bits.bitAt buf p <;> simp
  . refine ⟨p + 1, hnext, ?_, hbuf, rfl⟩
    dsimp only
    omega

theorem nextIfEmpty_before (h : Before buf r l)
    : (l = [] ∧ nextIfEmpty buf r = .error "Unexpected end of signature data")
        ∨ ∃ r' b rest, nextIfEmpty buf r = .ok r' ∧ l = b :: rest
          ∧ (shr r'.acc (r'.accLen - 1) &&& 1 ≠ 0 ↔ b = true)
          ∧ Before buf { r' with accLen := r'.accLen - 1 } rest := by
  obtain ⟨p, hat, hlen, hbuf, rfl⟩ := h
  have hposition := hat.position
  unfold nextIfEmpty
  split
  . next hzero =>
    by_cases hend : buf.length ≤ r.bufIdx
    . left
      rw [next_past hend]
      refine ⟨?_, rfl⟩
      apply Bits.drop_bits_past
      omega
    . right
      have hload : r.load buf = { r.load buf with accLen := 8 } := by
        unfold Reader.load
        rw [hzero]
      have hat' := hat.load (by omega)
      rw [hload] at hat'
      obtain ⟨b, rest, hdrop, hbit, hbefore⟩ := taken_bit hat' (Nat.succ_pos 7) (Nat.le_refl 8)
        (by simp only [Reader.load]; omega)
      rw [next_load (by omega)]
      exact ⟨_, b, rest, rfl, hdrop, hbit, hbefore⟩
  . next hne =>
    right
    obtain ⟨b, rest, hdrop, hbit, hbefore⟩ := taken_bit hat (by omega) (by omega) hbuf
    exact ⟨r, b, rest, rfl, hdrop, hbit, hbefore⟩

theorem unary_simulates (hm : m ≤ 2047) (h : Before buf r l)
    : Decoder.Simulates (Before buf) (unary buf u r m) (readTrailing u l m) := by
  induction l generalizing r m with
  | nil =>
    unfold unary
    cases nextIfEmpty_before h with
    | inl hend =>
      rw [hend.2]
      apply Decoder.Simulates.error
    | inr hbit =>
      obtain ⟨r', b, rest, _, hl, _⟩ := hbit
      cases hl
  | cons b l ih =>
    unfold unary
    cases nextIfEmpty_before h with
    | inl hend => cases hend.1
    | inr hbit =>
      obtain ⟨r', b', rest, hnext, hl, hone, hbefore⟩ := hbit
      cases hl
      rw [hnext]
      simp only [bind, Except.bind]
      cases b with
      | true =>
        rw [if_pos (hone.mpr rfl)]
        apply Decoder.Simulates.ok
        apply hbefore
      | false =>
        rw [if_neg (by simpa using hone)]
        unfold readTrailing
        split
        . apply Decoder.Simulates.error
        . apply ih
          . omega
          . apply hbefore

theorem and_sign {b : BitVec 32} (hb : b.toNat < 256) : b &&& 128 ≠ 0 ↔ 128 ≤ b.toNat := by
  have hand : (b &&& 128).toNat = (b.toNat.testBit 7).toNat * 2 ^ 7 := by
    rw [BitVec.toNat_and]
    exact Nat.and_two_pow b.toNat 7
  rw [Ne]
  rw [← BitVec.toNat_inj]
  rw [hand]
  rw [Nat.testBit_eq_decide_div_mod_eq]
  by_cases hle : 128 ≤ b.toNat
  . simp [hle]
    omega
  . simp [hle]
    omega

theorem coefficient_simulates (h : Before buf r l)
    : Decoder.Simulates (Before buf) (coefficient buf u r) (readCodeword u l) := by
  obtain ⟨p, hat, hlen, hbuf, rfl⟩ := h
  have hposition := hat.position
  have hlength : ((Bits.bits buf).drop p).length = 8 * buf.length - p := by
    rw [List.length_drop]
    rw [Bits.length_bits]
  unfold coefficient readCodeword readLeading
  by_cases hend : buf.length ≤ r.bufIdx
  . rw [next_past hend]
    rw [if_pos (by omega)]
    apply Decoder.Simulates.error
  . rw [next_load (by omega)]
    rw [if_neg (by omega)]
    simp only [bind, Except.bind]
    have hloaded : (r.load buf).accLen = r.accLen + 8 := rfl
    obtain ⟨hfield, hnext⟩ := (hat.load (by omega)).take (k := 8) (by omega) (by omega) (by omega)
    rw [hloaded] at hfield hnext
    rw [Nat.add_sub_cancel] at hfield hnext
    rw [Bits.field_eq_value (by omega)] at hfield
    change (shr (r.load buf).acc r.accLen &&& 0xFF).toNat = _ at hfield
    have hlt : (shr (r.load buf).acc r.accLen &&& 0xFF).toNat < 256 := by
      have hvalue := Bits.value_lt (((Bits.bits buf).drop p).take 8)
      rw [List.length_take] at hvalue
      rw [Nat.min_eq_left (by omega)] at hvalue
      rw [hfield]
      apply hvalue
    have hlow : (shr (r.load buf).acc r.accLen &&& 0xFF &&& 127).toNat
        = Bits.value (((Bits.bits buf).drop p).take 8) % 128 := by
      rw [← hfield]
      exact and_mask _ (k := 7) (by decide)
    rw [← hfield] at hlow ⊢
    rw [hlow]
    generalize shr (r.load buf).acc r.accLen &&& 0xFF = b at hlt ⊢
    apply Decoder.Simulates.bind
    . apply unary_simulates
      . omega
      . refine ⟨p + 8, hnext, hlen, ?_, ?_⟩
        . simp only [Reader.load]
          omega
        . rw [List.drop_drop]
    . intro s t m hst
      dsimp only
      unfold signed
      simp only [and_sign hlt, decide_eq_true_eq]
      split
      . apply Decoder.Simulates.error
      . apply Decoder.Simulates.ok
        apply hst

theorem coefficients_eq_many {k : Nat}
    : coefficients buf k u r = (Decoder.many (coefficient buf) k u r).map Prod.snd := by
  induction k generalizing u r with
  | zero => rfl
  | succ k ih =>
    unfold coefficients Decoder.many
    cases coefficient buf u r with
    | error e => rfl
    | ok first =>
      simp only [bind, Except.bind]
      rw [ih]
      cases Decoder.many (coefficient buf) k (u + 1) first.1 with
      | error e => rfl
      | ok tail => rfl

end

theorem decodeFalconSig_eq (buf : Bytes) (n : Nat)
    : decodeFalconSig buf n = (Decoder.many readCodeword n 0 (Bits.bits buf)).map Prod.snd := by
  unfold decodeFalconSig
  rw [coefficients_eq_many]
  apply Decoder.Simulates.map_snd
  apply Decoder.Simulates.many
  . intro u s t hst
    apply coefficient_simulates
    apply hst
  . exact ⟨0, ⟨rfl, rfl⟩, by decide, Nat.zero_le _, rfl⟩

/-- The decoder accepts exactly the byte strings that start with so many codewords of coefficients, and
otherwise names the first that is wrong and what is wrong with it. -/
theorem decodeFalconSig_exact (buf : Bytes) (n : Nat)
    : (∀ xs, decodeFalconSig buf n = .ok xs
          ↔ xs.length = n ∧ (∀ x ∈ xs, Compressible x) ∧ xs.flatMap codeword <+: Bits.bits buf)
        ∧ ∀ e, decodeFalconSig buf n = .error e
          ↔ ∃ (xs : List Int) (rest : List Bool), xs.length < n ∧ (∀ x ∈ xs, Compressible x)
            ∧ Bits.bits buf = xs.flatMap codeword ++ rest ∧ Fault xs.length rest e := by
  rw [decodeFalconSig_eq]
  constructor
  . intro xs
    constructor
    . intro h
      cases hmany : Decoder.many readCodeword n 0 (Bits.bits buf) with
      | error e =>
        rw [hmany] at h
        cases h
      | ok r =>
        rw [hmany] at h
        cases h
        obtain ⟨hlength, hsmall, hbits⟩ := FalconCode.decodes.many_ok_iff.mp hmany
        refine ⟨hlength, hsmall, ?_⟩
        rw [hbits]
        apply List.prefix_append
    . rintro ⟨hlength, hsmall, rest, hbits⟩
      rw [FalconCode.decodes.many_ok_iff.mpr ⟨hlength, hsmall, hbits.symm⟩]
      rfl
  . intro e
    have hmap : (Decoder.many readCodeword n 0 (Bits.bits buf)).map Prod.snd = .error e
        ↔ Decoder.many readCodeword n 0 (Bits.bits buf) = .error e := by
      cases Decoder.many readCodeword n 0 (Bits.bits buf) <;> simp [Except.map]
    rw [hmap]
    rw [FalconCode.decodes.many_error_iff]
    simp only [Nat.zero_add, readCodeword_error]

end DecodeFinal
