import FalconSmartAccount.EntryPoint.UserOpHash

/-!
Validation data in one word: the aggregator and the time range, as `Helpers.sol` and the client library
pack and parse them, and as the entry point reads them.
-/

/-! ## Helpers -/

namespace Helpers

open Yul

/-- `_packValidationData(ValidationData)`. -/
def packValidationData (data : ValidationData) : Nat :=
  data.aggregator.toNat ||| shl 160 data.validUntil ||| shl 208 data.validAfter

/-- `_packValidationData(bool,uint48,uint48)`. -/
def packSigFailed (sigFailed : Bool) (validUntil validAfter : Nat) : Nat :=
  (if sigFailed then 1 else 0) ||| shl 160 validUntil ||| shl 208 validAfter

end Helpers

namespace Client

structure ValidationData where
  aggregator : Bytes
  validAfter : Nat
  validUntil : Nat

def maxUint48 : Nat := 2 ^ 48 - 1

section

open Ethers

variable [Ethers]

def parseValidationData (validationData : Nat) : Option ValidationData := do
  let data ← hexZeroPad (hexlify validationData) 32
  let aggregator := hexDataSlice data (32 - 20) none
  let validUntil := JavaScript.parseInt (hexDataSlice data (32 - 26) (some (32 - 20)))
  let validAfter := JavaScript.parseInt (hexDataSlice data 0 (some 6))
  return {
    aggregator
    validAfter
    validUntil := if validUntil = 0 then maxUint48 else validUntil }

/-- Shifts of a `BigNumber` are products. -/
def packValidationData (validationData : ValidationData) : Option Int := do
  let validAfter ← bigNumberFrom (.number validationData.validAfter)
  let validUntil ← bigNumberFrom (.number validationData.validUntil)
  let aggregator ← bigNumberFrom (.hex validationData.aggregator)
  return (validAfter * 2 ^ 48 + validUntil) * 2 ^ 160 + aggregator

end

end Client

/-- The fields as the client library holds them. -/
def ValidationData.toClient (data : ValidationData) : Client.ValidationData :=
  ⟨Abi.uintBytes 20 data.aggregator.toNat, data.validAfter, data.validUntil⟩

/-! ## Packing -/

/-- Three fields that do not overlap. -/
theorem or_fields {a u v : Nat} (ha : a < 2 ^ 160) (hu : u < 2 ^ 48) (hv : v < 2 ^ 48)
    : a ||| Yul.shl 160 u ||| Yul.shl 208 v = a + u * 2 ^ 160 + v * 2 ^ 208 := by
  have hshl : Yul.shl 160 u = u <<< 160 := by
    unfold Yul.shl Yul.wordSize
    rw [Nat.shiftLeft_eq]
    omega
  have hshl' : Yul.shl 208 v = v <<< 208 := by
    unfold Yul.shl Yul.wordSize
    rw [Nat.shiftLeft_eq]
    omega
  have hlow : a ||| u <<< 160 = u <<< 160 + a := by
    rw [Nat.lor_comm]
    exact (Nat.shiftLeft_add_eq_or_of_lt ha u).symm
  have hlt : u <<< 160 + a < 2 ^ 208 := by
    rw [Nat.shiftLeft_eq]
    omega
  rw [hshl, hshl', hlow, Nat.lor_comm]
  rw [← Nat.shiftLeft_add_eq_or_of_lt hlt v]
  rw [Nat.shiftLeft_eq, Nat.shiftLeft_eq]
  omega

namespace Helpers

variable {data : ValidationData} (hafter : data.validAfter < 2 ^ 48)
  (huntil : data.validUntil < 2 ^ 48)

include hafter huntil

theorem packValidationData_eq
    : packValidationData data
        = data.aggregator.toNat + data.validUntil * 2 ^ 160 + data.validAfter * 2 ^ 208 :=
  or_fields data.aggregator.isLt huntil hafter

theorem parseValidationData_packValidationData
    : parseValidationData (packValidationData data)
        = { data with
            validUntil := if data.validUntil = 0 then 2 ^ 48 - 1 else data.validUntil } := by
  have ha := data.aggregator.isLt
  have huntil' : packValidationData data >>> 160 % 2 ^ 48 = data.validUntil := by
    rw [packValidationData_eq hafter huntil, Nat.shiftRight_eq_div_pow]
    omega
  have hafter' : packValidationData data >>> 208 % 2 ^ 48 = data.validAfter := by
    rw [packValidationData_eq hafter huntil, Nat.shiftRight_eq_div_pow]
    omega
  have haggregator : BitVec.ofNat 160 (packValidationData data) = data.aggregator := by
    apply BitVec.eq_of_toNat_eq
    rw [BitVec.toNat_ofNat, packValidationData_eq hafter huntil]
    omega
  unfold parseValidationData
  rw [huntil', hafter', haggregator]

/-- The client library adds what the contract combines bitwise. -/
theorem packValidationData_client [Ethers] [LawfulEthers]
    : Client.packValidationData data.toClient = some (packValidationData data : Int) := by
  have ha := data.aggregator.isLt
  have hsafe {n : Nat} (hn : n < 2 ^ 48) : |(n : Int)| < MAX_SAFE := by
    unfold MAX_SAFE
    rw [abs_of_nonneg (Int.natCast_nonneg n)]
    omega
  have haggregator : Abi.uintAt data.toClient.aggregator 0 data.toClient.aggregator.length
      = data.aggregator.toNat := by
    unfold ValidationData.toClient
    rw [Abi.uintBytes_length, Abi.uintAt_uintBytes (by omega)]
    exact Nat.mod_eq_of_lt ha
  have hne : data.toClient.aggregator ≠ [] := by
    apply List.ne_nil_of_length_pos
    unfold ValidationData.toClient
    rw [Abi.uintBytes_length]
    decide
  have hvalidAfter : Ethers.bigNumberFrom (.number data.toClient.validAfter) = some (data.validAfter : Int) :=
    LawfulEthers.bigNumberFrom_number _ (hsafe hafter)
  have hvalidUntil : Ethers.bigNumberFrom (.number data.toClient.validUntil) = some (data.validUntil : Int) :=
    LawfulEthers.bigNumberFrom_number _ (hsafe huntil)
  have hwords : ((data.validAfter : Int) * 2 ^ 48 + data.validUntil) * 2 ^ 160 + data.aggregator.toNat
      = (packValidationData data : Int) := by
    rw [packValidationData_eq hafter huntil]
    push_cast
    ring
  unfold Client.packValidationData
  rw [hvalidAfter, hvalidUntil, LawfulEthers.bigNumberFrom_hex _ hne, haggregator]
  exact congrArg some hwords

end Helpers

/-! ## Parsing -/

theorem packSigFailed_eq (sigFailed : Bool) (validUntil validAfter : Nat)
    : Helpers.packSigFailed sigFailed validUntil validAfter
        = Helpers.packValidationData ⟨if sigFailed then 1 else 0, validAfter, validUntil⟩ := by
  cases sigFailed <;> rfl

section

variable [Ethers] [LawfulEthers]

/-- A slice of a hex string as a number. -/
theorem parseInt_hexDataSlice {data : Bytes} {start stop : Nat} (hle : start ≤ stop)
    (hstop : stop ≤ data.length)
    : JavaScript.parseInt (Ethers.hexDataSlice data start (some stop)) = Abi.uintAt data start (stop - start) := by
  have hlength : ((data.take stop).drop start).length = stop - start := by
    rw [List.length_drop, List.length_take, Nat.min_eq_left hstop]
  rw [LawfulEthers.hexDataSlice _ _ _ hle hstop]
  unfold JavaScript.parseInt
  rw [hlength]
  apply List.foldl_ext
  intro acc i hi
  have hi' : i < stop - start := List.mem_range.mp hi
  have hlt : start + i < stop := by omega
  simp [hlt]

theorem parseValidationData_client {x : Nat} (hx : x < 2 ^ 256)
    : Client.parseValidationData x = some (parseValidationData x).toClient := by
  have hlength : (Abi.uintBytes 32 x).length = 32 := Abi.uintBytes_length 32 x
  have hpadded : Ethers.hexZeroPad (Ethers.hexlify x) 32 = some (Abi.uintBytes 32 x) := by
    apply Ethers.hexZeroPad_hexlify
    . decide
    . norm_num
      exact hx
  have huntil : JavaScript.parseInt (Ethers.hexDataSlice (Abi.uintBytes 32 x) (32 - 26) (some (32 - 20)))
      = x >>> 160 % 2 ^ 48 := by
    rw [parseInt_hexDataSlice (by omega) (by omega)]
    exact Abi.uintAt_uintBytes (by omega) x
  have hafter : JavaScript.parseInt (Ethers.hexDataSlice (Abi.uintBytes 32 x) 0 (some 6))
      = x >>> 208 % 2 ^ 48 := by
    rw [parseInt_hexDataSlice (by omega) (by omega)]
    exact Abi.uintAt_uintBytes (by omega) x
  have haggregator : Ethers.hexDataSlice (Abi.uintBytes 32 x) (32 - 20) none
      = Abi.uintBytes 20 (BitVec.ofNat 160 x).toNat := by
    rw [LawfulEthers.hexDataSlice_end _ _ (by omega)]
    rw [BitVec.toNat_ofNat]
    rw [Abi.uintBytes_mod 20 x]
    exact Abi.drop_uintBytes 12 20 x
  unfold Client.parseValidationData
  rw [hpadded]
  simp only [Option.bind_eq_bind, Option.bind_some, huntil, hafter, haggregator]
  rfl

end

/-! ## The entry point -/

/-- The time is in the window that the word gives: from the upper 48 bits on, until the middle 48 bits
unless these are zero. -/
def InWindow (timestamp x : Nat) : Prop :=
  x / 2 ^ 208 ≤ timestamp ∧ (x / 2 ^ 160 % 2 ^ 48 = 0 ∨ timestamp ≤ x / 2 ^ 160 % 2 ^ 48)

instance decidableInWindow (timestamp x : Nat) : Decidable (InWindow timestamp x) :=
  inferInstanceAs (Decidable (_ ∧ _))

namespace EntryPoint

variable {timestamp x : Nat} (ht : timestamp < 2 ^ 48) (hx : x < 2 ^ 256)

include ht hx

theorem getValidationData_eq
    : getValidationData timestamp x = (BitVec.ofNat 160 x, decide ¬InWindow timestamp x) := by
  have hafter : x >>> 208 % 2 ^ 48 = x / 2 ^ 208 := by
    rw [Nat.shiftRight_eq_div_pow]
    omega
  unfold getValidationData
  split
  . next hzero =>
    subst hzero
    simp [InWindow]
  . unfold parseValidationData InWindow
    rw [hafter, Nat.shiftRight_eq_div_pow]
    refine Prod.ext rfl ?_
    apply decide_eq_decide.mpr
    dsimp only
    split
    . omega
    . omega

/-- Packing what has been parsed changes nothing for the entry point. -/
theorem getValidationData_packValidationData
    : getValidationData timestamp (Helpers.packValidationData (parseValidationData x))
        = getValidationData timestamp x := by
  have hu : (parseValidationData x).validUntil
      = if x / 2 ^ 160 % 2 ^ 48 = 0 then 2 ^ 48 - 1 else x / 2 ^ 160 % 2 ^ 48 := by
    unfold parseValidationData
    rw [Nat.shiftRight_eq_div_pow]
  have hv : (parseValidationData x).validAfter = x / 2 ^ 208 := by
    have hdiv : x >>> 208 % 2 ^ 48 = x / 2 ^ 208 := by
      rw [Nat.shiftRight_eq_div_pow]
      omega
    exact hdiv
  have ha : (parseValidationData x).aggregator.toNat = x % 2 ^ 160 := BitVec.toNat_ofNat x 160
  have hlt : (parseValidationData x).validUntil < 2 ^ 48 := by
    rw [hu]
    split <;> omega
  have hlt' : (parseValidationData x).validAfter < 2 ^ 48 := by
    rw [hv]
    omega
  obtain ⟨y, hy⟩ : ∃ y, y = Helpers.packValidationData (parseValidationData x) := ⟨_, rfl⟩
  rw [← hy]
  rw [Helpers.packValidationData_eq hlt' hlt, ha, hu, hv] at hy
  have haggregator : BitVec.ofNat 160 y = BitVec.ofNat 160 x := by
    apply BitVec.eq_of_toNat_eq
    rw [BitVec.toNat_ofNat, BitVec.toNat_ofNat]
    omega
  have hy' : y < 2 ^ 256 := by
    split at hy <;> omega
  have hwindow : InWindow timestamp y ↔ InWindow timestamp x := by
    unfold InWindow
    split at hy <;> omega
  rw [getValidationData_eq ht hy', getValidationData_eq ht hx]
  rw [haggregator]
  simp only [hwindow]

end EntryPoint

/-- All parties read and write the same word. -/
theorem validationData_agrees [Ethers] [LawfulEthers]
    : (∀ data : ValidationData, data.validAfter < 2 ^ 48 → data.validUntil < 2 ^ 48 →
          parseValidationData (Helpers.packValidationData data)
              = { data with
                  validUntil := if data.validUntil = 0 then 2 ^ 48 - 1 else data.validUntil }
            ∧ Client.packValidationData data.toClient = some (Helpers.packValidationData data : Int))
        ∧ (∀ sigFailed validUntil validAfter,
          Helpers.packSigFailed sigFailed validUntil validAfter
            = Helpers.packValidationData ⟨if sigFailed then 1 else 0, validAfter, validUntil⟩)
        ∧ ∀ x < 2 ^ 256, Client.parseValidationData x = some (parseValidationData x).toClient
          ∧ ∀ timestamp < 2 ^ 48,
            EntryPoint.getValidationData timestamp x
                = (BitVec.ofNat 160 x, decide ¬InWindow timestamp x)
              ∧ EntryPoint.getValidationData timestamp
                  (Helpers.packValidationData (parseValidationData x))
                = EntryPoint.getValidationData timestamp x := by
  refine ⟨?_, packSigFailed_eq, ?_⟩
  . intro data hafter huntil
    exact ⟨Helpers.parseValidationData_packValidationData hafter huntil,
      Helpers.packValidationData_client hafter huntil⟩
  . intro x hx
    refine ⟨parseValidationData_client hx, ?_⟩
    intro timestamp ht
    exact ⟨EntryPoint.getValidationData_eq ht hx,
      EntryPoint.getValidationData_packValidationData ht hx⟩

theorem validationData_agrees_aggregated
    : let _ := Ethers.sample
      let data : ValidationData := ⟨3, 7, 0⟩
      Client.packValidationData data.toClient = some (Helpers.packValidationData data : Int)
        ∧ Client.parseValidationData (Helpers.packValidationData data)
          = some (parseValidationData (Helpers.packValidationData data)).toClient
        ∧ EntryPoint.getValidationData 6 (Helpers.packValidationData data) = (3, true) := by
  intro ethers data
  have hlawful : LawfulEthers := Ethers.sample_lawful
  obtain ⟨hpack, _, hword⟩ := validationData_agrees
  obtain ⟨hparse, hread⟩ := hword (Helpers.packValidationData data) (by decide)
  refine ⟨(hpack data (by decide) (by decide)).2, hparse, ?_⟩
  rw [(hread 6 (by decide)).1]
  decide

example : EntryPoint.getValidationData 5 (Helpers.packSigFailed true 4 2) = (1, true) := by
  decide
