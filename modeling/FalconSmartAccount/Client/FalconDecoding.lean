import FalconSmartAccount.Client.BitReader
import FalconSmartAccount.Evm.Word

/-!
How the client unpacks Falcon keys and signatures: `anvil-falcon-tx.ts`, which the test of the account
shares its functions with, and the stricter `decode-final.js`.
-/

namespace JavaScript

/-- `bytes.subarray(start, stop)`. -/
def subarray (bytes : Bytes) (start stop : Nat) : Bytes := (bytes.take stop).drop start

end JavaScript

namespace AnvilFalconTx

open JavaScript

/-- `while (accLen < bits)`. -/
def refill (inData : Bytes) (bits : Nat) (state : Reader) : Reader :=
  if state.accLen < bits then refill inData bits (state.load inData) else state
termination_by bits - state.accLen
decreasing_by
  simp only [Reader.load]
  omega

/-- This never throws. -/
def decodePk (inData : Bytes) : List Nat :=
  coefficients 512 ⟨0, 0, 1⟩
where
  coefficients : Nat → Reader → List Nat
  | 0, _ => []
  | u + 1, state =>
    let state := refill inData 14 state
    let state := { state with accLen := state.accLen - 14 }
    (sar state.acc state.accLen &&& 0x3FFF).toNat :: coefficients u state

section

variable (signMsg : Bytes)

def readBits (bits : Nat) (state : Reader) : Reader × BitVec 32 :=
  let state := refill signMsg bits state
  let state := { state with accLen := state.accLen - bits }
  (state, sar state.acc state.accLen &&& (shl 1 bits - 1))

def readBit (state : Reader) : Reader × BitVec 32 :=
  let state :=
    if state.accLen = 0 then
      { acc := shl state.acc 8 ||| byteAt signMsg state.bufIdx
        accLen := 8
        bufIdx := state.bufIdx + 1 }
    else
      state
  let state := { state with accLen := state.accLen - 1 }
  (state, sar state.acc state.accLen &&& 1)

/-- `while (readBit() === 0) m += 128`. Nothing else bounds the number of rounds, so `fuel` does. -/
def unary : Nat → Reader → Nat → Option (Reader × Nat)
  | 0, _, _ => none
  | fuel + 1, state, m =>
    let (state, bit) := readBit signMsg state
    if bit = 0 then unary fuel state (m + 128) else some (state, m)

def coefficient (fuel : Nat) (state : Reader) : Option (Reader × Int) := do
  let (state, b) := readBits signMsg 8 state
  let s := b &&& 128
  let (state, m) ← unary signMsg fuel state (b &&& 127).toNat
  let valBig : Int := if s ≠ 0 then -m else m
  return (state, if valBig < 0 then valBig + 12289 else valBig)

def coefficients (fuel : Nat) : Nat → Reader → Option (List Int)
  | 0, _ => some []
  | u + 1, state => do
    let (state, valBig) ← coefficient signMsg fuel state
    let s2 ← coefficients fuel u state
    return valBig :: s2

end

structure Decompressed where
  s2 : List Int
  salt : Bytes

def decompressS2 (fuel : Nat) (signMsg : Bytes) : Option Decompressed := do
  let salt := subarray signMsg 2 42
  let s2 ← coefficients signMsg fuel 512 ⟨0, 0, 43⟩
  return ⟨s2, salt⟩

end AnvilFalconTx

namespace DecodeFinal

open JavaScript

/-- `idx` is the reader's `bufIdx`. -/
def decodeFalconPk (pkBytes : Bytes) (n : Nat) : Except String (List Nat) :=
  loop 0 ⟨0, 0, 1⟩ []
where
  loop (u : Nat) (state : Reader) (coeffs : List Nat) : Except String (List Nat) :=
    if u < n then
      let state := state.load pkBytes
      if 14 ≤ state.accLen then
        let state := { state with accLen := state.accLen - 14 }
        let w := (shr state.acc state.accLen &&& 0x3FFF).toNat
        if 12289 ≤ w then
          .error s!"pk coeff {u} out of range: {w}"
        else
          loop (u + 1) state (coeffs ++ [w])
      else
        loop u state coeffs
    else
      .ok coeffs
  termination_by (n - u, 14 - state.accLen)
  decreasing_by
    . left
      omega
    . next h =>
      change ¬14 ≤ _ + 8 at h
      right
      change 14 - (_ + 8) < _
      omega

section

variable (buf : Bytes)

/-- `acc = ((acc << 8) | buf[v++]) >>> 0`, where `v` is the reader's `bufIdx`. -/
def next (state : Reader) : Except String Reader :=
  if buf.length ≤ state.bufIdx then
    .error "Unexpected end of signature data"
  else
    .ok { state with
      acc := shr (shl state.acc 8 ||| byteAt buf state.bufIdx) 0
      bufIdx := state.bufIdx + 1 }

/-- `if (accLen === 0)`. -/
def nextIfEmpty (state : Reader) : Except String Reader :=
  if state.accLen = 0 then
    (next buf state).map fun state => { state with accLen := 8 }
  else
    .ok state

/-- Count 0s until 1. -/
def unary (u : Nat) (state : Reader) (m : Nat) : Except String (Reader × Nat) := do
  let state ← nextIfEmpty buf state
  let state := { state with accLen := state.accLen - 1 }
  if shr state.acc state.accLen &&& 1 ≠ 0 then
    return (state, m)
  else if _h : 2047 < m + 128 then
    .error s!"Coefficient too large at index {u}"
  else
    unary u state (m + 128)
termination_by 2048 - m

def coefficient (u : Nat) (state : Reader) : Except String (Reader × Int) := do
  let state ← next buf state
  let b := shr state.acc state.accLen &&& 0xFF
  let s := b &&& 128
  let (state, m) ← unary buf u state (b &&& 127).toNat
  if s ≠ 0 ∧ m = 0 then
    .error s!"Forbidden -0 at index {u}"
  else
    return (state, if s ≠ 0 then -m else m)

/-- The coefficients from `u` on. -/
def coefficients : Nat → Nat → Reader → Except String (List Int)
  | 0, _, _ => .ok []
  | k + 1, u, state => do
    let (state, x) ← coefficient buf u state
    let xs ← coefficients k (u + 1) state
    return x :: xs

end

def decodeFalconSig (compData : Bytes) (n : Nat) : Except String (List Int) :=
  coefficients compData n 0 ⟨0, 0, 0⟩

def toModQ (signedCoeffs : List Int) (q : Int) : List Int :=
  signedCoeffs.map fun c => if c < 0 then q + c else c

def extractNonce (sigBytes : Bytes) : Bytes := subarray sigBytes 2 42

structure Decoded where
  s2 : List Int
  nonce : Bytes
  signedS2 : List Int

def decodeFalconSignature (sigBytes : Bytes) (n : Nat) : Except String Decoded := do
  let nonce := extractNonce sigBytes
  let compData := sigBytes.drop 43
  let signedS2 ← decodeFalconSig compData n
  return ⟨toModQ signedS2 12289, nonce, signedS2⟩

end DecodeFinal
