import FalconSmartAccount.Falcon.HashToPoint
import FalconSmartAccount.Falcon.ZknoxNtt

/-!
The contract `ZKNOX_falcon`, with the contracts it calls.
-/

namespace ZKNOX_falcon

def n : Nat := 512

def sigBound : Nat := 34034726

abbrev q : Nat := 12289

structure Signature where
  salt : Bytes
  s2 : Vector Nat 512

/-- `ntt` and `H2P` are only set by the constructor, so the contract at `ntt` is part of the stack. -/
structure Storage where
  qs1 : Nat
  ntt : ZKNOX_NTT.Storage

def constructor (i_ntt : ZKNOX_NTT.Storage) : Storage where
  qs1 := 6144
  ntt := i_ntt

/-- `if (s[i] > qs1) s[i] = q - s[i]`, for every entry. -/
def normalize (st : Storage) (s : List Nat) : Checked (List Nat) :=
  s.mapM fun x => if x > st.qs1 then Solidity.sub q x else .ok x

def norm (s1 s2 : List Nat) : Checked Nat :=
  (s1.zip s2).foldlM
    (fun norm (x1, x2) => do
      let norm ← Solidity.add norm (← Solidity.mul x1 x1)
      Solidity.add norm (← Solidity.mul x2 x2))
    0

section

variable (keccak256 : Bytes → Word) (code : Address → Bytes)

/-- The body that `verify` and `verify_opt` share; they differ in the product they call. -/
def verifyWith (mul : List Nat → Checked (List Nat)) (gas : Nat) (st : Storage) (msgs : Bytes)
    (signature : Signature) (h : List Nat) : Checked Bool := do
  if h.length ≠ 512 then
    return false
  if signature.salt.length ≠ 40 then
    return false
  let s2 := signature.s2.toList
  let hashed ← ZKNOX_HashToPoint.hashToPoint keccak256 gas signature.salt msgs q n
  let s1 ← ZKNOX_NTT.ZKNOX_VECSUBMOD hashed (← mul s2) q
  let s1 ← normalize st s1
  let s2 ← normalize st s2
  let norm ← norm s1 s2
  if norm > sigBound then
    return false
  else
    return true

def verify (gas : Nat) (st : Storage) (msgs : Bytes) (signature : Signature) (h : List Nat)
    : Checked Bool :=
  verifyWith keccak256 (fun s2 => ZKNOX_NTT.ZKNOX_NTT_MUL code st.ntt s2 h) gas st msgs signature h

/-- As above but takes the precomputed transform of the public key. -/
def verify_opt (gas : Nat) (st : Storage) (msgs : Bytes) (signature : Signature) (ntth : List Nat)
    : Checked Bool :=
  verifyWith keccak256 (fun s2 => ZKNOX_NTT.ZKNOX_NTT_HALFMUL code st.ntt s2 ntth) gas st msgs
    signature ntth

end

end ZKNOX_falcon
