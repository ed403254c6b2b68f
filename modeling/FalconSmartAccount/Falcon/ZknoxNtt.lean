import FalconSmartAccount.Evm.Abi
import FalconSmartAccount.Evm.Solidity
import FalconSmartAccount.Falcon.PsiTables

/-!
The stateful part of the contract `ZKNOX_NTT`. The transforms are inline assembly that works on the
memory of a `uint256[] memory` in place: the length is the word at the array's pointer `a` and entry
`j` the word at `a + 32 * (j + 1)`.
-/

/-- Memory by word: the contracts only access words at multiples of 32 from their array. -/
structure Memory where
  mload : Nat → Nat

namespace Memory

def mstore (mem : Memory) (p v : Nat) : Memory where
  mload p' := if p' = p then v else mem.mload p'

/-- A freshly decoded `uint256[] memory` at `a`. -/
def ofArray (a : Nat) (xs : List Nat) : Memory where
  mload p := if p = a then xs.length else xs.getD ((p - a) / 32 - 1) 0

def toArray (mem : Memory) (a : Nat) : List Nat :=
  (List.range (mem.mload a)).map fun j => mem.mload (a + 32 * (j + 1))

end Memory

/-- The word that `extcodecopy` leaves in memory. -/
def extcodeword (code : Bytes) (offset : Nat) : Nat := Abi.wordAt code offset

namespace ZKNOX_NTT

open Yul

structure Storage where
  o_psirev : Address
  o_psi_inv_rev : Address
  storage_q : Nat
  storage_nm1modq : Nat
  is_immutable : Nat
  deriving DecidableEq

def constructor (Apsi_rev Apsi_inrev : Address) (q nm1modq : Nat) : Storage where
  storage_q := q
  storage_nm1modq := nm1modq
  o_psirev := Apsi_rev
  o_psi_inv_rev := Apsi_inrev
  is_immutable := 1

def update (s : Storage) (Apsi_rev Apsi_inrev : Address) (q nm1modq : Nat) : Storage :=
  if s.is_immutable > 0 then
    { s with
      storage_q := q
      storage_nm1modq := nm1modq
      o_psirev := Apsi_rev
      o_psi_inv_rev := Apsi_inrev }
  else
    s

def make_immutable (s : Storage) : Storage :=
  { s with is_immutable := 1 }

/-! ## Vector operations -/

def ZKNOX_VECMULMOD (a b : List Nat) (q : Nat) : Checked (List Nat) := do
  Solidity.assert (a.length == b.length)
  (a.zip b).mapM fun (x, y) => Solidity.mulmod x y q

def ZKNOX_VECADDMOD (a b : List Nat) (q : Nat) : Checked (List Nat) := do
  Solidity.assert (a.length == b.length)
  (a.zip b).mapM fun (x, y) => Solidity.addmod x y q

def ZKNOX_VECSUBMOD (a b : List Nat) (q : Nat) : Checked (List Nat) := do
  Solidity.assert (a.length == b.length)
  (a.zip b).mapM fun (x, y) => do Solidity.addmod x (← Solidity.sub q y) q

/-! ## Forward transform -/

/-- The innermost loop body of `ZKNOX_NTTFW`. -/
def nttfwButterfly (a t q S j : Nat) (mem : Memory) : Memory :=
  let a_aj := add a (mul (add j 1) 32)
  let U := mem.mload a_aj
  let a_aj := add a_aj (mul t 32)
  let V := mulmod (mem.mload a_aj) S q
  let mem := mem.mstore a_aj (addmod U (sub q V) q)
  let a_aj := sub a_aj (mul t 32)
  mem.mstore a_aj (addmod U V q)

def nttfwBlock (psi_rev : Bytes) (a m t q i : Nat) (mem : Memory) : Memory :=
  let j1 := shl 1 (mul i t)
  let j2 := sub (add j1 t) 1
  let S := extcodeword psi_rev (mul (add i m) 32)
  forLoop j1 (add j2 1) (nttfwButterfly a t q S) mem

/-- `for {} gt(n, m) {} { .. }`. The counter doubles, so a word runs out after `fuel = 256` rounds. -/
def nttfwWhile (psi_rev : Bytes) (a n q : Nat) : Nat → Nat → Nat → Memory → Memory
  | 0, _, _, mem => mem
  | fuel + 1, t, m, mem =>
    if n > m then
      let t := shr 1 t
      let mem := forLoop 0 m (nttfwBlock psi_rev a m t q) mem
      nttfwWhile psi_rev a n q fuel t (shl 1 m) mem
    else
      mem

/-- Where Solidity places the first array it allocates. -/
def freePointer : Nat := 0x80

/-- `psi_rev` is the code at the address argument `apsirev`. -/
def ZKNOX_NTTFW (s : Storage) (a : List Nat) (psi_rev : Bytes) : List Nat :=
  let mem := Memory.ofArray freePointer a
  let n := mem.mload freePointer
  (nttfwWhile psi_rev freePointer n s.storage_q 256 n 1 mem).toArray freePointer

/-! ## Inverse transform -/

/-- The innermost loop body of `ZKNOX_NTTINV`. -/
def nttinvButterfly (a t q S j : Nat) (mem : Memory) : Memory :=
  let a_aj := add a (mul (add j 1) 32)
  let U := mem.mload a_aj
  let a_aj := add a_aj (mul t 32)
  let V := mem.mload a_aj
  let mem := mem.mstore a_aj (mulmod (addmod U (sub q V) q) S q)
  let a_aj := sub a_aj (mul t 32)
  mem.mstore a_aj (addmod U V q)

/-- The loop over `i` also carries the start `j1` of the block. -/
def nttinvBlock (psi_inv_rev : Bytes) (a h t q i : Nat) (s : Nat × Memory) : Nat × Memory :=
  let j1 := s.1
  let j2 := sub (add j1 t) 1
  let S := extcodeword psi_inv_rev (mul (add i h) 32)
  (add j1 (shl 1 t), forLoop j1 (add j2 1) (nttinvButterfly a t q S) s.2)

/-- `for {} gt(m, 1) {} { .. }`: a word has at most 256 halvings. -/
def nttinvWhile (psi_inv_rev : Bytes) (a q : Nat) : Nat → Nat → Nat → Memory → Memory
  | 0, _, _, mem => mem
  | fuel + 1, t, m, mem =>
    if m > 1 then
      let h := shr 1 m
      let mem := (forLoop 0 h (nttinvBlock psi_inv_rev a h t q) (0, mem)).2
      nttinvWhile psi_inv_rev a q fuel (shl 1 t) (shr 1 m) mem
    else
      mem

/-- The last loop of `ZKNOX_NTTINV`. -/
def nttinvScale (a q nm1modq j : Nat) (mem : Memory) : Memory :=
  let a_aj := add a (mul (add j 1) 32)
  mem.mstore a_aj (mulmod (mem.mload a_aj) nm1modq q)

def ZKNOX_NTTINV (s : Storage) (a : List Nat) (psi_inv_rev : Bytes) : List Nat :=
  let mem := Memory.ofArray freePointer a
  let mem := nttinvWhile psi_inv_rev freePointer s.storage_q 256 1 (mem.mload freePointer) mem
  let mem := forLoop 0 (mem.mload freePointer) (nttinvScale freePointer s.storage_q s.storage_nm1modq) mem
  mem.toArray freePointer

/-! ## Products. `code` is the code of the other contracts. -/

def ZKNOX_NTT_HALFMUL (code : Address → Bytes) (s : Storage) (a b : List Nat)
    : Checked (List Nat) := do
  let p ← ZKNOX_VECMULMOD (ZKNOX_NTTFW s a (code s.o_psirev)) b s.storage_q
  return ZKNOX_NTTINV s p (code s.o_psi_inv_rev)

def ZKNOX_NTT_MUL (code : Address → Bytes) (s : Storage) (a b : List Nat)
    : Checked (List Nat) := do
  let fa := ZKNOX_NTTFW s a (code s.o_psirev)
  let fb := ZKNOX_NTTFW s b (code s.o_psirev)
  let p ← ZKNOX_VECMULMOD fa fb s.storage_q
  return ZKNOX_NTTINV s p (code s.o_psi_inv_rev)

end ZKNOX_NTT
