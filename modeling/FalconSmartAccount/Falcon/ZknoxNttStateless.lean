import FalconSmartAccount.Falcon.ZknoxNtt

/-!
The stateless part of the contract `ZKNOX_NTT`: plain Solidity with checked arithmetic, on the tables
that the contract stores itself. These functions overload the stateful ones.
-/

namespace ZKNOX_NTT

namespace Stateless

/-- `for (uint256 i = lo; i < hi; i++)`, left as soon as a round reverts. -/
def forLoop (lo hi : Nat) (body : Nat → σ → Checked σ) (s : σ) : Checked σ :=
  (List.range' lo (hi - lo)).foldlM (fun s i => body i s) s

def nttfwButterfly (t q S j : Nat) (a : List Nat) : Checked (List Nat) := do
  let U ← Solidity.get a j
  let V ← Solidity.mulmod (← Solidity.get a (← Solidity.add j t)) S q
  let a ← Solidity.set a j (← Solidity.addmod U V q)
  Solidity.set a (← Solidity.add j t) (← Solidity.addmod U (← Solidity.sub q V) q)

def nttfwBlock (m t q i : Nat) (a : List Nat) : Checked (List Nat) := do
  let j1 := Yul.shl 1 (← Solidity.mul i t)
  let j2 ← Solidity.sub (← Solidity.add j1 t) 1
  let S ← Solidity.get psi_rev (← Solidity.add m i)
  forLoop j1 (← Solidity.add j2 1) (nttfwButterfly t q S) a

/-- `while (m < n)`: a word doubles at most 256 times. -/
def nttfwWhile (n q : Nat) : Nat → Nat → Nat → List Nat → Checked (List Nat)
  | 0, _, _, _ => .error .outOfGas
  | fuel + 1, t, m, a =>
    if m < n then do
      let t := Yul.shr 1 t
      let a ← forLoop 0 m (nttfwBlock m t q) a
      nttfwWhile n q fuel t (Yul.shl 1 m) a
    else
      .ok a

def ZKNOX_NTTFW (a : List Nat) (q : Nat) : Checked (List Nat) :=
  nttfwWhile a.length q 256 a.length 1 a

def nttinvButterfly (t q S j : Nat) (a : List Nat) : Checked (List Nat) := do
  let U ← Solidity.get a j
  let V ← Solidity.get a (← Solidity.add j t)
  let a ← Solidity.set a j (← Solidity.addmod U V q)
  Solidity.set a (← Solidity.add j t)
    (← Solidity.mulmod (← Solidity.addmod U (← Solidity.sub q V) q) S q)

def nttinvBlock (h t q i : Nat) (s : Nat × List Nat) : Checked (Nat × List Nat) := do
  let j1 := s.1
  let j2 ← Solidity.sub (← Solidity.add j1 t) 1
  let S ← Solidity.get psi_inv_rev (← Solidity.add h i)
  let a ← forLoop j1 (← Solidity.add j2 1) (nttinvButterfly t q S) s.2
  return (← Solidity.add j1 (Yul.shl 1 t), a)

/-- `while (m > 1)`. -/
def nttinvWhile (q : Nat) : Nat → Nat → Nat → List Nat → Checked (List Nat)
  | 0, _, _, _ => .error .outOfGas
  | fuel + 1, t, m, a =>
    if m > 1 then do
      let h := Yul.shr 1 m
      let (_, a) ← forLoop 0 h (nttinvBlock h t q) (0, a)
      nttinvWhile q fuel (Yul.shl 1 t) (Yul.shr 1 m) a
    else
      .ok a

/-- The scale is the only value in storage that these functions read. -/
def ZKNOX_NTTINV (s : Storage) (a : List Nat) (q : Nat) : Checked (List Nat) := do
  let a ← nttinvWhile q 256 1 a.length a
  let t := s.storage_nm1modq
  forLoop 0 a.length (fun m a => do Solidity.set a m (← Solidity.mulmod (← Solidity.get a m) t q)) a

def ZKNOX_NTT_HALFMUL (s : Storage) (a b : List Nat) (q : Nat) : Checked (List Nat) := do
  ZKNOX_NTTINV s (← ZKNOX_VECMULMOD (← ZKNOX_NTTFW a q) b q) q

def mul_NTTPoly (s : Storage) (a b : List Nat) (q : Nat) : Checked (List Nat) := do
  ZKNOX_NTTINV s (← ZKNOX_VECMULMOD (← ZKNOX_NTTFW a q) (← ZKNOX_NTTFW b q) q) q

end Stateless

end ZKNOX_NTT
