import FalconSmartAccount.Evm.Word

/-!
The hash function of the EVM: Keccak-256, that is Keccak-f[1600] with a rate of 136 bytes and the
original padding.
-/

namespace Keccak

def rotl (n x : Nat) : Nat := (x <<< n ||| x >>> (64 - n)) % 2 ^ 64

def roundConstants : List Nat :=
  [
    0x0000000000000001, 0x0000000000008082, 0x800000000000808A, 0x8000000080008000,
    0x000000000000808B, 0x0000000080000001, 0x8000000080008081, 0x8000000000008009,
    0x000000000000008A, 0x0000000000000088, 0x0000000080008009, 0x000000008000000A,
    0x000000008000808B, 0x800000000000008B, 0x8000000000008089, 0x8000000000008003,
    0x8000000000008002, 0x8000000000000080, 0x000000000000800A, 0x800000008000000A,
    0x8000000080008081, 0x8000000000008080, 0x0000000080000001, 0x8000000080008008
  ]

def chi (a b c : Nat) : Nat := a ^^^ ((b ^^^ (2 ^ 64 - 1)) &&& c)

/-- Lane `(x, y)` is entry `x + 5 * y`. The lanes are spelled out so that a round evaluates quickly. -/
def round (a : List Nat) (rc : Nat) : List Nat :=
  match a with
  | [
      a0, a1, a2, a3, a4,
      a5, a6, a7, a8, a9,
      a10, a11, a12, a13, a14,
      a15, a16, a17, a18, a19,
      a20, a21, a22, a23, a24
    ] =>
    let c0 := a0 ^^^ a5 ^^^ a10 ^^^ a15 ^^^ a20
    let c1 := a1 ^^^ a6 ^^^ a11 ^^^ a16 ^^^ a21
    let c2 := a2 ^^^ a7 ^^^ a12 ^^^ a17 ^^^ a22
    let c3 := a3 ^^^ a8 ^^^ a13 ^^^ a18 ^^^ a23
    let c4 := a4 ^^^ a9 ^^^ a14 ^^^ a19 ^^^ a24
    let d0 := c4 ^^^ rotl 1 c1
    let d1 := c0 ^^^ rotl 1 c2
    let d2 := c1 ^^^ rotl 1 c3
    let d3 := c2 ^^^ rotl 1 c4
    let d4 := c3 ^^^ rotl 1 c0
    let b0 := rotl 0 (a0 ^^^ d0)
    let b1 := rotl 44 (a6 ^^^ d1)
    let b2 := rotl 43 (a12 ^^^ d2)
    let b3 := rotl 21 (a18 ^^^ d3)
    let b4 := rotl 14 (a24 ^^^ d4)
    let b5 := rotl 28 (a3 ^^^ d3)
    let b6 := rotl 20 (a9 ^^^ d4)
    let b7 := rotl 3 (a10 ^^^ d0)
    let b8 := rotl 45 (a16 ^^^ d1)
    let b9 := rotl 61 (a22 ^^^ d2)
    let b10 := rotl 1 (a1 ^^^ d1)
    let b11 := rotl 6 (a7 ^^^ d2)
    let b12 := rotl 25 (a13 ^^^ d3)
    let b13 := rotl 8 (a19 ^^^ d4)
    let b14 := rotl 18 (a20 ^^^ d0)
    let b15 := rotl 27 (a4 ^^^ d4)
    let b16 := rotl 36 (a5 ^^^ d0)
    let b17 := rotl 10 (a11 ^^^ d1)
    let b18 := rotl 15 (a17 ^^^ d2)
    let b19 := rotl 56 (a23 ^^^ d3)
    let b20 := rotl 62 (a2 ^^^ d2)
    let b21 := rotl 55 (a8 ^^^ d3)
    let b22 := rotl 39 (a14 ^^^ d4)
    let b23 := rotl 41 (a15 ^^^ d0)
    let b24 := rotl 2 (a21 ^^^ d1)
    [
      chi b0 b1 b2 ^^^ rc, chi b1 b2 b3, chi b2 b3 b4,
      chi b3 b4 b0, chi b4 b0 b1,
      chi b5 b6 b7, chi b6 b7 b8, chi b7 b8 b9,
      chi b8 b9 b5, chi b9 b5 b6,
      chi b10 b11 b12, chi b11 b12 b13, chi b12 b13 b14,
      chi b13 b14 b10, chi b14 b10 b11,
      chi b15 b16 b17, chi b16 b17 b18, chi b17 b18 b19,
      chi b18 b19 b15, chi b19 b15 b16,
      chi b20 b21 b22, chi b21 b22 b23, chi b22 b23 b24,
      chi b23 b24 b20, chi b24 b20 b21
    ]
  | a => a

def permutation (a : List Nat) : List Nat := roundConstants.foldl round a

/-- Little endian. -/
def lane (bytes : Bytes) : Nat := bytes.foldr (fun b w => b.toNat + 256 * w) 0

def toLanes : Nat → Bytes → List Nat
  | 0, _ => []
  | k + 1, bytes => lane (bytes.take 8) :: toLanes k (bytes.drop 8)

/-- `0x01 0x00 .. 0x80`, up to a multiple of the rate. -/
def pad (message : Bytes) : Bytes :=
  let missing := 136 - message.length % 136
  if missing = 1 then
    message ++ [0x81]
  else
    message ++ [0x01] ++ List.replicate (missing - 2) 0x00 ++ [0x80]

def absorb : Nat → List Nat → Bytes → List Nat
  | 0, a, _ => a
  | blocks + 1, a, bytes =>
    let block := toLanes 17 bytes ++ List.replicate 8 0
    absorb blocks (permutation (List.zipWith (· ^^^ ·) a block)) (bytes.drop 136)

/-- The first 32 bytes of the state, as a big endian word. -/
def squeeze (a : List Nat) : Word :=
  let bytes := (a.take 4).flatMap fun w => (List.range 8).map fun i => w >>> (8 * i) % 256
  BitVec.ofNat 256 (bytes.foldl (fun w b => 256 * w + b) 0)

end Keccak

open Keccak in
def keccak256 (message : Bytes) : Word :=
  let padded := pad message
  squeeze (absorb (padded.length / 136) (List.replicate 25 0) padded)

example : keccak256 [] = 0xc5d2460186f7233c927e7db2dcc703c0e500b653ca82273b7bfad8045d85a470 := by
  decide +kernel
