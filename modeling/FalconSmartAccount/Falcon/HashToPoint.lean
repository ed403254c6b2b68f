import FalconSmartAccount.Evm.Solidity

/-!
The contracts `ZKNOX_keccak_prng` and `ZKNOX_HashToPoint`. The hash function is a parameter
throughout.
-/

namespace Word

/-- `w[i]` for a `bytes32` value: byte 0 is the most significant one. -/
def byte (w : Word) (i : Nat) : UInt8 := UInt8.ofNat (w.toNat >>> (8 * (31 - i)))

def toBytes (w : Word) : Bytes := (List.range 32).map w.byte

end Word

structure ZKNOX_keccak_prng where
  state : Word
  counter : Nat
  buffer : Bytes
  finalized : Bool
  outBuffer : Word
  outBufferPos : Nat
  outBufferValid : Bool

namespace ZKNOX_keccak_prng

variable (keccak256 : Bytes → Word)

def constructor : ZKNOX_keccak_prng where
  state := 0
  counter := 0
  buffer := []
  finalized := false
  outBuffer := 0
  outBufferPos := 0
  outBufferValid := false

def inject (p : ZKNOX_keccak_prng) (input : Bytes) : Checked ZKNOX_keccak_prng := do
  Solidity.require (!p.finalized) "Cannot inject after finalization"
  return { p with buffer := p.buffer ++ input }

def flip (p : ZKNOX_keccak_prng) : Checked ZKNOX_keccak_prng := do
  Solidity.require (!p.finalized) "Already finalized"
  return { p with
    state := keccak256 p.buffer
    finalized := true
    outBufferPos := 0
    outBufferValid := false }

/-- Big endian. -/
def uint64ToBytes (x : Nat) : Bytes :=
  (List.range 8).map fun i => UInt8.ofNat (x >>> (56 - i * 8))

/-- Copy from the output buffer until it or the request is used up, `missing` bytes being asked for. -/
def copyOut : Nat → ZKNOX_keccak_prng → Bytes → ZKNOX_keccak_prng × Bytes
  | 0, p, randomBytes => (p, randomBytes)
  | missing + 1, p, randomBytes =>
    if p.outBufferPos < 32 then
      copyOut missing { p with outBufferPos := p.outBufferPos + 1 }
        (randomBytes ++ [p.outBuffer.byte p.outBufferPos])
    else
      (p, randomBytes)

/-- `counter++` of a `uint64`. -/
def incrementCounter (p : ZKNOX_keccak_prng) : Checked ZKNOX_keccak_prng :=
  if p.counter + 1 < 2 ^ 64 then
    .ok { p with counter := p.counter + 1 }
  else
    .error .arithmetic

/-- `while (offset < length)`: each round copies at least one byte, so `length` rounds suffice. It also
allocates the eight bytes of the counter, and the forty that it hashes. -/
def generate (length : Nat)
    : Nat → Nat → ZKNOX_keccak_prng → Bytes → Checked (ZKNOX_keccak_prng × Bytes)
  | 0, _, p, randomBytes => .ok (p, randomBytes)
  | fuel + 1, memory, p, randomBytes =>
    if randomBytes.length < length then do
      let memory ← Solidity.newBytes memory 8
      let memory ← Solidity.newBytes memory 40
      let blockInput := p.state.toBytes ++ uint64ToBytes p.counter
      let p := { p with
        outBuffer := keccak256 blockInput
        outBufferPos := 0
        outBufferValid := true }
      let (p, randomBytes) := copyOut (length - randomBytes.length) p randomBytes
      let p ← p.incrementCounter
      generate length fuel memory p randomBytes
    else
      .ok (p, randomBytes)

/-- The free memory starts at `0x80`. -/
def extract (p : ZKNOX_keccak_prng) (length : Nat) : Checked (ZKNOX_keccak_prng × Bytes) := do
  Solidity.require p.finalized "PRNG not finalized"
  let memory ← Solidity.newBytes 0x80 length
  let (p, randomBytes) := if p.outBufferValid then copyOut length p [] else (p, [])
  generate keccak256 length length memory p randomBytes

end ZKNOX_keccak_prng

namespace ZKNOX_HashToPoint

variable (keccak256 : Bytes → Word)

/-- The 16 bit word that `mload(add(t_bytes, 32)) >> 240` reads. -/
def word16 (t_bytes : Bytes) : Nat := 256 * (t_bytes.getD 0 0).toNat + (t_bytes.getD 1 0).toNat

/-- `while (i < n)`. How many rounds it takes depends on the hash, so the gas is a parameter. -/
def sample (q kq n : Nat) : Nat → ZKNOX_keccak_prng → Nat → List Nat → Checked (List Nat)
  | 0, _, _, _ => .error .outOfGas
  | gas + 1, keccak_prng, i, c =>
    if i < n then do
      let (keccak_prng, t_bytes) ← keccak_prng.extract keccak256 2
      let t := word16 t_bytes
      if t < kq then
        let c ← Solidity.set c i (← Solidity.mod t q)
        sample q kq n gas keccak_prng (i + 1) c
      else
        sample q kq n gas keccak_prng i c
    else
      .ok c

def hashToPoint (gas : Nat) (salt msgHash : Bytes) (q n : Nat) : Checked (List Nat) := do
  let k ← Solidity.div (1 <<< 16) q
  let keccak_prng ← ZKNOX_keccak_prng.constructor.inject (salt ++ msgHash)
  let keccak_prng ← keccak_prng.flip keccak256
  let kq ← Solidity.mul k q
  sample keccak256 q kq n gas keccak_prng 0 (List.replicate 512 0)

/-- The run of `sample` without its result: whether `gas` rounds are enough. -/
def enoughRounds (kq n : Nat) : Nat → ZKNOX_keccak_prng → Nat → Bool
  | 0, _, _ => false
  | gas + 1, keccak_prng, i =>
    if i < n then
      match keccak_prng.extract keccak256 2 with
      | .ok (keccak_prng, t_bytes) =>
        enoughRounds kq n gas keccak_prng (if word16 t_bytes < kq then i + 1 else i)
      | .error _ => false
    else
      true

theorem sample_of_enoughRounds {q kq n gas : Nat} {p : ZKNOX_keccak_prng} {i : Nat} {c : List Nat}
    (hq : 0 < q) (hc : n ≤ c.length) (h : enoughRounds keccak256 kq n gas p i = true)
    : ∃ c', sample keccak256 q kq n gas p i c = .ok c' := by
  induction gas generalizing p i c with
  | zero => cases h
  | succ gas ih =>
    unfold enoughRounds at h
    unfold sample
    split at h
    . next hi =>
      rw [if_pos hi]
      split at h
      . next p' t_bytes hex =>
        rw [hex, Checked.ok_bind]
        dsimp only
        split at h
        . next ht =>
          rw [if_pos ht, Solidity.mod_ok hq, Checked.ok_bind, Solidity.set_ok (by omega),
            Checked.ok_bind]
          exact ih (by simpa using hc) h
        . next ht =>
          rw [if_neg ht]
          exact ih hc h
      . cases h
    . next hi =>
      rw [if_neg hi]
      exact ⟨c, rfl⟩

theorem sample_length {q kq n gas : Nat} {p : ZKNOX_keccak_prng} {i : Nat} {c c' : List Nat}
    (h : sample keccak256 q kq n gas p i c = .ok c')
    : c'.length = c.length := by
  induction gas generalizing p i c with
  | zero => cases h
  | succ gas ih =>
    unfold sample at h
    split at h
    . obtain ⟨r, _, h⟩ := Checked.bind_eq_ok.mp h
      dsimp only at h
      split at h
      . obtain ⟨v, _, h⟩ := Checked.bind_eq_ok.mp h
        obtain ⟨c1, hset, h⟩ := Checked.bind_eq_ok.mp h
        unfold Solidity.set at hset
        split at hset
        . cases hset
          simpa using ih h
        . cases hset
      . exact ih h
    . cases h
      rfl

/-- Whatever is hashed, a result has 512 entries. -/
theorem hashToPoint_length {gas : Nat} {salt msgHash : Bytes} {q n : Nat} {c : List Nat}
    (h : hashToPoint keccak256 gas salt msgHash q n = .ok c)
    : c.length = 512 := by
  unfold hashToPoint at h
  obtain ⟨k, _, h⟩ := Checked.bind_eq_ok.mp h
  obtain ⟨p, _, h⟩ := Checked.bind_eq_ok.mp h
  obtain ⟨p', _, h⟩ := Checked.bind_eq_ok.mp h
  obtain ⟨kq, _, h⟩ := Checked.bind_eq_ok.mp h
  rw [sample_length keccak256 h, List.length_replicate]

theorem hashToPoint_of_enoughRounds {gas : Nat} {salt msgHash : Bytes} {q n : Nat} (hq : 0 < q)
    (hn : n ≤ 512)
    (h : enoughRounds keccak256 (65536 / q * q) n gas
      { ZKNOX_keccak_prng.constructor with
        buffer := salt ++ msgHash, state := keccak256 (salt ++ msgHash), finalized := true } 0 = true)
    : ∃ c, hashToPoint keccak256 gas salt msgHash q n = .ok c := by
  have hkq : 65536 / q * q < Yul.wordSize := by
    have := Nat.div_mul_le_self 65536 q
    unfold Yul.wordSize
    omega
  have hlen : n ≤ (List.replicate 512 0 : List Nat).length := by
    rwa [List.length_replicate]
  obtain ⟨c, hc⟩ := sample_of_enoughRounds keccak256 hq hlen h
  have hshift : 1 <<< 16 = 65536 := rfl
  refine ⟨c, ?_⟩
  unfold hashToPoint ZKNOX_keccak_prng.inject ZKNOX_keccak_prng.flip
  rw [hshift, Solidity.div_ok hq, Checked.ok_bind, Solidity.mul_ok hkq]
  exact hc

end ZKNOX_HashToPoint
