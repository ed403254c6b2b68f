import FalconSmartAccount.Evm.Keccak
import FalconSmartAccount.Falcon.HashToPoint

/-!
What `ZKNOX_keccak_prng` generates: the bytes of `keccak(st || 0) || keccak(st || 1) || ..`, however
they are asked for.
-/

namespace ZKNOX_keccak_prng

section

variable (keccak256 : Bytes → Word)

/-! ## The stream -/

def block (st : Word) (i : Nat) : Word := keccak256 (st.toBytes ++ uint64ToBytes i)

/-- The first blocks of the stream. -/
def stream (st : Word) (blocks : Nat) : Bytes :=
  (List.range blocks).flatMap fun i => (block keccak256 st i).toBytes

def streamByte (st : Word) (k : Nat) : UInt8 := (block keccak256 st (k / 32)).byte (k % 32)

/-- The bytes of the stream from `pos` on. -/
def slice (st : Word) (pos length : Nat) : Bytes :=
  (List.range length).map fun i => streamByte keccak256 st (pos + i)

@[simp]
theorem slice_zero (st : Word) (pos : Nat) : slice keccak256 st pos 0 = [] := rfl

@[simp]
theorem length_slice (st : Word) (pos length : Nat) : (slice keccak256 st pos length).length = length := by
  simp [slice]

theorem slice_add (st : Word) (pos m n : Nat)
    : slice keccak256 st pos (m + n) = slice keccak256 st pos m ++ slice keccak256 st (pos + m) n := by
  unfold slice
  rw [List.range_add]
  rw [List.map_append]
  rw [List.map_map]
  congr 1
  apply List.map_congr_left
  intro i _
  simp only [Function.comp_apply, Nat.add_assoc]

/-- Bytes that lie in one block. -/
theorem slice_block (st : Word) (i : Nat) {pos length : Nat} (h : pos + length ≤ 32)
    : slice keccak256 st (32 * i + pos) length
        = (List.range length).map fun k => (block keccak256 st i).byte (pos + k) := by
  apply List.map_congr_left
  intro k hk
  have hlt := List.mem_range.mp hk
  have hdiv : (32 * i + pos + k) / 32 = i := by omega
  have hmod : (32 * i + pos + k) % 32 = pos + k := by omega
  unfold streamByte
  rw [hdiv, hmod]

theorem stream_eq_slice (st : Word) (blocks : Nat)
    : stream keccak256 st blocks = slice keccak256 st 0 (32 * blocks) := by
  induction blocks with
  | zero => rfl
  | succ n ih =>
    have hlast : (block keccak256 st n).toBytes = slice keccak256 st (0 + 32 * n) 32 := by
      have := slice_block keccak256 st n (Nat.le_refl (0 + 32))
      simp only [Nat.add_zero, Nat.zero_add] at this ⊢
      exact this.symm
    unfold stream at ih ⊢
    rw [List.range_succ]
    rw [List.flatMap_append]
    rw [ih]
    rw [Nat.mul_succ]
    rw [slice_add]
    rw [← hlast]
    simp

/-- What is asked for in the end is part of what has been generated by then. -/
theorem take_stream (st : Word) {length blocks : Nat} (h : length ≤ 32 * blocks)
    : (stream keccak256 st blocks).take length = slice keccak256 st 0 length := by
  obtain ⟨rest, hrest⟩ := Nat.exists_eq_add_of_le h
  rw [stream_eq_slice]
  rw [hrest]
  rw [slice_add]
  apply List.take_left'
  exact length_slice keccak256 st 0 length

/-! ## The generator at a position of the stream -/

/-- The bytes before `pos` have been handed out. -/
structure At (st : Word) (p : ZKNOX_keccak_prng) (pos : Nat) : Prop where
  finalized : p.finalized = true
  state : p.state = st
  counter : p.counter < 2 ^ 64
  /-- Before the first block. -/
  fresh : p.outBufferValid = false → p.counter = 0 ∧ pos = 0
  /-- In a block or at its end; the counter belongs to the next one. -/
  buffered : p.outBufferValid = true →
    p.outBufferPos ≤ 32 ∧ ∃ i, p.counter = i + 1 ∧ p.outBuffer = block keccak256 st i
      ∧ pos = 32 * i + p.outBufferPos

/-- How much of a request the buffer can serve. -/
def served (outBufferPos missing : Nat) : Nat := min missing (32 - outBufferPos)

omit keccak256 in
theorem copyOut_eq (missing : Nat) (p : ZKNOX_keccak_prng) (randomBytes : Bytes)
    : copyOut missing p randomBytes
        = ({ p with outBufferPos := p.outBufferPos + served p.outBufferPos missing },
            randomBytes ++ (List.range (served p.outBufferPos missing)).map fun i =>
              p.outBuffer.byte (p.outBufferPos + i)) := by
  induction missing generalizing p randomBytes with
  | zero => simp [copyOut, served]
  | succ missing ih =>
    unfold copyOut
    split
    . next hlt =>
      have hserved : served p.outBufferPos (missing + 1) = served (p.outBufferPos + 1) missing + 1 := by
        unfold served
        omega
      rw [ih]
      rw [hserved]
      rw [List.range_succ_eq_map]
      simp [Nat.add_comm, Nat.add_left_comm, Nat.add_assoc, Function.comp_def]
    . next hge =>
      have hserved : served p.outBufferPos (missing + 1) = 0 := by
        unfold served
        omega
      simp [hserved]

variable {keccak256} {st : Word} {p : ZKNOX_keccak_prng} {pos : Nat}

/-- Bytes of the current block have been handed out. -/
theorem At.inBlock {i outBufferPos : Nat} (hfinalized : p.finalized = true) (hstate : p.state = st)
    (hlt : p.counter < 2 ^ 64) (hvalid : p.outBufferValid = true) (hpos : p.outBufferPos = outBufferPos) (hle : outBufferPos ≤ 32)
    (hcounter : p.counter = i + 1) (hblock : p.outBuffer = block keccak256 st i)
    : At keccak256 st p (32 * i + outBufferPos) := by
  refine ⟨hfinalized, hstate, hlt, ?_, ?_⟩
  . intro hinvalid
    rw [hvalid] at hinvalid
    cases hinvalid
  . intro _
    rw [hpos]
    exact ⟨hle, i, hcounter, hblock, rfl⟩

/-- One round of `generate`, which starts at the end of a block. -/
theorem generate_round {length fuel memory : Nat} {randomBytes : Bytes}
    (hlt : randomBytes.length < length) (hcounter : p.counter + 1 < 2 ^ 64) (hmemory : memory + 160 < 2 ^ 64)
    : let k := min (length - randomBytes.length) 32
      p.generate keccak256 length (fuel + 1) memory randomBytes
        = generate keccak256 length fuel (memory + 160)
            { p with
              outBuffer := block keccak256 p.state p.counter
              outBufferPos := k
              outBufferValid := true
              counter := p.counter + 1 }
            (randomBytes ++ slice keccak256 p.state (32 * p.counter) k) := by
  intro k
  have hk : 0 + k ≤ 32 := by omega
  have hslice := slice_block keccak256 p.state p.counter hk
  rw [Nat.add_zero] at hslice
  rw [hslice]
  conv_lhs => unfold generate
  rw [if_pos hlt]
  rw [Solidity.newBytes_ok (by omega), Checked.ok_bind]
  rw [Solidity.newBytes_ok (by omega), Checked.ok_bind]
  dsimp only
  rw [copyOut_eq]
  have hk : served 0 (length - randomBytes.length) = k := rfl
  simp only [hk]
  unfold incrementCounter
  rw [if_pos hcounter]
  simp only [Nat.zero_add]
  rfl

theorem generate_done {length fuel memory : Nat} {randomBytes : Bytes} (hle : length ≤ randomBytes.length)
    : p.generate keccak256 length fuel memory randomBytes = .ok (p, randomBytes) := by
  cases fuel with
  | zero => rfl
  | succ fuel =>
    unfold generate
    rw [if_neg (Nat.not_lt.mpr hle)]

/-- The rounds that generate what the buffer did not hold. They need five bytes of memory for each of its
bytes. -/
theorem At.generate {length fuel memory : Nat} {randomBytes : Bytes} (h : At keccak256 st p pos)
    (hpos : randomBytes.length < length → pos = 32 * p.counter)
    (hfuel : length ≤ randomBytes.length + fuel)
    (hmemory : randomBytes.length < length →
      memory + 5 * (length - randomBytes.length) + 155 < 2 ^ 64)
    (hbound : pos + (length - randomBytes.length) ≤ 32 * (2 ^ 64 - 1))
    : ∃ p', p.generate keccak256 length fuel memory randomBytes
          = .ok (p', randomBytes ++ slice keccak256 st pos (length - randomBytes.length))
        ∧ At keccak256 st p' (pos + (length - randomBytes.length)) := by
  induction fuel generalizing p pos memory randomBytes with
  | zero =>
    have hmissing : length - randomBytes.length = 0 := by omega
    rw [hmissing, slice_zero, List.append_nil]
    exact ⟨p, generate_done (by omega), h⟩
  | succ fuel ih =>
    by_cases hlt : randomBytes.length < length
    . have hstart := hpos hlt
      obtain ⟨k, hk⟩ : ∃ k, k = min (length - randomBytes.length) 32 := ⟨_, rfl⟩
      obtain ⟨rest, hrest⟩ : ∃ rest, length - randomBytes.length = k + rest :=
        Nat.exists_eq_add_of_le (by omega)
      let next : ZKNOX_keccak_prng := { p with
        state := st
        outBuffer := block keccak256 st p.counter
        outBufferPos := k
        outBufferValid := true
        counter := p.counter + 1 }
      have hnext : At keccak256 st next (pos + k) := by
        rw [hstart]
        exact .inBlock h.finalized rfl (by change p.counter + 1 < _; omega) rfl rfl (by omega) rfl rfl
      have hlength : (randomBytes ++ slice keccak256 st pos k).length = randomBytes.length + k := by
        rw [List.length_append, length_slice]
      have hmissing : length - (randomBytes ++ slice keccak256 st pos k).length = rest := by
        omega
      have hfree := hmemory hlt
      have hround := @ih next (pos + k) (memory + 160) (randomBytes ++ slice keccak256 st pos k) hnext
        -- another round is needed only if this one used its block up
        (fun h => by change pos + k = 32 * (p.counter + 1); omega) (by omega) (by omega) (by omega)
      obtain ⟨p', hp', hat⟩ := hround
      refine ⟨p', ?_, ?_⟩
      . rw [generate_round hlt (by omega) (by omega)]
        rw [h.state, ← hk, ← hstart]
        refine hp'.trans ?_
        rw [hmissing, hrest]
        rw [slice_add]
        rw [List.append_assoc]
      . rw [hmissing, Nat.add_assoc] at hat
        rwa [hrest]
    . have hmissing : length - randomBytes.length = 0 := by omega
      rw [hmissing, slice_zero, List.append_nil]
      exact ⟨p, generate_done (by omega), h⟩

theorem At.extract (h : At keccak256 st p pos) {length : Nat} (hlength : length ≤ 2 ^ 61)
    (hbound : pos + length ≤ 32 * (2 ^ 64 - 1))
    : ∃ p', p.extract keccak256 length = .ok (p', slice keccak256 st pos length)
        ∧ At keccak256 st p' (pos + length) := by
  unfold ZKNOX_keccak_prng.extract Solidity.require
  rw [if_pos h.finalized, Checked.ok_bind]
  obtain ⟨memory, hmemory⟩ : ∃ memory, memory = 0x80 + 32 + (length + 31) / 32 * 32 := ⟨_, rfl⟩
  rw [Solidity.newBytes_ok (by omega), Checked.ok_bind, ← hmemory]
  cases hvalid : p.outBufferValid with
  | false =>
    obtain ⟨hcounter, hzero⟩ := h.fresh hvalid
    have hgenerate := @At.generate keccak256 st p pos length length memory [] h (by omega) (by simp)
      (by rw [List.length_nil]; omega) (by simpa)
    simpa using hgenerate
  | true =>
    obtain ⟨hle, i, hcounter, hblock, hpos⟩ := h.buffered hvalid
    obtain ⟨k, hk⟩ : ∃ k, k = served p.outBufferPos length := ⟨_, rfl⟩
    have hk' : k = min length (32 - p.outBufferPos) := hk
    obtain ⟨rest, hrest⟩ : ∃ rest, length = k + rest := Nat.exists_eq_add_of_le (by omega)
    have hfits : p.outBufferPos + k ≤ 32 := by omega
    have hslice := slice_block keccak256 st i hfits
    rw [← hpos] at hslice
    have hlength : (slice keccak256 st pos k).length = k := length_slice keccak256 st pos k
    let next : ZKNOX_keccak_prng := { p with outBufferPos := p.outBufferPos + k }
    have hnext : At keccak256 st next (pos + k) := by
      rw [hpos, Nat.add_assoc]
      exact .inBlock h.finalized h.state h.counter hvalid rfl (by omega) hcounter hblock
    obtain ⟨p', hp', hat⟩ := @At.generate keccak256 st next (pos + k) length length memory
      (slice keccak256 st pos k) hnext
      (fun h => by change pos + k = 32 * p.counter; omega) (by omega) (by omega) (by omega)
    have hmissing : length - (slice keccak256 st pos k).length = rest := by omega
    rw [hmissing] at hp' hat
    refine ⟨p', ?_, ?_⟩
    . rw [copyOut_eq, ← hk, hblock, ← hslice]
      simp only [if_true, List.nil_append]
      rw [← slice_add, ← hrest] at hp'
      rw [← hp', ← hblock]
    . rwa [Nat.add_assoc, ← hrest] at hat

/-- After `2 ^ 64 - 1` blocks there is one more counter, but it cannot be incremented. -/
theorem At.extract_exhausted {length : Nat} (h : At keccak256 st p (32 * (2 ^ 64 - 1)))
    (hlength : 0 < length) (hle : length ≤ 2 ^ 61)
    : p.extract keccak256 length = .error .arithmetic := by
  cases hvalid : p.outBufferValid with
  | false =>
    obtain ⟨_, hzero⟩ := h.fresh hvalid
    omega
  | true =>
    obtain ⟨hle, i, hcounter, _, hpos⟩ := h.buffered hvalid
    have hlt := h.counter
    have hserved : served p.outBufferPos length = 0 := by
      unfold served
      omega
    unfold ZKNOX_keccak_prng.extract Solidity.require
    rw [if_pos h.finalized, Checked.ok_bind]
    rw [Solidity.newBytes_ok (by omega), Checked.ok_bind, hvalid, if_pos rfl]
    rw [copyOut_eq, hserved]
    obtain ⟨fuel, rfl⟩ := Nat.exists_eq_succ_of_ne_zero (Nat.pos_iff_ne_zero.mp hlength)
    have hlast : ¬p.counter + 1 < 2 ^ 64 := by omega
    unfold ZKNOX_keccak_prng.generate
    dsimp only
    rw [List.range_zero, List.map_nil, List.append_nil, List.length_nil]
    rw [if_pos (Nat.succ_pos fuel)]
    rw [Solidity.newBytes_ok (by omega), Checked.ok_bind]
    rw [Solidity.newBytes_ok (by omega), Checked.ok_bind]
    rw [copyOut_eq]
    unfold incrementCounter
    dsimp only
    rw [if_neg hlast]
    rfl

/-! ## Any inputs and any requests -/

variable (keccak256)

/-- Requests for bytes, one after the other. -/
def extractAll : ZKNOX_keccak_prng → List Nat → Checked (ZKNOX_keccak_prng × List Bytes)
  | p, [] => .ok (p, [])
  | p, length :: lengths => do
    let (p, randomBytes) ← p.extract keccak256 length
    let (p, rest) ← extractAll p lengths
    return (p, randomBytes :: rest)

/-- What a new generator returns for the requests, after it has been fed with the inputs. -/
def outputs (inputs : List Bytes) (lengths : List Nat) : Checked (List Bytes) := do
  let p ← inputs.foldlM inject constructor
  let p ← p.flip keccak256
  let (_, randomBytes) ← extractAll keccak256 p lengths
  return randomBytes

/-- The parts of the stream from `pos` on that have these lengths. -/
def slices (st : Word) : Nat → List Nat → List Bytes
  | _, [] => []
  | pos, length :: lengths => slice keccak256 st pos length :: slices st (pos + length) lengths

theorem slices_append (st : Word) (pos : Nat) (lengths lengths' : List Nat)
    : slices keccak256 st pos (lengths ++ lengths')
        = slices keccak256 st pos lengths ++ slices keccak256 st (pos + lengths.sum) lengths' := by
  induction lengths generalizing pos with
  | nil => rfl
  | cons length lengths ih =>
    simp only [List.cons_append, slices, List.sum_cons]
    rw [ih]
    rw [Nat.add_assoc]

theorem length_slices (st : Word) (pos : Nat) (lengths : List Nat)
    : (slices keccak256 st pos lengths).map List.length = lengths := by
  induction lengths generalizing pos with
  | nil => rfl
  | cons length lengths ih =>
    unfold slices
    rw [List.map_cons, length_slice, ih]

theorem flatten_slices (st : Word) (pos : Nat) (lengths : List Nat)
    : (slices keccak256 st pos lengths).flatten = slice keccak256 st pos lengths.sum := by
  induction lengths generalizing pos with
  | nil => rfl
  | cons length lengths ih =>
    unfold slices
    rw [List.flatten_cons, ih]
    rw [List.sum_cons, slice_add]

variable {keccak256}

theorem At.extractAll {lengths : List Nat} (h : At keccak256 st p pos)
    (hlengths : ∀ length ∈ lengths, length ≤ 2 ^ 61)
    (hbound : pos + lengths.sum ≤ 32 * (2 ^ 64 - 1))
    : ∃ p', p.extractAll keccak256 lengths = .ok (p', slices keccak256 st pos lengths)
        ∧ At keccak256 st p' (pos + lengths.sum) := by
  induction lengths generalizing p pos with
  | nil => exact ⟨p, rfl, h⟩
  | cons length lengths ih =>
    rw [List.forall_mem_cons] at hlengths
    rw [List.sum_cons] at hbound ⊢
    obtain ⟨p1, hextract, h1⟩ := h.extract hlengths.1 (by omega)
    obtain ⟨p2, hrest, h2⟩ := ih h1 hlengths.2 (by omega)
    refine ⟨p2, ?_, ?_⟩
    . unfold ZKNOX_keccak_prng.extractAll
      rw [hextract, Checked.ok_bind]
      dsimp only
      rw [hrest, Checked.ok_bind]
      rfl
    . rwa [← Nat.add_assoc]

theorem At.extractAll_exhausted {lengths : List Nat} (h : At keccak256 st p pos)
    (hlengths : ∀ length ∈ lengths, length ≤ 2 ^ 61)
    (hsum : pos + lengths.sum = 32 * (2 ^ 64 - 1))
    : p.extractAll keccak256 (lengths ++ [1]) = .error .arithmetic := by
  induction lengths generalizing p pos with
  | nil =>
    rw [List.sum_nil, Nat.add_zero] at hsum
    rw [hsum] at h
    rw [List.nil_append]
    unfold ZKNOX_keccak_prng.extractAll
    rw [h.extract_exhausted Nat.one_pos (by decide)]
    rfl
  | cons length lengths ih =>
    rw [List.forall_mem_cons] at hlengths
    rw [List.sum_cons, ← Nat.add_assoc] at hsum
    obtain ⟨p1, hextract, h1⟩ := h.extract hlengths.1 (by omega)
    rw [List.cons_append]
    unfold ZKNOX_keccak_prng.extractAll
    rw [hextract, Checked.ok_bind]
    dsimp only
    rw [ih h1 hlengths.2 hsum]
    rfl

theorem foldlM_inject {inputs : List Bytes} (h : p.finalized = false)
    : inputs.foldlM inject p = .ok { p with buffer := p.buffer ++ inputs.flatten } := by
  induction inputs generalizing p with
  | nil => simp
  | cons input inputs ih =>
    have hinject : p.inject input = .ok { p with buffer := p.buffer ++ input } := by
      unfold inject Solidity.require
      rw [h]
      rfl
    rw [List.foldlM_cons, hinject, Checked.ok_bind]
    rw [@ih { p with buffer := p.buffer ++ input } h]
    simp

variable (keccak256) in
/-- A generator that has been fed with `input` and finalized. -/
def start (input : Bytes) : ZKNOX_keccak_prng :=
  { constructor with buffer := input, state := keccak256 input, finalized := true }

variable (keccak256) in
theorem at_start (input : Bytes) : At keccak256 (keccak256 input) (start keccak256 input) 0 := by
  refine ⟨rfl, rfl, Nat.two_pow_pos 64, fun _ => ⟨rfl, rfl⟩, ?_⟩
  intro hvalid
  cases hvalid

theorem outputs_start (inputs : List Bytes) (lengths : List Nat)
    : outputs keccak256 inputs lengths = (do
        let (_, randomBytes) ← (start keccak256 inputs.flatten).extractAll keccak256 lengths
        return randomBytes) := by
  unfold outputs
  rw [foldlM_inject rfl]
  rfl

theorem outputs_eq {inputs : List Bytes} {lengths : List Nat}
    (hlengths : ∀ length ∈ lengths, length ≤ 2 ^ 61) (h : lengths.sum ≤ 32 * (2 ^ 64 - 1))
    : outputs keccak256 inputs lengths
        = .ok (slices keccak256 (keccak256 inputs.flatten) 0 lengths) := by
  obtain ⟨p', hextract, _⟩ := At.extractAll (at_start keccak256 inputs.flatten) hlengths
    (by rwa [Nat.zero_add])
  rw [outputs_start, hextract]
  rfl

/-- The strings that are extracted make up the beginning of the stream, up to the block whose counter is
the last one. -/
theorem outputs_stream {inputs : List Bytes} {lengths : List Nat}
    (hlengths : ∀ length ∈ lengths, length ≤ 2 ^ 61) (h : lengths.sum ≤ 32 * (2 ^ 64 - 1))
    : (∃ randomBytes, outputs keccak256 inputs lengths = .ok randomBytes
          ∧ randomBytes.map List.length = lengths
          ∧ randomBytes.flatten
            = (stream keccak256 (keccak256 inputs.flatten) ((lengths.sum + 31) / 32)).take lengths.sum)
        ∧ ∀ a b, a + b ≤ 2 ^ 61 → lengths.sum + (a + b) ≤ 32 * (2 ^ 64 - 1) → ∃ randomBytes first second,
            outputs keccak256 inputs (lengths ++ [a, b]) = .ok (randomBytes ++ [first, second])
              ∧ outputs keccak256 inputs (lengths ++ [a + b]) = .ok (randomBytes ++ [first ++ second]) := by
  constructor
  . refine ⟨_, outputs_eq hlengths h, ?_, ?_⟩
    . apply length_slices
    . rw [flatten_slices]
      rw [take_stream]
      omega
  . intro a b hle hab
    have htwoLengths : ∀ length ∈ lengths ++ [a, b], length ≤ 2 ^ 61 := by
      rw [List.forall_mem_append]
      exact ⟨hlengths, by simp only [List.forall_mem_cons]; exact ⟨by omega, by omega, nofun⟩⟩
    have honeLength : ∀ length ∈ lengths ++ [a + b], length ≤ 2 ^ 61 := by
      rw [List.forall_mem_append]
      exact ⟨hlengths, List.forall_mem_singleton.mpr hle⟩
    let st := keccak256 inputs.flatten
    have htwo : slices keccak256 st 0 (lengths ++ [a, b]) = slices keccak256 st 0 lengths
        ++ [slice keccak256 st lengths.sum a, slice keccak256 st (lengths.sum + a) b] := by
      rw [slices_append, Nat.zero_add]
      rfl
    have hone : slices keccak256 st 0 (lengths ++ [a + b]) = slices keccak256 st 0 lengths
        ++ [slice keccak256 st lengths.sum a ++ slice keccak256 st (lengths.sum + a) b] := by
      rw [slices_append, Nat.zero_add]
      rw [← slice_add]
      rfl
    refine ⟨slices keccak256 st 0 lengths, slice keccak256 st lengths.sum a,
      slice keccak256 st (lengths.sum + a) b, ?_, ?_⟩
    . rw [outputs_eq htwoLengths (by simpa using hab)]
      exact congrArg Except.ok htwo
    . rw [outputs_eq honeLength (by simpa using hab)]
      exact congrArg Except.ok hone

theorem outputs_exhausted (inputs : List Bytes) {lengths : List Nat}
    (hlengths : ∀ length ∈ lengths, length ≤ 2 ^ 61) (h : lengths.sum = 32 * (2 ^ 64 - 1))
    : outputs keccak256 inputs (lengths ++ [1]) = .error .arithmetic := by
  have hexhausted := At.extractAll_exhausted (at_start keccak256 inputs.flatten) hlengths
    (by rwa [Nat.zero_add])
  rw [outputs_start, hexhausted]
  rfl

end

theorem outputs_stream_odd
    : ∃ randomBytes, outputs keccak256 [[1], [], [2, 3]] [0, 33, 5, 64] = .ok randomBytes
        ∧ randomBytes.flatten = (stream keccak256 (keccak256 [1, 2, 3]) 4).take 102 := by
  have hsum : [0, 33, 5, 64].sum ≤ 32 * (2 ^ 64 - 1) := by
    decide
  obtain ⟨randomBytes, houtputs, _, hflatten⟩ :=
    (@outputs_stream keccak256 [[1], [], [2, 3]] _ (by decide) hsum).1
  exact ⟨randomBytes, houtputs, hflatten⟩

/-- Fewer bytes than there are in all blocks, in requests for a block each but for the last one. -/
theorem outputs_stream_exhausted
    : (List.replicate (2 ^ 64 - 1) 32 ++ [1]).sum < 32 * 2 ^ 64
        ∧ ∀ randomBytes,
            outputs keccak256 [] (List.replicate (2 ^ 64 - 1) 32 ++ [1]) ≠ .ok randomBytes := by
  have hsum : (List.replicate (2 ^ 64 - 1) 32).sum = 32 * (2 ^ 64 - 1) := by
    rw [List.sum_replicate, smul_eq_mul, Nat.mul_comm]
  constructor
  . rw [List.sum_append, hsum, List.sum_singleton]
    norm_num
  . intro randomBytes
    rw [outputs_exhausted [] (fun _ h => by rw [List.eq_of_mem_replicate h]; decide) hsum]
    intro h
    cases h

end ZKNOX_keccak_prng
