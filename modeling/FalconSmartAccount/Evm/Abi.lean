import FalconSmartAccount.Evm.Word

/-!
Words in byte strings: the 32 byte big endian words of the ABI, and reading at an offset with zero
bytes past the end, as memory and `extcodecopy` give them.
-/

namespace Abi

/-- The `len` bytes from `offset` on, as a big endian number. -/
def uintAt (bytes : Bytes) (offset len : Nat) : Nat :=
  (List.range len).foldl (fun w i => 256 * w + ((bytes.drop offset).getD i 0).toNat) 0

/-- What a copy of `len` bytes from `offset` on gives. -/
def bytesAt (bytes : Bytes) (offset len : Nat) : Bytes :=
  (List.range len).map fun i => bytes.getD (offset + i) 0

def wordAt (bytes : Bytes) (offset : Nat) : Nat := uintAt bytes offset 32

def addressAt (bytes : Bytes) (offset : Nat) : Address := BitVec.ofNat 160 (uintAt bytes offset 20)

/-- The 32 byte big endian word. -/
def wordBytes (w : Nat) : Bytes := (List.range 32).map fun i => UInt8.ofNat (w >>> (8 * (31 - i)))

/-- The `len` low bytes of a number, most significant first. -/
def uintBytes (len v : Nat) : Bytes := (List.range len).map fun i => UInt8.ofNat (v >>> (8 * (len - 1 - i)))

/-- Values of static types one after the other. -/
def words (ws : List Nat) : Bytes := ws.flatMap wordBytes

/-- Bytes behind their length, filled up to whole words. -/
def bytesTail (bytes : Bytes) : Bytes :=
  wordBytes bytes.length ++ bytes ++ List.replicate ((32 - bytes.length % 32) % 32) 0

@[simp]
theorem wordBytes_length (w : Nat) : (wordBytes w).length = 32 := by
  simp [wordBytes]

@[simp]
theorem uintBytes_length (len v : Nat) : (uintBytes len v).length = len := by
  simp [uintBytes]

theorem foldl_bytes (w m n : Nat) (h : n ≤ m)
    : (List.range n).foldl (fun acc i => 256 * acc + w >>> (8 * (m - 1 - i)) % 256) 0
        = w >>> (8 * (m - n)) % 256 ^ n := by
  induction n with
  | zero => simp [Nat.mod_one]
  | succ n ih =>
    have hshift : w >>> (8 * (m - n)) = w >>> (8 * (m - (n + 1))) / 256 := by
      have : 8 * (m - n) = 8 * (m - (n + 1)) + 8 := by omega
      rw [this, Nat.shiftRight_add, Nat.shiftRight_eq_div_pow _ 8]
    have hidx : m - 1 - n = m - (n + 1) := by omega
    rw [List.range_succ, List.foldl_append, ih (by omega), hshift, Nat.pow_succ', Nat.mod_mul]
    simp only [List.foldl_cons, List.foldl_nil, hidx]
    omega

theorem uintAt_eq (bytes : Bytes) (offset len : Nat)
    : uintAt bytes offset len
        = (List.range len).foldl (fun w i => 256 * w + (bytes.getD (offset + i) 0).toNat) 0 := by
  unfold uintAt
  apply List.foldl_ext
  intro acc i _
  rw [List.getD_eq_getElem?_getD, List.getElem?_drop, ← List.getD_eq_getElem?_getD]

/-- Bytes that agree with a word are read as that word. -/
theorem wordAt_of_getD {bytes : Bytes} {offset w : Nat} (hw : w < Yul.wordSize)
    (h : ∀ i < 32, bytes.getD (offset + i) 0 = (wordBytes w).getD i 0)
    : wordAt bytes offset = w := by
  have hpow : 256 ^ 32 = Yul.wordSize := by norm_num [Yul.wordSize]
  have hfold := foldl_bytes w 32 32 (Nat.le_refl 32)
  rw [Nat.sub_self, Nat.mul_zero, Nat.shiftRight_zero, hpow, Nat.mod_eq_of_lt hw] at hfold
  conv_rhs => rw [← hfold]
  unfold wordAt
  rw [uintAt_eq]
  apply List.foldl_ext
  intro acc i hi
  have hi' : i < 32 := List.mem_range.mp hi
  rw [h i hi']
  simp [wordBytes, hi']

theorem wordAt_wordBytes {w : Nat} (hw : w < Yul.wordSize) : wordAt (wordBytes w) 0 = w := by
  apply wordAt_of_getD hw
  intro i _
  rw [Nat.zero_add]

theorem wordBytes_inj {v w : Nat} (hv : v < Yul.wordSize) (hw : w < Yul.wordSize)
    (h : wordBytes v = wordBytes w)
    : v = w := by
  rw [← wordAt_wordBytes hv, h, wordAt_wordBytes hw]

/-! ## Sequences of words -/

theorem words_cons (w : Nat) (ws : List Nat) : words (w :: ws) = wordBytes w ++ words ws := by
  simp [words]

@[simp]
theorem words_length (ws : List Nat) : (words ws).length = 32 * ws.length := by
  induction ws with
  | nil => rfl
  | cons w ws ih =>
    rw [words_cons, List.length_append, ih, wordBytes_length, List.length_cons]
    omega

theorem words_inj {vs ws : List Nat} (hlen : vs.length = ws.length)
    (hvs : ∀ v ∈ vs, v < Yul.wordSize) (hws : ∀ w ∈ ws, w < Yul.wordSize) (h : words vs = words ws)
    : vs = ws := by
  induction vs generalizing ws with
  | nil => exact (List.length_eq_zero_iff.mp hlen.symm).symm
  | cons v vs ih =>
    cases ws with
    | nil => cases hlen
    | cons w ws =>
      rw [words_cons, words_cons] at h
      obtain ⟨hhead, htail⟩ := List.append_inj h (by rw [wordBytes_length, wordBytes_length])
      rw [wordBytes_inj (hvs v List.mem_cons_self) (hws w List.mem_cons_self) hhead,
        ih (Nat.succ.inj hlen) (fun v h => hvs v (List.mem_cons_of_mem _ h))
          (fun w h => hws w (List.mem_cons_of_mem _ h)) htail]

/-! ## Reading in the middle of a byte string -/

theorem uintAt_append_right (pre bytes : Bytes) (offset len : Nat)
    : uintAt (pre ++ bytes) (pre.length + offset) len = uintAt bytes offset len := by
  rw [uintAt_eq, uintAt_eq]
  apply List.foldl_ext
  intro acc i _
  have : pre.length + offset + i - pre.length = offset + i := by omega
  rw [List.getD_append_right _ _ _ _ (by omega), this]

theorem uintAt_append_left {bytes : Bytes} {offset len : Nat} (h : offset + len ≤ bytes.length)
    (post : Bytes)
    : uintAt (bytes ++ post) offset len = uintAt bytes offset len := by
  rw [uintAt_eq, uintAt_eq]
  apply List.foldl_ext
  intro acc i hi
  have : i < len := List.mem_range.mp hi
  rw [List.getD_append _ _ _ _ (by omega)]

theorem wordAt_append_right (pre bytes : Bytes) (offset : Nat)
    : wordAt (pre ++ bytes) (pre.length + offset) = wordAt bytes offset :=
  uintAt_append_right pre bytes offset 32

theorem wordAt_append_left {bytes : Bytes} {offset : Nat} (h : offset + 32 ≤ bytes.length)
    (post : Bytes)
    : wordAt (bytes ++ post) offset = wordAt bytes offset :=
  uintAt_append_left h post

theorem wordAt_words {ws : List Nat} {k : Nat} (hk : k < ws.length)
    (hlt : ws[k] < Yul.wordSize)
    : wordAt (words ws) (32 * k) = ws[k] := by
  induction ws generalizing k with
  | nil => cases hk
  | cons w ws ih =>
    rw [words_cons]
    cases k with
    | zero => rw [Nat.mul_zero, wordAt_append_left (by simp)]; exact wordAt_wordBytes hlt
    | succ k =>
      have hoffset : 32 * (k + 1) = (wordBytes w).length + 32 * k := by
        rw [wordBytes_length]
        omega
      rw [hoffset, wordAt_append_right]
      exact ih (Nat.lt_of_succ_lt_succ hk) hlt

theorem bytesAt_append_right (pre bytes post : Bytes)
    : bytesAt (pre ++ (bytes ++ post)) pre.length bytes.length = bytes := by
  apply List.ext_getElem
  . simp [bytesAt]
  . intro i h1 h2
    have hleft : (bytes ++ post)[i]? = some bytes[i] := by
      rw [List.getElem?_append_left h2, List.getElem?_eq_getElem h2]
    simp [bytesAt, List.getElem?_append_right, hleft]

/-- What the ABI writes for a dynamic value is read back by its length. -/
theorem read_bytesTail (pre bytes post : Bytes) (h : bytes.length < Yul.wordSize)
    : wordAt (pre ++ bytesTail bytes ++ post) pre.length = bytes.length
        ∧
      bytesAt (pre ++ bytesTail bytes ++ post) (pre.length + 32) bytes.length = bytes := by
  unfold bytesTail
  constructor
  . have hassoc : pre ++ (wordBytes bytes.length ++ bytes
        ++ List.replicate ((32 - bytes.length % 32) % 32) 0) ++ post
          = pre ++ (wordBytes bytes.length ++ (bytes
            ++ (List.replicate ((32 - bytes.length % 32) % 32) 0 ++ post))) := by
      simp [List.append_assoc]
    have hread := wordAt_append_right pre (wordBytes bytes.length ++ (bytes
      ++ (List.replicate ((32 - bytes.length % 32) % 32) 0 ++ post))) 0
    rw [Nat.add_zero] at hread
    rw [hassoc, hread, wordAt_append_left (by simp), wordAt_wordBytes h]
  . have hassoc : pre ++ (wordBytes bytes.length ++ bytes
        ++ List.replicate ((32 - bytes.length % 32) % 32) 0) ++ post
          = (pre ++ wordBytes bytes.length) ++ (bytes
            ++ (List.replicate ((32 - bytes.length % 32) % 32) 0 ++ post)) := by
      simp [List.append_assoc]
    have hlen : pre.length + 32 = (pre ++ wordBytes bytes.length).length := by simp
    rw [hassoc, hlen, bytesAt_append_right]

theorem shiftRight_high {high low n : Nat} (hlow : low < 2 ^ n) (k : Nat)
    : (high * 2 ^ n + low) >>> (n + k) = high >>> k := by
  have hhigh : (high * 2 ^ n + low) >>> n = high := by
    rw [Nat.shiftRight_eq_div_pow, Nat.mul_comm, Nat.mul_add_div (Nat.two_pow_pos n),
      Nat.div_eq_of_lt hlow, Nat.add_zero]
  rw [Nat.shiftRight_add, hhigh]

theorem shiftRight_low {high low n k : Nat} (hk : k + 8 ≤ n)
    : (high * 2 ^ n + low) >>> k % 2 ^ 8 = low >>> k % 2 ^ 8 := by
  have hpow : 2 ^ n = 2 ^ k * (2 ^ 8 * 2 ^ (n - k - 8)) := by
    rw [← Nat.pow_add, ← Nat.pow_add]
    congr 1
    omega
  have hmul : high * 2 ^ n + low = low + 2 ^ k * (2 ^ 8 * (high * 2 ^ (n - k - 8))) := by
    rw [hpow]
    ring
  rw [Nat.shiftRight_eq_div_pow, Nat.shiftRight_eq_div_pow, hmul,
    Nat.add_mul_div_left _ _ (Nat.two_pow_pos k), Nat.add_mul_mod_self_left]

/-- Two halves of a word. -/
theorem uintBytes_append {high low : Nat} (hlow : low < 2 ^ 128)
    : uintBytes 16 high ++ uintBytes 16 low = wordBytes (high * 2 ^ 128 + low) := by
  have hrange : List.range 32 = List.range 16 ++ (List.range 16).map (16 + ·) := by decide
  have hfirst : ∀ i ∈ List.range 16,
      UInt8.ofNat (high >>> (8 * (16 - 1 - i)))
        = UInt8.ofNat ((high * 2 ^ 128 + low) >>> (8 * (31 - i))) := by
    intro i hi
    have hi' : i < 16 := List.mem_range.mp hi
    have hidx : 8 * (31 - i) = 128 + 8 * (16 - 1 - i) := by omega
    rw [hidx, shiftRight_high hlow]
  have hlast : ∀ i ∈ List.range 16,
      UInt8.ofNat (low >>> (8 * (16 - 1 - i)))
        = UInt8.ofNat ((high * 2 ^ 128 + low) >>> (8 * (31 - (16 + i)))) := by
    intro i hi
    have hi' : i < 16 := List.mem_range.mp hi
    have hidx : 31 - (16 + i) = 16 - 1 - i := by omega
    apply UInt8.toNat_inj.mp
    rw [UInt8.toNat_ofNat', UInt8.toNat_ofNat', hidx, shiftRight_low (by omega)]
  unfold uintBytes wordBytes
  rw [hrange, List.map_append, List.map_map, List.map_congr_left hfirst, List.map_congr_left hlast]
  rfl

/-! ## Parts of a number -/

/-- Bytes in the middle of a number. -/
theorem uintAt_uintBytes {len offset n : Nat} (h : offset + n ≤ len) (v : Nat)
    : uintAt (uintBytes len v) offset n = v >>> (8 * (len - offset - n)) % 256 ^ n := by
  have hfold := foldl_bytes v (len - offset) n (by omega)
  rw [← hfold, uintAt_eq]
  apply List.foldl_ext
  intro acc i hi
  have hi' : i < n := List.mem_range.mp hi
  have hlt : offset + i < len := by omega
  have hidx : len - 1 - (offset + i) = len - offset - 1 - i := by omega
  simp [uintBytes, hlt, hidx]

/-- The low bytes of a number. -/
theorem drop_uintBytes (m n v : Nat) : (uintBytes (m + n) v).drop m = uintBytes n v := by
  unfold uintBytes
  rw [List.range_add, List.map_append]
  rw [List.drop_left' (by simp)]
  rw [List.map_map]
  apply List.map_congr_left
  intro i hi
  have hi' : i < n := List.mem_range.mp hi
  have hidx : m + n - 1 - (m + i) = n - 1 - i := by omega
  rw [Function.comp_apply, hidx]

/-- Zero bytes in front of a number. -/
theorem replicate_append_uintBytes {m n v : Nat} (h : v < 256 ^ n)
    : List.replicate m 0 ++ uintBytes n v = uintBytes (m + n) v := by
  have hpow : 256 ^ n = 2 ^ (8 * n) := (Nat.pow_mul 2 8 n).symm
  have hzeros : (uintBytes (m + n) v).take m = List.replicate m 0 := by
    apply List.eq_replicate_iff.mpr
    refine ⟨by simp, ?_⟩
    intro b hb
    unfold uintBytes at hb
    rw [← List.map_take] at hb
    rw [List.take_range] at hb
    obtain ⟨i, hi, rfl⟩ := List.mem_map.mp hb
    have hi' : i < m := by
      have := List.mem_range.mp hi
      omega
    have hzero : v >>> (8 * (m + n - 1 - i)) = 0 := by
      rw [Nat.shiftRight_eq_div_pow]
      apply Nat.div_eq_of_lt
      rw [hpow] at h
      exact Nat.lt_of_lt_of_le h (Nat.pow_le_pow_right (by decide) (by omega))
    rw [hzero]
    rfl
  rw [← drop_uintBytes m n v]
  rw [← hzeros]
  rw [List.take_append_drop]

theorem uintBytes_mod (n v : Nat) : uintBytes n (v % 2 ^ (8 * n)) = uintBytes n v := by
  apply List.map_congr_left
  intro i hi
  have hi' : i < n := List.mem_range.mp hi
  have hsplit : v = v / 2 ^ (8 * n) * 2 ^ (8 * n) + v % 2 ^ (8 * n) := (Nat.div_add_mod' _ _).symm
  apply UInt8.toNat_inj.mp
  rw [UInt8.toNat_ofNat', UInt8.toNat_ofNat']
  conv_rhs => rw [hsplit]
  exact (shiftRight_low (by omega)).symm

end Abi
